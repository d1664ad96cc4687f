import Knoa.Extensions.BridgeSteps
import Knoa.Library.Transition
import Mathlib.Data.List.Dedup

/-!
# Which changes are delivered

The log of a bridge against the inbox: an event ID is delivered when the trigger has never had it,
and a reconciliation that runs to its end hands every Resource over once.
-/
namespace Knoa.Extensions
open BridgeEnv (Work ownDefinitions)
open Knoa.Automation Knoa.Tasks Relational Loops
open Transition (final trace)

variable {env : BridgeEnv} {round : Round} {s s' t : Bridge}

/-- The Resources that a round has handed over, with their definitions. -/
def Bridge.emitted (s : Bridge) (r : Nat) : List (String × String) :=
  (s.observed.filter fun o => o.round == r && o.emits).map fun o => (o.uri, o.taskId)

/-- The Resources that a round had to hand over. -/
def RoundReport.due (report : RoundReport) : List (String × String) :=
  report.emissions.map fun e => (e.1, e.2.1)

def NewsDelivered (log : List Observation) : Prop :=
  ∀ before o after, log = before ++ o :: after → o.handling = .known ∨ o.handling = .delivered →
    (o.handling = .delivered ↔ ∀ p ∈ before, p.key ≠ o.key)

structure ChangesObserved (env : BridgeEnv) (s : Bridge) : Prop where
  named : ∀ o ∈ s.observed, o.handling ≠ .foreign → o.eventId = env.resourceEventId o.uri o.contents
  news : NewsDelivered s.observed
  /-- A delivery stores exactly one event. -/
  once : ∀ o ∈ s.observed, o.handling = .delivered →
    (s.triggers.events.rows.filter fun event =>
      event.key == (o.triggerId, o.eventId) && event.state != .baselined).length = 1
  /-- Nothing else stores one, apart from other callers. -/
  only : ∀ event ∈ s.triggers.events.rows, event.state ≠ .baselined →
    ∃ o ∈ s.observed, o.key = some event.key ∧ (o.handling = .delivered ∨ o.handling = .foreign)
  complete : ∀ r report, s.rounds[r]? = some report → report.stop = none →
    s.emitted r = report.due ∧ report.due.Nodup

structure LogSound (env : BridgeEnv) (s : Bridge) : Prop where
  inbox : ∃ log, Received env.triggers s.triggers log
  keys : ∀ key, (∃ event ∈ s.triggers.events.rows, event.key = key) ↔
    ∃ o ∈ s.observed, o.key = some key
  named : ∀ o ∈ s.observed, o.handling ≠ .foreign → o.eventId = env.resourceEventId o.uri o.contents
  news : NewsDelivered s.observed
  stored : ∀ o ∈ s.observed, o.handling = .delivered →
    ∃ event ∈ s.triggers.events.rows, o.key = some event.key ∧ event.state ≠ .baselined
  only : ∀ event ∈ s.triggers.events.rows, event.state ≠ .baselined →
    ∃ o ∈ s.observed, o.key = some event.key ∧ (o.handling = .delivered ∨ o.handling = .foreign)

theorem NewsDelivered.snoc {log : List Observation} {o : Observation} (h : NewsDelivered log)
    (new : o.handling = .known ∨ o.handling = .delivered →
      (o.handling = .delivered ↔ ∀ p ∈ log, p.key ≠ o.key)) : NewsDelivered (log ++ [o]) := by
  intro before q after split answered
  rcases List.eq_nil_or_concat after with rfl | ⟨rest, last, rfl⟩
  · obtain ⟨rfl, single⟩ := List.append_inj' split rfl
    cases single
    exact new answered
  · rw [List.concat_eq_append, ← List.cons_append, ← List.append_assoc] at split
    obtain ⟨rfl, -⟩ := List.append_inj' split rfl
    exact h before q rest rfl answered

variable {new : List Observation} {emissions : List (String × String × Bool)}
  {owned : List OwnedDefinition}

theorem NewsDelivered.append {log : List Observation} (h : NewsDelivered log)
    (others : ∀ o ∈ new, o.handling ≠ .known ∧ o.handling ≠ .delivered) :
    NewsDelivered (log ++ new) := by
  induction new generalizing log with
  | nil =>
    rw [List.append_nil]
    exact h
  | cons o rest ih =>
    have here := others o List.mem_cons_self
    rw [List.append_cons]
    refine ih (h.snoc ?_) fun p member => others p (List.mem_cons_of_mem _ member)
    rintro (known | delivered)
    · exact absurd known here.1
    · exact absurd delivered here.2

theorem LogSound.calm (h : LogSound env s) (calm : Calm env s t) : LogSound env t := by
  obtain ⟨inbox, keys, named, news, stored, only⟩ := h
  rw [← calm.observed] at keys named news stored only
  rw [← calm.events] at keys stored only
  exact ⟨inbox.imp calm.inbox, keys, named, news, stored, only⟩

/-- What a step of the inbox makes of the events that are not of an inventory. -/
theorem LogSound.grown (h : LogSound env s) {triggers : TriggerStore} {failed : List String}
    (taken : TriggerTaken env.triggers s.triggers failed triggers)
    (keys : ∀ event ∈ triggers.events.rows, (∃ old ∈ s.triggers.events.rows, old.key = event.key) ∨
      ∃ o ∈ new, o.key = some event.key ∧
        (event.state ≠ .baselined → o.handling = .delivered ∨ o.handling = .foreign))
    (covered : ∀ o ∈ new, ∀ key, o.key = some key → ∃ event ∈ triggers.events.rows, event.key = key)
    (named : ∀ o ∈ new, o.handling ≠ .foreign → o.eventId = env.resourceEventId o.uri o.contents)
    (news : NewsDelivered (s.observed ++ new)) (stored : ∀ o ∈ new, o.handling = .delivered →
      ∃ event ∈ triggers.events.rows, o.key = some event.key ∧ event.state ≠ .baselined) :
    LogSound env { s with triggers, observed := s.observed ++ new } := by
  obtain ⟨log, inbox⟩ := h.inbox
  have inbox' := inbox.kept taken
  refine ⟨⟨_, inbox'⟩, ?_, ?_, news, ?_, ?_⟩
  · intro key
    constructor
    · rintro ⟨event, member, rfl⟩
      rcases keys event member with ⟨old, before, same⟩ | ⟨o, fresh, named, -⟩
      · obtain ⟨o, seen, is⟩ := (h.keys event.key).mp ⟨old, before, same⟩
        exact ⟨o, List.mem_append_left _ seen, is⟩
      · exact ⟨o, List.mem_append_right _ fresh, named⟩
    · rintro ⟨o, member, is⟩
      rcases List.mem_append.mp member with seen | fresh
      · obtain ⟨event, before, same⟩ := (h.keys key).mpr ⟨o, seen, is⟩
        rcases taken.event_kept before with kept | ⟨-, current, kept, -, keyed, -⟩
        · exact ⟨event, kept, same⟩
        · exact ⟨current, kept, keyed.trans same⟩
      · exact covered o fresh key is
  · intro o member
    rcases List.mem_append.mp member with seen | fresh
    · exact h.named o seen
    · exact named o fresh
  · intro o member delivered
    rcases List.mem_append.mp member with seen | fresh
    · obtain ⟨event, before, same, live⟩ := h.stored o seen delivered
      rcases taken.event_kept before with kept | ⟨-, current, kept, -, keyed, live'⟩
      · exact ⟨event, kept, same, live⟩
      · exact ⟨current, kept, same.trans (congrArg some keyed.symm), live'⟩
    · exact stored o fresh delivered
  · intro event member live
    rcases keys event member with ⟨old, before, same⟩ | ⟨o, fresh, named, how⟩
    · have wasLive : old.state ≠ .baselined := by
        intro inventory
        rcases taken.event_kept before with kept | ⟨was, -⟩
        · have one : old = event :=
            List.inj_on_of_nodup_map inbox'.tended.once kept member same
          exact live (one ▸ inventory)
        · exact was inventory
      obtain ⟨o, seen, is, how⟩ := h.only old before wasLive
      exact ⟨o, List.mem_append_left _ seen, is.trans (congrArg some same), how⟩
    · exact ⟨o, List.mem_append_right _ fresh, named, how live⟩

theorem Observation.key_of {o : Observation} (h : o.handling ≠ .unbound) :
    o.key = some (o.triggerId, o.eventId) := if_neg h

theorem LogSound.emitted {uri : String} {definition : EventDefinition} (h : LogSound env s)
    (emitted : Emitted env round uri definition s s') : LogSound env s' := by
  obtain ⟨calm, -, -, named, contents, event, handled⟩ := emitted
  next t triggers o =>
  have sound := h.calm calm
  have isNamed : ∀ p ∈ [o], p.handling ≠ .foreign →
      p.eventId = env.resourceEventId p.uri p.contents := by
    intro p single _
    rw [List.mem_singleton.mp single, event, named]
  have old : ∀ event ∈ t.triggers.events.rows, (∃ old ∈ t.triggers.events.rows,
      old.key = event.key) ∨ ∃ p ∈ [o], p.key = some event.key ∧
        (event.state ≠ .baselined → p.handling = .delivered ∨ p.handling = .foreign) :=
    fun event member => .inl ⟨event, member, rfl⟩
  rcases handled with ⟨unbound, rfl⟩ | ⟨known, handed⟩ | ⟨delivered, handed⟩
  · refine sound.grown .same old ?_ isNamed (sound.news.append ?_) ?_
    · intro p single key is
      rw [List.mem_singleton.mp single, Observation.key, if_pos unbound] at is
      cases is
    · intro p single
      rw [List.mem_singleton.mp single, unbound]
      decide
    · intro p single delivered
      rw [List.mem_singleton.mp single, unbound] at delivered
      cases delivered
  · have keyed := Observation.key_of (o := o) (by rw [known]; decide)
    cases handed with
    | known stored =>
      obtain ⟨event, member, same⟩ := stored
      refine sound.grown .same old ?_ isNamed (sound.news.snoc ?_) ?_
      · intro p single key is
        rw [List.mem_singleton.mp single, keyed, Option.some.injEq] at is
        exact ⟨event, member, same.trans is⟩
      · intro _
        obtain ⟨p, seen, is⟩ := (sound.keys _).mp ⟨event, member, same⟩
        rw [known]
        refine iff_of_false (by decide) fun fresh => ?_
        exact fresh p seen (is.trans keyed.symm)
      · intro p single delivered
        rw [List.mem_singleton.mp single, known] at delivered
        cases delivered
  · have keyed := Observation.key_of (o := o) (by rw [delivered]; decide)
    cases handed with
    | delivered new taken rows isKey state =>
      next row =>
      have stored : row ∈ triggers.events.rows := by
        rw [rows]
        exact List.mem_concat_self
      refine sound.grown taken ?_ ?_ isNamed (sound.news.snoc ?_) ?_
      · intro event member
        rw [rows] at member
        rcases List.mem_concat.mp member with before | added
        · exact .inl ⟨event, before, rfl⟩
        · rw [added, isKey]
          exact .inr ⟨o, List.mem_singleton.mpr rfl, keyed, fun _ => .inl delivered⟩
      · intro p single key is
        rw [List.mem_singleton.mp single, keyed, Option.some.injEq] at is
        exact ⟨row, stored, isKey.trans is⟩
      · intro _
        refine iff_of_true delivered fun p seen same => ?_
        obtain ⟨event, member, is⟩ := (sound.keys _).mpr ⟨p, seen, same.trans keyed⟩
        exact new event member is
      · intro p single _
        rw [List.mem_singleton.mp single, keyed]
        exact ⟨row, stored, congrArg some isKey.symm, by rw [state]; decide⟩

def BridgeEnv.readings (env : BridgeEnv) (round : Round) (owned : OwnedDefinition) (r : Nat) :
    List Observation :=
  ((env.matching round owned.definition).filter fun entry =>
    round.readable entry.1 owned.definition.taskId).map fun entry =>
      { round := r, taskId := owned.definition.taskId, uri := entry.1
        contents := round.content entry.1 owned.definition.taskId
        triggerId := strip owned.triggerId
        eventId := env.resourceEventId entry.1 (round.content entry.1 owned.definition.taskId)
        handling := .baselined }

def BridgeEnv.present (env : BridgeEnv) (round : Round) (owned : OwnedDefinition) :
    List Existing :=
  (env.matching round owned.definition).map fun entry =>
    { taskId := owned.definition.taskId, triggerId := strip owned.triggerId, uri := entry.1
      contents := round.content entry.1 owned.definition.taskId
      wasRead := round.readable entry.1 owned.definition.taskId }

inductive Baselined (env : BridgeEnv) (round : Round) (owned : OwnedDefinition) (s : Bridge) :
    Bridge → Prop
  | skipped (seen : triggerNeedsBaseline owned.trigger = false) : Baselined env round owned s s
  | same : Baselined env round owned s
      { s with baselineCalls := s.baselineCalls ++ [(s.rounds.length, owned.definition.taskId)] }
  | recorded {triggers : TriggerStore} {row : TriggerRow}
      (taken : TriggerTaken env.triggers s.triggers [] triggers)
      (found : s.triggers.triggers.lookup (strip owned.triggerId) = some row)
      (unseen : row.lastEventAt = none)
      (only : ∀ event ∈ triggers.events.rows, event ∈ s.triggers.events.rows ∨
        ∃ o ∈ env.readings round owned s.rounds.length,
          event.key = (o.triggerId, o.eventId) ∧ event.state = .baselined)
      (listed : ∀ o ∈ env.readings round owned s.rounds.length,
        ∃ event ∈ triggers.events.rows, event.key = (o.triggerId, o.eventId)) :
      Baselined env round owned s
        { s with
          triggers, baselineCalls := s.baselineCalls ++ [(s.rounds.length, owned.definition.taskId)]
          observed := s.observed ++ env.readings round owned s.rounds.length
          existing := s.existing ++ env.present round owned }

theorem inventory_eq (env : BridgeEnv) (round : Round) (owned : OwnedDefinition) (r : Nat) :
    (env.inventory round owned.definition).map Prod.fst =
      (env.readings round owned r).map Observation.eventId := by
  unfold BridgeEnv.inventory BridgeEnv.readings
  rw [List.map_map, List.map_map]
  rfl

theorem baselineDefinition_baselined (s : Bridge) (owned : OwnedDefinition) :
    Baselined env round owned s (env.baselineDefinition round s owned) := by
  unfold BridgeEnv.baselineDefinition
  split
  next seen => exact .skipped seen
  · dsimp only
    split
    · exact .same
    next inserted triggers ran =>
      have valid : ∀ item ∈ env.inventory round owned.definition,
          Tasks.IsIdentifier item.1 256 := by
        intro item member
        obtain ⟨entry, -, rfl⟩ := List.mem_map.mp member
        exact env.identified _ _ _
      have names := inventory_eq env round owned s.rounds.length
      obtain ⟨row, found, ⟨seen, rfl⟩ | ⟨unseen, only, listed⟩⟩ := baseline_effect valid ran
      · rw [if_pos (by rw [found]; exact seen)]
        exact .same
      · have keyed := Table.lookup_key found
        rw [if_neg (by rw [found]; simp [unseen])]
        refine .recorded (baseline_taken ran) found unseen ?_ ?_
        · intro event member
          refine (only event member).imp_right ?_
          rintro ⟨item, among, key, state⟩
          have known := List.mem_map_of_mem (f := Prod.fst) among
          rw [names] at known
          obtain ⟨o, reading, same⟩ := List.mem_map.mp known
          refine ⟨o, reading, ?_, state⟩
          obtain ⟨entry, -, rfl⟩ := List.mem_map.mp reading
          rw [key, keyed, ← same]
        · intro o reading
          have known := List.mem_map_of_mem (f := Observation.eventId) reading
          rw [← names] at known
          obtain ⟨item, among, same⟩ := List.mem_map.mp known
          obtain ⟨event, member, key⟩ := listed item among
          refine ⟨event, member, ?_⟩
          obtain ⟨entry, -, rfl⟩ := List.mem_map.mp reading
          rw [key, keyed, same]

theorem LogSound.baselined {owned : OwnedDefinition} (h : LogSound env s)
    (baselined : Baselined env round owned s s') : LogSound env s' := by
  cases baselined with
  | skipped => exact h
  | same => exact ⟨h.inbox, h.keys, h.named, h.news, h.stored, h.only⟩
  | @recorded triggers row taken found unseen only listed =>
    have reading : ∀ o ∈ env.readings round owned s.rounds.length,
        o.handling = .baselined ∧ o.eventId = env.resourceEventId o.uri o.contents := by
      intro o member
      obtain ⟨entry, -, rfl⟩ := List.mem_map.mp member
      exact ⟨rfl, rfl⟩
    have keyed : ∀ o ∈ env.readings round owned s.rounds.length,
        o.key = some (o.triggerId, o.eventId) := by
      intro o member
      exact Observation.key_of (by rw [(reading o member).1]; decide)
    have named : ∀ o ∈ env.readings round owned s.rounds.length, o.handling ≠ .foreign →
        o.eventId = env.resourceEventId o.uri o.contents := fun o member _ => (reading o member).2
    have grown := h.grown taken ?_ ?_ named (h.news.append ?_) ?_
    · exact ⟨grown.inbox, grown.keys, grown.named, grown.news, grown.stored, grown.only⟩
    · intro event member
      rcases only event member with old | ⟨o, among, key, state⟩
      · exact .inl ⟨event, old, rfl⟩
      · refine .inr ⟨o, among, (keyed o among).trans (congrArg some key.symm), ?_⟩
        intro live
        exact absurd state live
    · intro o member key is
      obtain ⟨event, stored, same⟩ := listed o member
      rw [keyed o member, Option.some.injEq] at is
      exact ⟨event, stored, same.trans is⟩
    · intro o member
      rw [(reading o member).1]
      decide
    · intro o member delivered
      rw [(reading o member).1] at delivered
      cases delivered

structure RoundDone (s : Bridge) (r : Nat) (report : RoundReport) : Prop where
  distinct : report.due.Nodup
  finished : report.stop = none → (∀ e ∈ report.emissions, e.2.2 = true) ∧
    s.emitted r = report.due ∧ (∀ task ∈ report.baselines, (r, task) ∈ s.baselineCalls) ∧
    ∀ uri ∈ report.subscriptions, (r, uri) ∈ s.subscriptionCalls
  unread : ∀ uri task, report.stop = some (.unread uri task) → ∃ done rest,
    report.emissions = done ++ (uri, task, false) :: rest ∧
      (∀ e ∈ done, e.2.2 = true) ∧ s.emitted r = done.map fun e => (e.1, e.2.1)

structure RoundsSound (s : Bridge) : Prop where
  told : ∀ r report, s.rounds[r]? = some report → RoundDone s r report
  ahead : ∀ o ∈ s.observed, o.emits = true → o.round < s.rounds.length

/-- The logs grow, and what earlier rounds have handed over stays. -/
structure Grows (s s' : Bridge) : Prop where
  emitted : ∀ r < s.rounds.length, s'.emitted r = s.emitted r
  baselineCalls : ∀ call ∈ s.baselineCalls, call ∈ s'.baselineCalls
  subscriptionCalls : ∀ call ∈ s.subscriptionCalls, call ∈ s'.subscriptionCalls

theorem RoundDone.grows {r : Nat} {report : RoundReport} (done : RoundDone s r report)
    (grows : Grows s s') (earlier : r < s.rounds.length) : RoundDone s' r report where
  distinct := done.distinct
  finished ended := by
    obtain ⟨readable, emitted, baselines, subscriptions⟩ := done.finished ended
    exact ⟨readable, (grows.emitted r earlier).trans emitted,
      fun task member => grows.baselineCalls _ (baselines task member),
      fun uri member => grows.subscriptionCalls _ (subscriptions uri member)⟩
  unread uri task ended := by
    obtain ⟨before, rest, split, readable, emitted⟩ := done.unread uri task ended
    exact ⟨before, rest, split, readable, (grows.emitted r earlier).trans emitted⟩

theorem emitted_of_observed {r : Nat} (same : s'.observed = s.observed) :
    s'.emitted r = s.emitted r := by
  unfold Bridge.emitted
  rw [same]

theorem emitted_append (r : Nat)
    (appended : s'.observed = s.observed ++ new) (apart : ∀ o ∈ new, o.emits = true → o.round ≠ r) :
    s'.emitted r = s.emitted r := by
  have none : (new.filter fun o => o.round == r && o.emits) = [] := by
    refine List.filter_eq_nil_iff.mpr fun o member both => ?_
    rw [Bool.and_eq_true, beq_iff_eq] at both
    exact apart o member both.2 both.1
  unfold Bridge.emitted
  rw [appended, List.filter_append, none, List.append_nil]

theorem Grows.refl (s : Bridge) : Grows s s := ⟨fun _ _ => rfl, fun _ h => h, fun _ h => h⟩

theorem Grows.trans (first : Grows s t) (second : Grows t s') (same : t.rounds = s.rounds) :
    Grows s s' where
  emitted r earlier := (second.emitted r (same ▸ earlier)).trans (first.emitted r earlier)
  baselineCalls call member := second.baselineCalls call (first.baselineCalls call member)
  subscriptionCalls call member :=
    second.subscriptionCalls call (first.subscriptionCalls call member)

theorem Calm.grows (calm : Calm env s t) : Grows s t where
  emitted _ _ := emitted_of_observed calm.observed
  baselineCalls _ member := calm.baselineCalls ▸ member
  subscriptionCalls _ member := calm.subscriptionCalls ▸ member

/-- How far the loop over the Resources has come. -/
structure InRound (env : BridgeEnv) (start : Bridge) (emissions : List (String × String × Bool))
    (s : Bridge) : Prop where
  log : LogSound env s
  grows : Grows start s
  rounds : s.rounds = start.rounds
  existing : s.existing = start.existing
  subscribed : s.subscribed = start.subscribed
  subscriptionCalls : s.subscriptionCalls = start.subscriptionCalls
  readable : ∀ e ∈ emissions, e.2.2 = true
  emitted : s.emitted start.rounds.length = emissions.map fun e => (e.1, e.2.1)
  ahead : ∀ o ∈ s.observed, o.emits = true → o.round ≤ start.rounds.length

theorem InRound.emit {start : Bridge} {uri : String}
    {definition : EventDefinition} (h : InRound env start emissions s)
    (emitted : Emitted env round uri definition s s') :
    InRound env start (emissions ++ [(uri, definition.taskId, true)]) s' := by
  have log := h.log.emitted emitted
  obtain ⟨calm, numbered, task, named, contents, event, handled⟩ := emitted
  next t triggers o =>
  have here : o.round = start.rounds.length := numbered.trans (congrArg List.length h.rounds)
  have emits : o.emits = true := by
    unfold Observation.emits
    rcases handled with ⟨how, -⟩ | ⟨how, -⟩ | ⟨how, -⟩ <;> rw [how] <;> rfl
  refine ⟨log, ⟨?_, ?_, ?_⟩, calm.rounds.trans h.rounds, calm.existing.trans h.existing,
    calm.subscribed.trans h.subscribed, calm.subscriptionCalls.trans h.subscriptionCalls, ?_, ?_,
    ?_⟩
  · intro r earlier
    have kept : Bridge.emitted { t with triggers, observed := t.observed ++ [o] } r =
        t.emitted r := by
      refine emitted_append r rfl fun p single _ => ?_
      rw [List.mem_singleton.mp single, here]
      exact (Nat.ne_of_lt earlier).symm
    exact kept.trans ((emitted_of_observed calm.observed).trans (h.grows.emitted r earlier))
  · intro call member
    exact calm.baselineCalls ▸ h.grows.baselineCalls call member
  · intro call member
    exact calm.subscriptionCalls ▸ h.grows.subscriptionCalls call member
  · intro e member
    rcases List.mem_concat.mp member with old | new
    · exact h.readable e old
    · rw [new]
  · have before := (emitted_of_observed (r := start.rounds.length) calm.observed).trans h.emitted
    unfold Bridge.emitted at before ⊢
    rw [List.filter_append, List.map_append, before, List.map_append,
      List.filter_cons_of_pos (by rw [here, emits, beq_self_eq_true]; rfl)]
    rw [List.filter_nil, List.map_singleton, List.map_singleton, task, named]
  · intro p member emitting
    rcases List.mem_concat.mp member with old | new
    · exact h.ahead p (calm.observed ▸ old) emitting
    · rw [new, here]

theorem InRound.calm {start : Bridge}
    (h : InRound env start emissions s) (calm : Calm env s t) : InRound env start emissions t where
  log := h.log.calm calm
  grows := h.grows.trans calm.grows h.rounds
  rounds := calm.rounds.trans h.rounds
  existing := calm.existing.trans h.existing
  subscribed := calm.subscribed.trans h.subscribed
  subscriptionCalls := calm.subscriptionCalls.trans h.subscriptionCalls
  readable := h.readable
  emitted := (emitted_of_observed calm.observed).trans h.emitted
  ahead o member := h.ahead o (calm.observed ▸ member)

theorem InRound.start (log : LogSound env s) (rounds : RoundsSound s) : InRound env s [] s where
  log := log
  grows := Grows.refl s
  rounds := rfl
  existing := rfl
  subscribed := rfl
  subscriptionCalls := rfl
  readable e member := by cases member
  emitted := by
    unfold Bridge.emitted
    rw [List.map_nil, List.map_eq_nil_iff, List.filter_eq_nil_iff]
    intro o member both
    rw [Bool.and_eq_true, beq_iff_eq] at both
    have earlier := rounds.ahead o member both.2
    omega
  ahead o member emits := Nat.le_of_lt (rounds.ahead o member emits)

/-- Some call has ended the loop. -/
structure Stopped (env : BridgeEnv) (start : Bridge) (report : RoundReport) (stop : Stop)
    (s : Bridge) : Prop where
  come : ∃ done, InRound env start done s ∧ ∃ rest, report.emissions = done ++ rest ∧
    ∀ uri task, stop = .unread uri task → ∃ later, rest = (uri, task, false) :: later

theorem processWork_none {work : Work} {start : Bridge} (h : InRound env start emissions s)
    (ran : env.processWork round work s = (none, s')) :
    InRound env start (emissions ++ (work.emission round).toList) s' := by
  cases work with
  | invalid uri => cases ran
  | resource uri resource owned =>
    simp only [BridgeEnv.processWork] at ran
    simp only [Work.emission]
    split at ran
    next needs =>
      cases ran
      rw [if_pos needs, Option.toList_none, List.append_nil]
      exact h
    next seen =>
      obtain ⟨readable, emitted⟩ := emitResourceEvent_none ran
      rw [if_neg seen, Option.toList_some, readable]
      exact h.emit emitted

theorem loop_inRound {start : Bridge} {raised : Option Stop}
    (log : LogSound env start) (rounds : RoundsSound start)
    (ran : untilStop (env.processWork round) (env.worklist round owned) start = (raised, s')) :
    (raised = none ∧ InRound env start (env.report round owned start).emissions s') ∨
      ∃ stop, raised = some stop ∧ Stopped env start (env.report round owned start) stop s' := by
  let Come := fun (done : List Work) s => InRound env start (done.filterMap (Work.emission round)) s
  have kept : ∀ done work s s', Come done s →
      env.processWork round work s = (none, s') → Come (done ++ [work]) s' := by
    intro done work s s' come ran
    have next := processWork_none come ran
    change InRound env start ((done ++ [work]).filterMap _) s'
    rw [List.filterMap_append]
    cases emission : Work.emission round work with
    | none =>
      rw [emission] at next
      rw [List.filterMap_cons_none emission]
      exact next
    | some e =>
      rw [emission] at next
      rw [List.filterMap_cons_some emission]
      exact next
  have begun : Come [] start := InRound.start log rounds
  rcases untilStop_prefix kept [] begun (l := env.worklist round owned) with all | stopped
  · rw [ran] at all
    exact .inl all
  · obtain ⟨done, work, rest, t, stop, split, come, raises, stops⟩ := stopped
    rw [ran] at raises stops
    refine .inr ⟨stop, stops, ?_⟩
    have emissions : (env.report round owned start).emissions =
        done.filterMap (Work.emission round) ++
          ((work.emission round).toList ++ rest.filterMap (Work.emission round)) := by
      change (env.worklist round owned).filterMap _ = _
      rw [split, List.filterMap_append]
      cases emission : Work.emission round work with
      | none =>
        rw [List.filterMap_cons_none emission]
        rfl
      | some e =>
        rw [List.filterMap_cons_some emission]
        rfl
    cases work with
    | invalid uri =>
      cases raises
      refine ⟨_, come, _, emissions, fun uri task same => ?_⟩
      cases same
    | resource uri resource own =>
      simp only [BridgeEnv.processWork] at raises
      split at raises
      · cases raises
      next seen =>
        obtain ⟨calm, ⟨⟨error, rfl⟩, -⟩ | ⟨rfl, unread⟩⟩ := emitResourceEvent_some raises
        · refine ⟨_, come.calm calm, _, emissions, fun uri task same => ?_⟩
          cases same
        · refine ⟨_, come.calm calm, _, emissions, fun uri task same => ?_⟩
          cases same
          simp only [Work.emission]
          rw [if_neg seen, unread]
          exact ⟨_, rfl⟩

structure Baselining (env : BridgeEnv) (start : Bridge) (tasks : List String) (s : Bridge) :
    Prop where
  log : LogSound env s
  grows : Grows start s
  rounds : s.rounds = start.rounds
  emitted : ∀ r, s.emitted r = start.emitted r
  subscribed : s.subscribed = start.subscribed
  called : ∀ task ∈ tasks, (start.rounds.length, task) ∈ s.baselineCalls
  ahead : ∀ o ∈ s.observed, o.emits = true → o ∈ start.observed

theorem Baselining.next {start : Bridge} {tasks : List String} {owned : OwnedDefinition}
    (h : Baselining env start tasks s) : Baselining env start
      (tasks ++ if triggerNeedsBaseline owned.trigger then [owned.definition.taskId] else [])
      (env.baselineDefinition round s owned) := by
  have baselined := @baselineDefinition_baselined env round s owned
  have log := h.log.baselined baselined
  have numbered : s.rounds.length = start.rounds.length := congrArg List.length h.rounds
  have listed : ∀ {calls : List (Nat × String)} {more : List String},
      (∀ call ∈ s.baselineCalls, call ∈ calls) →
      (∀ task ∈ more, (start.rounds.length, task) ∈ calls) →
      ∀ task ∈ tasks ++ more, (start.rounds.length, task) ∈ calls := by
    intro calls more kept new task member
    rcases List.mem_append.mp member with old | fresh
    · exact kept _ (h.called task old)
    · exact new task fresh
  generalize env.baselineDefinition round s owned = s' at baselined log
  cases baselined with
  | skipped seen =>
    rw [seen, if_neg Bool.false_ne_true, List.append_nil]
    exact h
  | same =>
    refine ⟨log, h.grows.trans ⟨fun _ _ => rfl, fun call member => List.mem_append_left _ member,
      fun _ member => member⟩ h.rounds, h.rounds, h.emitted, h.subscribed,
      listed (fun call member => List.mem_append_left _ member) ?_, h.ahead⟩
    intro task member
    split at member
    · rw [List.mem_singleton.mp member, ← numbered]
      exact List.mem_concat_self
    · cases member
  | recorded taken found unseen only among =>
    have quiet : ∀ o ∈ env.readings round owned s.rounds.length, o.emits = false := by
      intro o member
      obtain ⟨entry, -, rfl⟩ := List.mem_map.mp member
      rfl
    have apart : ∀ r, ∀ o ∈ env.readings round owned s.rounds.length,
        o.emits = true → o.round ≠ r := by
      intro r o member emits
      rw [quiet o member] at emits
      cases emits
    refine ⟨log, h.grows.trans ⟨fun r _ => emitted_append r rfl (apart r),
      fun call member => List.mem_append_left _ member, fun _ member => member⟩ h.rounds,
      h.rounds, fun r => (emitted_append r rfl (apart r)).trans (h.emitted r), h.subscribed,
      listed (fun call member => List.mem_append_left _ member) ?_, ?_⟩
    · intro task member
      split at member
      · rw [List.mem_singleton.mp member, ← numbered]
        exact List.mem_concat_self
      · cases member
    · intro o member emits
      rcases List.mem_append.mp member with old | new
      · exact h.ahead o old emits
      · rw [quiet o new] at emits
        cases emits

theorem Baselining.all {start : Bridge} {tasks : List String} (owned : List OwnedDefinition)
    (h : Baselining env start tasks s) : Baselining env start
      (tasks ++ (owned.filter fun own => triggerNeedsBaseline own.trigger).map
        fun own => own.definition.taskId)
      (owned.foldl (env.baselineDefinition round) s) := by
  induction owned generalizing s tasks with
  | nil =>
    rw [List.filter_nil, List.map_nil, List.append_nil]
    exact h
  | cons own rest ih =>
    have next := @ih _ _ (@Baselining.next env round s start tasks own h)
    rw [List.append_assoc] at next
    rw [List.foldl_cons, List.filter_cons]
    split at next
    next needs =>
      rw [if_pos needs, List.map_cons]
      exact next
    next seen =>
      rw [if_neg seen]
      exact next

/-- Subscriptions change, and nothing else. -/
structure Syncing (start : Bridge) (uris : List String) (s : Bridge) : Prop where
  triggers : s.triggers = start.triggers
  observed : s.observed = start.observed
  existing : s.existing = start.existing
  baselineCalls : s.baselineCalls = start.baselineCalls
  rounds : s.rounds = start.rounds
  kept : ∀ call ∈ start.subscriptionCalls, call ∈ s.subscriptionCalls
  called : ∀ uri ∈ uris, (start.rounds.length, uri) ∈ s.subscriptionCalls

theorem Syncing.change {start : Bridge} {uris : List String} {f : Bridge → String → Bridge}
    (calls : ∀ s uri, (f s uri).subscriptionCalls = s.subscriptionCalls ++ [(s.rounds.length, uri)])
    (same : ∀ s uri, (f s uri).triggers = s.triggers ∧ (f s uri).observed = s.observed ∧
      (f s uri).existing = s.existing ∧ (f s uri).baselineCalls = s.baselineCalls ∧
      (f s uri).rounds = s.rounds) (more : List String) (h : Syncing start uris s) :
    Syncing start (uris ++ more) (more.foldl f s) := by
  induction more generalizing s uris with
  | nil =>
    rw [List.append_nil]
    exact h
  | cons uri rest ih =>
    rw [List.append_cons, List.foldl_cons]
    obtain ⟨triggers, observed, existing, baselineCalls, rounds⟩ := same s uri
    refine ih ⟨triggers.trans h.triggers, observed.trans h.observed, existing.trans h.existing,
      baselineCalls.trans h.baselineCalls, rounds.trans h.rounds, ?_, ?_⟩
    · intro call member
      rw [calls]
      exact List.mem_append_left _ (h.kept call member)
    · intro other member
      rw [calls]
      rcases List.mem_concat.mp member with old | new
      · exact List.mem_append_left _ (h.called other old)
      · rw [new, ← h.rounds]
        exact List.mem_concat_self

theorem subscribed_grows (round : Round) (uris : List String) (s : Bridge) :
    ∀ uri ∈ s.subscribed, uri ∈ (uris.foldl (Bridge.subscribe round) s).subscribed := by
  induction uris generalizing s with
  | nil => exact fun uri member => member
  | cons first rest ih =>
    intro uri member
    refine ih _ uri ?_
    unfold Bridge.subscribe
    split
    · exact List.mem_append_left _ member
    · exact member

theorem syncSubscriptions_syncing (owned : List OwnedDefinition) (s : Bridge) :
    Syncing s (env.missingSubscriptions round owned s ++ env.staleSubscriptions round owned s)
      (env.syncSubscriptions round owned s) := by
  have start : Syncing s [] s := ⟨rfl, rfl, rfl, rfl, rfl, fun _ h => h, by simp⟩
  have subscribed := start.change (f := Bridge.subscribe round) (fun _ _ => rfl)
    (fun _ _ => ⟨rfl, rfl, rfl, rfl, rfl⟩) (env.missingSubscriptions round owned s)
  have both := subscribed.change (f := Bridge.unsubscribe round) (fun _ _ => rfl)
    (fun _ _ => ⟨rfl, rfl, rfl, rfl, rfl⟩)
    (env.staleSubscriptions round owned
      ((env.missingSubscriptions round owned s).foldl (Bridge.subscribe round) s))
  refine ⟨both.triggers, both.observed, both.existing, both.baselineCalls, both.rounds, both.kept,
    fun uri member => ?_⟩
  refine both.called uri ?_
  rw [List.nil_append]
  refine (List.mem_append.mp member).elim (List.mem_append_left _) fun stale => ?_
  refine List.mem_append_right _ ?_
  unfold BridgeEnv.staleSubscriptions at stale ⊢
  rw [List.mem_insertionSort, List.mem_filter] at stale ⊢
  exact ⟨subscribed_grows round _ s uri stale.1, stale.2⟩

theorem uris_nodup (env : BridgeEnv) (round : Round) : (env.uris round).Nodup :=
  (List.perm_insertionSort _ _).nodup_iff.mpr (List.nodup_dedup _)

theorem ownDefinitions_sublist {definitions : List EventDefinition}
    (h : ownDefinitions round definitions s = (.ok owned, s')) :
    List.Sublist (owned.map fun own => own.definition.taskId)
      (definitions.map EventDefinition.taskId) := by
  induction definitions generalizing s owned with
  | nil =>
    cases h
    exact List.Sublist.refl _
  | cons definition rest ih =>
    unfold ownDefinitions at h
    split at h
    · exact (ih h).cons _
    · split at h
      · cases h
      · exact (ih h).cons _
      · split at h
        · exact (ih h).cons _
        · cases h
        · split at h
          · cases h
          next later =>
            cases h
            exact (ih later).cons_cons _

theorem due_nodup (distinct : (owned.map fun own => own.definition.taskId).Nodup) (s : Bridge) :
    (env.report round owned s).due.Nodup := by
  have due : (env.report round owned s).due = (env.uris round).flatMap fun uri =>
      ((env.workAt round owned uri).filterMap (Work.emission round)).map fun e => (e.1, e.2.1) := by
    unfold RoundReport.due BridgeEnv.report BridgeEnv.worklist
    rw [List.filterMap_flatMap, List.map_flatMap]
  have of_uri : ∀ uri, List.Sublist
      (((env.workAt round owned uri).filterMap (Work.emission round)).map fun e => (e.1, e.2.1))
      ((owned.map fun own => own.definition.taskId).map (Prod.mk uri)) := by
    intro uri
    unfold BridgeEnv.workAt
    split
    next candidate resource _ _ =>
      have each : ∀ listed : List OwnedDefinition, List.Sublist
          (((listed.map (Work.resource uri resource)).filterMap (Work.emission round)).map
            fun e => (e.1, e.2.1))
          ((listed.map fun own => own.definition.taskId).map (Prod.mk uri)) := by
        intro listed
        induction listed with
        | nil => exact List.Sublist.refl _
        | cons own rest ih =>
          simp only [List.map_cons, List.filterMap_cons, Work.emission]
          split
          · exact ih.cons _
          next e found =>
            split at found <;> cases found
            exact ih.cons_cons _
      exact (each _).trans (((List.filter_sublist).map _).map _)
    · exact List.nil_sublist _
  rw [due, List.nodup_flatMap]
  refine ⟨fun uri _ => ?_, ?_⟩
  · refine (of_uri uri).nodup (distinct.map ?_)
    intro a b same
    exact congrArg Prod.snd same
  · refine (uris_nodup env round).imp fun {a b} apart => ?_
    intro pair inA inB
    obtain ⟨task, -, rfl⟩ := List.mem_map.mp ((of_uri a).subset inA)
    obtain ⟨other, -, same⟩ := List.mem_map.mp ((of_uri b).subset inB)
    exact apart (congrArg Prod.fst same).symm

structure BridgeSound (env : BridgeEnv) (s : Bridge) : Prop where
  log : LogSound env s
  rounds : RoundsSound s

theorem BridgeSound.close {start : Bridge} {report : RoundReport} (sound : BridgeSound env start)
    (log : LogSound env s) (grows : Grows start s) (same : s.rounds = start.rounds)
    (ahead : ∀ o ∈ s.observed, o.emits = true → o.round ≤ start.rounds.length)
    (done : RoundDone s start.rounds.length report) : BridgeSound env (s.close report) := by
  refine ⟨⟨log.inbox, log.keys, log.named, log.news, log.stored, log.only⟩, ?_, ?_⟩
  · intro r told listed
    change (s.rounds ++ [report])[r]? = some told at listed
    rw [same] at listed
    have closes : Grows s (s.close report) := ⟨fun _ _ => rfl, fun _ h => h, fun _ h => h⟩
    rcases Nat.lt_trichotomy r start.rounds.length with earlier | here | beyond
    · rw [List.getElem?_append_left earlier] at listed
      have kept := (sound.rounds.told r told listed).grows grows earlier
      exact kept.grows closes (same ▸ earlier)
    · rw [here, List.getElem?_concat_length] at listed
      cases listed
      rw [here]
      exact ⟨done.distinct, done.finished, done.unread⟩
    · rw [List.getElem?_eq_none (by rw [List.length_append, List.length_singleton]; omega)]
        at listed
      cases listed
  · intro o member emits
    change o.round < (s.rounds ++ [report]).length
    rw [same, List.length_append, List.length_singleton]
    exact Nat.lt_succ_of_le (ahead o member emits)

theorem RoundsSound.calm (h : RoundsSound s) (calm : Calm env s t) : RoundsSound t where
  told r report listed := by
    rw [calm.rounds] at listed
    have earlier : r < s.rounds.length := (List.getElem?_eq_some_iff.mp listed).1
    exact (h.told r report listed).grows calm.grows earlier
  ahead o member emits := by
    rw [calm.rounds]
    exact h.ahead o (calm.observed ▸ member) emits

theorem reconcileProvider_sound (sound : BridgeSound env s) (round : Round) :
    BridgeSound env (env.reconcileProvider round s) := by
  have calm := @ownDefinitions_calm env round round.definitions.rows s
  unfold BridgeEnv.reconcileProvider
  split
  next error t raised =>
    rw [raised] at calm
    have owned : BridgeSound env t := ⟨sound.log.calm calm, sound.rounds.calm calm⟩
    refine owned.close owned.log (Grows.refl t) rfl
      (fun o member emits => Nat.le_of_lt (owned.rounds.ahead o member emits)) ⟨?_, ?_, ?_⟩
    · exact List.nodup_nil
    · nofun
    · nofun
  next owned t listed =>
    rw [listed] at calm
    have begun : BridgeSound env t := ⟨sound.log.calm calm, sound.rounds.calm calm⟩
    have distinct : (env.report round owned t).due.Nodup :=
      due_nodup ((ownDefinitions_sublist listed).nodup round.definitions.keyed) t
    dsimp only
    split
    next stop t' ran =>
      obtain ⟨none, -⟩ | ⟨stop', same, come⟩ := loop_inRound begun.log begun.rounds ran
      · cases none
      · cases same
        obtain ⟨done, reached, rest, split, unread⟩ := come.come
        refine begun.close reached.log reached.grows reached.rounds reached.ahead ⟨distinct, ?_, ?_⟩
        · nofun
        · intro uri task ended
          cases ended
          obtain ⟨later, rfl⟩ := unread uri task rfl
          exact ⟨done, later, split, reached.readable, reached.emitted⟩
    next t' ran =>
      obtain ⟨-, reached⟩ | ⟨stop', same, -⟩ := loop_inRound begun.log begun.rounds ran
      · have baselining : Baselining env t' [] t' :=
          ⟨reached.log, Grows.refl t', rfl, fun _ => rfl, rfl, by simp, fun _ member _ => member⟩
        have baselined := @Baselining.all env round t' t' [] owned baselining
        rw [List.nil_append] at baselined
        have numbered : t'.rounds.length = t.rounds.length := congrArg List.length reached.rounds
        generalize owned.foldl (env.baselineDefinition round) t' = u at baselined
        have missing : env.missingSubscriptions round owned u =
            env.missingSubscriptions round owned t := by
          unfold BridgeEnv.missingSubscriptions
          rw [baselined.subscribed, reached.subscribed]
        have stale : env.staleSubscriptions round owned u =
            env.staleSubscriptions round owned t := by
          unfold BridgeEnv.staleSubscriptions
          rw [baselined.subscribed, reached.subscribed]
        have synced : Syncing u (env.report round owned t).subscriptions
            (if (round.subscribable && round.attached) = true then
              env.syncSubscriptions round owned u else u) := by
          unfold BridgeEnv.report
          split
          next both =>
            rw [← missing, ← stale]
            exact syncSubscriptions_syncing owned u
          next => exact ⟨rfl, rfl, rfl, rfl, rfl, fun _ h => h, by simp⟩
        generalize (if (round.subscribable && round.attached) = true then
          env.syncSubscriptions round owned u else u) = v at synced
        have grows : Grows u v := ⟨fun r _ => emitted_of_observed synced.observed,
          fun call member => synced.baselineCalls ▸ member, synced.kept⟩
        have log : LogSound env v := by
          obtain ⟨inbox, keys, named, news, stored, only⟩ := baselined.log
          rw [← synced.observed] at keys named news stored only
          rw [← synced.triggers] at inbox keys stored only
          exact ⟨inbox, keys, named, news, stored, only⟩
        refine begun.close log ((reached.grows.trans baselined.grows reached.rounds).trans grows
          (baselined.rounds.trans reached.rounds)) (synced.rounds.trans (baselined.rounds.trans
            reached.rounds)) ?_ ⟨distinct, ?_, ?_⟩
        · intro o member emits
          rw [synced.observed] at member
          exact reached.ahead o (baselined.ahead o member emits) emits
        · intro _
          refine ⟨reached.readable, ?_, ?_, ?_⟩
          · rw [emitted_of_observed synced.observed, baselined.emitted]
            exact reached.emitted
          · intro task member
            rw [synced.baselineCalls, ← numbered]
            exact baselined.called task member
          · intro uri member
            have called := synced.called uri member
            rw [congrArg List.length (baselined.rounds.trans reached.rounds)] at called
            exact called
        · nofun
      · cases same

theorem BridgeSound.notice (sound : BridgeSound env s) {triggers : TriggerStore} {op : TriggerOp}
    (h : s.triggers.step env.triggers op = some triggers) : BridgeSound env (s.notice triggers) := by
  have taken := trigger_step_taken h
  unfold Bridge.notice
  dsimp only
  generalize fresh_is : ((triggers.events.rows.map fun event =>
    (event.triggerId, event.externalEventId)).filter fun key => !s.triggers.events.rows.any
      fun event => (event.triggerId, event.externalEventId) == key) = fresh
  generalize new_is : (fresh.map fun key : String × String =>
    ({ round := s.rounds.length, triggerId := key.1, eventId := key.2
       handling := .foreign } : Observation)) = new
  have foreign : ∀ o ∈ new, o.handling = .foreign := by
    intro o member
    rw [← new_is] at member
    obtain ⟨key, -, rfl⟩ := List.mem_map.mp member
    rfl
  have log : LogSound env { s with triggers, observed := s.observed ++ new } := by
    refine sound.log.grown taken ?_ ?_ ?_ (sound.log.news.append ?_) ?_
    · intro event member
      by_cases before : ∃ old ∈ s.triggers.events.rows, old.key = event.key
      · exact .inl before
      · refine .inr ⟨⟨s.rounds.length, "", "", [], event.key.1, event.key.2, .foreign⟩, ?_, rfl,
          fun _ => .inr rfl⟩
        rw [← new_is, ← fresh_is]
        refine List.mem_map.mpr ⟨event.key, ?_, rfl⟩
        rw [List.mem_filter]
        refine ⟨List.mem_map.mpr ⟨event, member, rfl⟩, ?_⟩
        rw [Bool.not_eq_true', List.any_eq_false]
        intro old among same
        exact before ⟨old, among, beq_iff_eq.mp same⟩
    · intro o member key is
      rw [← new_is, ← fresh_is] at member
      obtain ⟨named, listed, rfl⟩ := List.mem_map.mp member
      obtain ⟨event, stored, rfl⟩ := List.mem_map.mp (List.mem_filter.mp listed).1
      cases is
      exact ⟨event, stored, rfl⟩
    · intro o member other
      exact absurd (foreign o member) other
    · intro o member
      rw [foreign o member]
      decide
    · intro o member delivered
      rw [foreign o member] at delivered
      cases delivered
  have quiet : ∀ o ∈ new, o.emits = false := by
    intro o member
    unfold Observation.emits
    rw [foreign o member]
    rfl
  refine ⟨log, ?_, ?_⟩
  · intro r report listed
    refine (sound.rounds.told r report listed).grows ⟨fun r _ => ?_, fun _ h => h, fun _ h => h⟩
      (List.getElem?_eq_some_iff.mp listed).1
    refine emitted_append r rfl fun o member emits => ?_
    rw [quiet o member] at emits
    cases emits
  · intro o member emits
    rcases List.mem_append.mp member with old | added
    · exact sound.rounds.ahead o old emits
    · rw [quiet o added] at emits
      cases emits

theorem bridge_step_sound (sound : BridgeSound env s) {a : BridgeAct}
    (h : s.step env a = some s') : BridgeSound env s' := by
  cases a with
  | reconcile round =>
    cases h
    exact reconcileProvider_sound sound round
  | repository op =>
    obtain ⟨triggers, stepped, rfl⟩ := Option.map_eq_some_iff.mp h
    exact sound.notice stepped
  | rebind bindings =>
    cases h
    have calm : Calm env s { s with bindings } := Calm.rebind bindings
    exact ⟨sound.log.calm calm, sound.rounds.calm calm⟩

theorem initial_bridgeSound (env : BridgeEnv) (sessions : Table SessionRow.sessionHandle)
    (bindings : List LaunchBindingRow) : BridgeSound env (.initial sessions bindings) := by
  have inbox := Automation.recorded_received env.triggers sessions []
  refine ⟨⟨⟨[], inbox⟩, ?_, ?_, ?_, ?_, ?_⟩, ?_, ?_⟩
  · intro key
    constructor
    · rintro ⟨event, member, -⟩
      cases member
    · rintro ⟨o, member, -⟩
      cases member
  · intro o member
    cases member
  · intro before o after split
    exact absurd split.symm (by simp [Bridge.initial])
  · intro o member
    cases member
  · intro event member
    cases member
  · intro r report listed
    cases listed
  · intro o member
    cases member

theorem filter_keyed {rows : List TriggerEventRow} {p : TriggerEventRow → Bool}
    {event : TriggerEventRow} (keyed : (rows.map TriggerEventRow.key).Nodup)
    (member : event ∈ rows) (selected : p event = true)
    (only : ∀ other ∈ rows, p other = true → other.key = event.key) : rows.filter p = [event] := by
  induction rows with
  | nil => cases member
  | cons first rest ih =>
    obtain ⟨fresh, keyed⟩ := List.nodup_cons.mp keyed
    rcases List.mem_cons.mp member with rfl | later
    · rw [List.filter_cons_of_pos selected, List.filter_eq_nil_iff.mpr]
      intro other among chosen
      have same := only other (List.mem_cons_of_mem _ among) chosen
      exact fresh (same ▸ List.mem_map_of_mem among)
    · rw [List.filter_cons_of_neg, ih keyed later fun other among =>
        only other (List.mem_cons_of_mem _ among)]
      intro chosen
      have same := only first List.mem_cons_self chosen
      exact fresh (same ▸ List.mem_map_of_mem later)

theorem BridgeSound.changes (sound : BridgeSound env s) : ChangesObserved env s where
  named := sound.log.named
  news := sound.log.news
  once o member delivered := by
    obtain ⟨log, inbox⟩ := sound.log.inbox
    obtain ⟨event, stored, keyed, live⟩ := sound.log.stored o member delivered
    rw [Observation.key_of (by rw [delivered]; decide), Option.some.injEq] at keyed
    rw [filter_keyed inbox.tended.once stored]
    · rfl
    · rw [keyed, beq_self_eq_true, Bool.true_and, bne_iff_ne]
      exact live
    · intro other _ selected
      rw [Bool.and_eq_true, beq_iff_eq] at selected
      exact selected.1.trans keyed
  only := sound.log.only
  complete r report listed ended := by
    have done := sound.rounds.told r report listed
    exact ⟨(done.finished ended).2.1, done.distinct⟩

/-- Along every run a change is delivered exactly when the trigger has never had its content. -/
theorem changes_observed (env : BridgeEnv) (sessions : Table SessionRow.sessionHandle)
    (bindings : List LaunchBindingRow) (acts : List BridgeAct) :
    ∀ s ∈ trace (Bridge.step env) (.initial sessions bindings) acts, ChangesObserved env s :=
  fun s reached => (Transition.trace_invariant
    (fun _ _ _ sound h => bridge_step_sound sound h) (initial_bridgeSound env sessions bindings)
    acts s reached).changes

def DeliversChanges (log : List Observation) : Prop :=
  ∀ before o after, log = before ++ o :: after → o.handling = .known ∨ o.handling = .delivered →
    (o.handling = .delivered ↔ ∀ last ∈ (before.filter fun p =>
      p.taskId == o.taskId && p.uri == o.uri).getLast?, last.contents ≠ o.contents)

section Sample

def sampleEnv : BridgeEnv where
  triggers := { sampleTriggerEnv with digest := id }
  serverId := "j"
  canonicalUri uri := some ⟨uri, "j", "", [uri]⟩
  digest _ uri contents :=
    if uri = "a" then if contents = [] then "a1" else "a2"
    else if contents = [] then "b1" else "b2"
  identified server uri contents := by
    split <;> split <;> decide

def sampleDefinition (taskId resourceUri : String) : EventDefinition where
  taskId := taskId
  principalId := "p"
  sessionHandle := "s"
  title := "title"
  goal := "goal"
  toolsEnabled := true
  priority := 0
  launchKind := .event
  eventSource := "mcp:j"
  resourceUriPrefix := some resourceUri

def sampleDefinitions : Table EventDefinition.taskId :=
  ⟨[sampleDefinition "ta" "a", sampleDefinition "tb" "b"], by decide⟩

def sampleRound (uris : List String) (content : String → List ResourceContent)
    (readable : String → Bool) : Round where
  now := 1
  triggerIds taskId _ := taskId
  subscribable := true
  attached := true
  resources := uris.map fun uri => ⟨uri, "", "", ""⟩
  definitions := sampleDefinitions
  resolves _ := true
  content uri _ := content uri
  readable uri _ := readable uri
  subscribes _ := true
  unsubscribes _ := true

def sampleBridge : Bridge := .initial ⟨[⟨"s", "p", "agent"⟩], by decide⟩ []

def sampleContent : ResourceContent := ⟨"a", "", "new", 0⟩

def changesBack : List BridgeAct :=
  [.reconcile (sampleRound ["a"] (fun _ => []) fun _ => true),
    .reconcile (sampleRound ["a"] (fun _ => [sampleContent]) fun _ => true),
    .reconcile (sampleRound ["a"] (fun _ => []) fun _ => true)]

theorem changes_observed_back :
    ChangesObserved sampleEnv (final (Bridge.step sampleEnv) sampleBridge changesBack) :=
  changes_observed sampleEnv ⟨[⟨"s", "p", "agent"⟩], by decide⟩ [] changesBack _
    (Transition.mem_trace_final _ _)

/-- The change back is not delivered, although every round runs to its end. -/
theorem change_back_not_delivered :
    let s := final (Bridge.step sampleEnv) sampleBridge changesBack
    ¬DeliversChanges s.observed ∧ s.rounds.map RoundReport.stop = [none, none, none] := by
  intro s
  let o : Nat → List ResourceContent → String → Handling → Observation :=
    fun round contents eventId handling =>
      { round, taskId := "ta", uri := "a", contents, triggerId := "ta", eventId, handling }
  have run : s.observed =
      [o 0 [] "mcp-resource:a1" .baselined, o 1 [sampleContent] "mcp-resource:a2" .delivered,
        o 2 [] "mcp-resource:a1" .known] ∧
      s.rounds.map RoundReport.stop = [none, none, none] := by decide +kernel
  refine ⟨fun claimed => ?_, run.2⟩
  have delivered := (claimed [_, _] (o 2 [] "mcp-resource:a1" .known) [] run.1 (.inl rfl)).mpr
    (by decide)
  cases delivered

end Sample

end Knoa.Extensions
