import Knoa.Automation.TriggerInbox
import Knoa.Extensions.ResourceBridge

/-!
# The steps of a reconciliation

What each call of a reconciliation does to the inbox and to the log.
-/
namespace Knoa.Extensions
open Knoa.Automation Knoa.Tasks Relational Transaction
open Loops (untilStop)

variable {env : BridgeEnv} {round : Round} {s s' t : Bridge}

/-- What an observation names in the inbox. -/
def Observation.key (o : Observation) : Option (String × String) :=
  if o.handling = .unbound then none else some (o.triggerId, o.eventId)

/-- The Resource was handed over, whatever the inbox has made of it. -/
def Observation.emits (o : Observation) : Bool :=
  o.handling == .unbound || o.handling == .known || o.handling == .delivered

/-- Triggers are created and bindings written, and nothing else. -/
structure Calm (env : BridgeEnv) (s s' : Bridge) : Prop where
  events : s'.triggers.events = s.triggers.events
  inbox : ∀ log, Received env.triggers s.triggers log → Received env.triggers s'.triggers log
  observed : s'.observed = s.observed
  existing : s'.existing = s.existing
  baselineCalls : s'.baselineCalls = s.baselineCalls
  subscriptionCalls : s'.subscriptionCalls = s.subscriptionCalls
  subscribed : s'.subscribed = s.subscribed
  rounds : s'.rounds = s.rounds

theorem Calm.refl (s : Bridge) : Calm env s s := ⟨rfl, fun _ h => h, rfl, rfl, rfl, rfl, rfl, rfl⟩

theorem Calm.trans (first : Calm env s t) (second : Calm env t s') : Calm env s s' where
  events := second.events.trans first.events
  inbox log h := second.inbox log (first.inbox log h)
  observed := second.observed.trans first.observed
  existing := second.existing.trans first.existing
  baselineCalls := second.baselineCalls.trans first.baselineCalls
  subscriptionCalls := second.subscriptionCalls.trans first.subscriptionCalls
  subscribed := second.subscribed.trans first.subscribed
  rounds := second.rounds.trans first.rounds

theorem Calm.rebind (bindings : List LaunchBindingRow) : Calm env s { s with bindings } :=
  ⟨rfl, fun _ h => h, rfl, rfl, rfl, rfl, rfl, rfl⟩

variable {now : Time} {triggers triggers' : TriggerStore}

theorem createTrigger_events {triggerIds : Nat → String} {request : Automation.TriggerRequest}
    {result : Except AutomationError (TriggerRow × Bool)}
    (h : createTrigger now triggerIds request triggers = (result, triggers')) :
    triggers'.events = triggers.events := by
  unfold createTrigger at h
  dsimp only at h
  split at h
  · cases h
    rfl
  · cases result with
    | error e =>
      have same := retrying_error (congrArg Prod.fst h)
      rw [h] at same
      exact congrArg TriggerStore.events same
    | ok made =>
      obtain ⟨body, member, once⟩ := retrying_ok h
      obtain ⟨i, -, rfl⟩ := List.mem_map.mp member
      obtain ⟨triggerId, -, _, -, once⟩ := of_bind₂ once
      split at once
      · obtain ⟨_, -, once⟩ := of_bind once
        cases once
        rfl
      · obtain ⟨triggers, -, once⟩ := of_bind once
        cases once
        rfl

theorem createTrigger_inbox {triggerIds : Nat → String} {request : Automation.TriggerRequest}
    {result : Except AutomationError (TriggerRow × Bool)} {log : List String}
    (h : createTrigger now triggerIds request triggers = (result, triggers'))
    (inbox : Received env.triggers triggers log) : Received env.triggers triggers' log := by
  cases result with
  | error e =>
    have same : triggers' = triggers := by
      unfold createTrigger at h
      dsimp only at h
      split at h
      · cases h
        rfl
      · have same := retrying_error (congrArg Prod.fst h)
        rw [h] at same
        exact same
    rw [same]
    exact inbox
  | ok made =>
    have kept := inbox.kept (createTrigger_taken h)
    rw [List.append_nil] at kept
    exact kept

theorem repairBinding_calm (s : Bridge) (round : Round) (definition : EventDefinition) :
    Calm env s (s.repairBinding round definition).2 := by
  unfold Bridge.repairBinding
  split
  next error triggers made =>
    exact ⟨createTrigger_events made, fun _ => createTrigger_inbox made, rfl, rfl, rfl, rfl, rfl,
      rfl⟩
  next row created triggers made =>
    have grown : Calm env s { s with triggers } :=
      ⟨createTrigger_events made, fun _ => createTrigger_inbox made, rfl, rfl, rfl, rfl, rfl, rfl⟩
    exact grown.trans (Calm.rebind _)

theorem ensureTriggerBinding_calm (s : Bridge) (round : Round) (definition : EventDefinition) :
    Calm env s (s.ensureTriggerBinding round definition).2 := by
  unfold Bridge.ensureTriggerBinding
  split
  · exact repairBinding_calm s round definition
  · split
    · exact Calm.refl s
    · split
      · exact Calm.refl s
      · have unbound : Calm env s (s.unbind definition.taskId) := Calm.rebind _
        exact unbound.trans (repairBinding_calm _ round definition)
      · exact Calm.refl s

theorem ownDefinitions_calm (definitions : List EventDefinition) (s : Bridge) :
    Calm env s (BridgeEnv.ownDefinitions round definitions s).2 := by
  induction definitions generalizing s with
  | nil => exact Calm.refl s
  | cons definition rest ih =>
    have bound := @ensureTriggerBinding_calm env s round definition
    unfold BridgeEnv.ownDefinitions
    split
    · exact ih s
    · split
      next error t ensured =>
        rw [ensured] at bound
        exact bound
      next t ensured =>
        rw [ensured] at bound
        exact bound.trans (ih t)
      next triggerId t ensured =>
        rw [ensured] at bound
        split
        · exact bound.trans (ih t)
        · exact bound
        · have later := ih t
          split
          next error t' owned =>
            rw [owned] at later
            exact bound.trans later
          next owned t' listed =>
            rw [listed] at later
            exact bound.trans later

/-- What `receive` makes of an event ID. -/
inductive Handed (env : BridgeEnv) (triggers : TriggerStore) (key : String × String) :
    Bool → TriggerStore → Prop
  | known (stored : ∃ event ∈ triggers.events.rows, event.key = key) :
      Handed env triggers key false triggers
  | delivered {triggers' : TriggerStore} {row : TriggerEventRow}
      (new : ∀ event ∈ triggers.events.rows, event.key ≠ key)
      (taken : TriggerTaken env.triggers triggers [] triggers')
      (rows : triggers'.events.rows = triggers.events.rows ++ [row]) (named : row.key = key)
      (state : row.state = .received) : Handed env triggers key true triggers'

theorem receive_handed {principalId triggerId eventId payload : String} {event : TriggerEventRow}
    {created : Bool} (valid : IsIdentifier eventId 256)
    (h : receive env.triggers now principalId triggerId eventId payload triggers =
      .ok ((event, created), triggers')) :
    event.externalEventId = eventId ∧
      Handed env triggers (event.triggerId, event.externalEventId) created triggers' := by
  have taken := receive_taken h
  obtain ⟨_, -, named, -, externalId, same, h⟩ := of_bind₃ h
  rw [identifier, valid.stripped] at same
  cases same
  obtain ⟨payload, -, trigger, owned, h⟩ := of_bind₂ h
  obtain ⟨found, rfl⟩ := ownedTrigger_ok owned
  obtain ⟨_, -, h⟩ := of_bind h
  split at h
  next existing known =>
    obtain ⟨_, -, h⟩ := of_bind h
    cases h
    obtain ⟨present, key⟩ := eventOf_some known
    exact ⟨congrArg Prod.snd key, .known ⟨event, present, rfl⟩⟩
  next new =>
    obtain ⟨events, inserted, stored, looked, h⟩ := of_bind₂ h
    cases h
    have added := (insertEvent_ok (orRaise_ok_iff.mp inserted)).2
    have looked := orRaise_ok_iff.mp looked
    change events.lookup _ = some event at looked
    rw [Table.lookup_insert added, if_pos rfl] at looked
    cases looked
    exact ⟨rfl, .delivered (eventOf_none_iff.mp new) taken (Table.insert_rows added) rfl rfl⟩

inductive Emitted (env : BridgeEnv) (round : Round) (uri : String) (definition : EventDefinition)
    (s : Bridge) : Bridge → Prop
  | mk {t : Bridge} {triggers : TriggerStore} {o : Observation} (calm : Calm env s t)
      (numbered : o.round = s.rounds.length) (task : o.taskId = definition.taskId)
      (named : o.uri = uri) (contents : o.contents = round.content uri definition.taskId)
      (event : o.eventId = env.resourceEventId uri o.contents)
      (handled : o.handling = .unbound ∧ triggers = t.triggers ∨
        o.handling = .known ∧ Handed env t.triggers (o.triggerId, o.eventId) false triggers ∨
        o.handling = .delivered ∧ Handed env t.triggers (o.triggerId, o.eventId) true triggers) :
      Emitted env round uri definition s { t with triggers, observed := t.observed ++ [o] }

theorem emitResourceEvent_none {uri : String} {resource : ResourceDefinition}
    {definition : EventDefinition}
    (h : env.emitResourceEvent round uri resource definition s = (none, s')) :
    round.readable uri definition.taskId = true ∧ Emitted env round uri definition s s' := by
  unfold BridgeEnv.emitResourceEvent at h
  split at h
  · cases h
  next readable =>
    refine ⟨by simpa using readable, ?_⟩
    have calm := @ensureTriggerBinding_calm env s round definition
    dsimp only at h
    split at h
    · cases h
    next t ensured =>
      rw [ensured] at calm
      cases h
      exact .mk calm (congrArg List.length calm.rounds) rfl rfl rfl rfl (.inl ⟨rfl, rfl⟩)
    next triggerId t ensured =>
      rw [ensured] at calm
      split at h
      · cases h
      next event created triggers handed =>
        cases h
        obtain ⟨same, how⟩ := receive_handed (env.identified _ _ _) handed
        refine .mk calm (congrArg List.length calm.rounds) rfl rfl rfl same (.inr ?_)
        cases created with
        | false => exact .inl ⟨rfl, how⟩
        | true => exact .inr ⟨rfl, how⟩

theorem emitResourceEvent_some {uri : String} {resource : ResourceDefinition}
    {definition : EventDefinition} {stop : Stop}
    (h : env.emitResourceEvent round uri resource definition s = (some stop, s')) : Calm env s s' ∧
      ((∃ error, stop = .refused error) ∧ round.readable uri definition.taskId = true ∨
        stop = .unread uri definition.taskId ∧ round.readable uri definition.taskId = false) := by
  unfold BridgeEnv.emitResourceEvent at h
  split at h
  next unread =>
    cases h
    exact ⟨Calm.refl s, .inr ⟨rfl, unread⟩⟩
  next readable =>
    have readable : round.readable uri definition.taskId = true := by simpa using readable
    have calm := @ensureTriggerBinding_calm env s round definition
    dsimp only at h
    split at h
    next error t ensured =>
      rw [ensured] at calm
      cases h
      exact ⟨calm, .inl ⟨⟨_, rfl⟩, readable⟩⟩
    · cases h
    next triggerId t ensured =>
      rw [ensured] at calm
      split at h <;> cases h
      exact ⟨calm, .inl ⟨⟨_, rfl⟩, readable⟩⟩

variable {items : List (String × String)}

theorem mapM_baselineItem {items' : List (String × String)}
    (valid : ∀ item ∈ items, IsIdentifier item.1 256)
    (h : items.mapM baselineItem = .ok items') : items'.map Prod.fst = items.map Prod.fst := by
  induction items generalizing items' with
  | nil =>
    cases h
    rfl
  | cons item rest ih =>
    rw [List.mapM_cons] at h
    obtain ⟨first, read, others, later, h⟩ := of_bind₂ h
    cases h
    obtain ⟨externalId, same, payload, -, read⟩ := of_bind₂ read
    cases read
    rw [identifier, (valid item List.mem_cons_self).stripped] at same
    cases same
    rw [List.map_cons, List.map_cons,
      ih (fun other member => valid other (List.mem_cons_of_mem _ member)) later]

theorem baselineItems_only {trigger : TriggerRow} {inserted : Nat}
    (h : baselineItems env.triggers now trigger items triggers = .ok (inserted, triggers')) :
    ∀ event ∈ triggers'.events.rows, event ∈ triggers.events.rows ∨
      ∃ item ∈ items, event.key = (trigger.triggerId, item.1) ∧ event.state = .baselined := by
  induction items generalizing triggers inserted with
  | nil =>
    cases h
    exact fun event member => .inl member
  | cons item rest ih =>
    unfold baselineItems at h
    split at h
    · obtain ⟨_, -, h⟩ := of_bind h
      intro event member
      refine (ih h event member).imp_right ?_
      rintro ⟨other, later, named⟩
      exact ⟨other, List.mem_cons_of_mem _ later, named⟩
    · obtain ⟨events, added, ⟨count, stored⟩, rested, h⟩ := of_bind₂ h
      cases h
      have added := (insertEvent_ok (orRaise_ok_iff.mp added)).2
      intro event member
      rcases ih rested event member with old | ⟨other, later, named⟩
      · rw [Table.insert_rows added] at old
        rcases List.mem_concat.mp old with old | new
        · exact .inl old
        · rw [new]
          exact .inr ⟨item, List.mem_cons_self, rfl, rfl⟩
      · exact .inr ⟨other, List.mem_cons_of_mem _ later, named⟩

theorem baseline_effect {principalId triggerId : String} {inserted : Nat}
    (valid : ∀ item ∈ items, IsIdentifier item.1 256)
    (h : baseline env.triggers now principalId triggerId items triggers =
      .ok (inserted, triggers')) :
    ∃ trigger, triggers.triggers.lookup (Tasks.strip triggerId) = some trigger ∧
      (trigger.lastEventAt.isSome = true ∧ triggers' = triggers ∨
        trigger.lastEventAt = none ∧
          (∀ event ∈ triggers'.events.rows, event ∈ triggers.events.rows ∨
            ∃ item ∈ items, event.key = (trigger.triggerId, item.1) ∧ event.state = .baselined) ∧
          ∀ item ∈ items, ∃ event ∈ triggers'.events.rows,
            event.key = (trigger.triggerId, item.1)) := by
  obtain ⟨_, -, named, normal, items', read, trigger, owned, h⟩ := of_bind₄ h
  obtain ⟨found, rfl⟩ := ownedTrigger_ok owned
  rw [(Automation.identifier_ok_iff.mp normal).1] at found
  obtain ⟨_, -, h⟩ := of_bind h
  refine ⟨trigger, found, ?_⟩
  split at h
  next seen =>
    cases h
    exact .inl ⟨Option.isSome_iff_ne_none.mpr seen, rfl⟩
  next unseen =>
    obtain ⟨⟨count, stored⟩, listed, h⟩ := of_bind h
    cases h
    have ids := mapM_baselineItem valid read
    refine .inr ⟨Decidable.not_not.mp unseen, ?_, ?_⟩
    · intro event member
      refine (baselineItems_only listed event member).imp_right ?_
      rintro ⟨item, among, key, state⟩
      have known : item.1 ∈ items.map Prod.fst := ids ▸ List.mem_map_of_mem among
      obtain ⟨original, present, same⟩ := List.mem_map.mp known
      exact ⟨original, present, key.trans (by rw [same]), state⟩
    · intro item member
      have known : item.1 ∈ items'.map Prod.fst := ids ▸ List.mem_map_of_mem member
      obtain ⟨normal, present, same⟩ := List.mem_map.mp known
      obtain ⟨event, stored, key⟩ := baselineItems_listed listed normal present
      exact ⟨event, stored, key.trans (by rw [same])⟩

end Knoa.Extensions
