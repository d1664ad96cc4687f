import Knoa.Conversation.Interactions
import Knoa.Library.Parties
import Knoa.Library.Transition

/-!
# What a waiter of an interaction is told

One outcome is recorded for an interaction, and its waiter is told that one: as long as no call
takes the waiter away without it, and none is registered for an interaction that is over.
-/
namespace Knoa.Conversation
open Knoa.Tasks (JsonText Time)
open Transition

namespace Begin

/-- The future is registered, or was, and is not done. -/
def open_ (begun : Begin) : Bool :=
  (begun.phase == .announcing || begun.phase == .waiting) && begun.future.isNone

def ended (begun : Begin) : Bool :=
  match begun.phase with
  | .left | .raised => true
  | .waiting => begun.future.isSome
  | _ => false

end Begin

def BeginPhase.rank : BeginPhase → Nat
  | .persisting => 3
  | .registering _ => 2
  | .announcing => 1
  | .waiting | .left | .raised => 0

namespace SettlePhase

/-- The call has recorded the outcome and is on its way to the waiter. -/
def carries : SettlePhase → Bool
  | .announcing | .delivering true => true
  | _ => false

def rank : SettlePhase → Nat
  | .persisting => 3
  | .announcing => 2
  | .delivering _ => 1
  | .done _ | .raised => 0

end SettlePhase

def HumanInteraction.outcome (record : HumanInteraction) : Option Delivered :=
  match record.state with
  | .resolved => some (.result record.loadedResolution)
  | .expired => some .cancelled
  | _ => none

/-- A `resolve` that comes after the interaction has lapsed, and expires it. -/
def HumanInteraction.lapses (record : HumanInteraction) (now : Time) : InteractionCall → Bool
  | .resolve principalId _ _ =>
    record.pending && record.principalId == principalId && record.late now
  | .expire _ => false

/-- A step of a call that is under way. -/
def InteractionAct.goesOn : InteractionAct → Bool
  | .begin_ _ | .leave _ | .call _ => false
  | _ => true

namespace InteractionDesk

variable (env : SchemaEnv) (s t : InteractionDesk)

def outcome : Option Delivered := s.stored.bind HumanInteraction.outcome

def isOver : Bool := s.stored.any (fun record => !record.pending)

def Coming : Prop := ∃ settle ∈ s.settles, settle.phase.carries = true

def watched : Bool := (s.waiter.bind (fun i => s.begins[i]?)).any Begin.open_

/-- An interaction that is over stays as it is. -/
def KeepsRecord : Prop := ∀ record ∈ s.stored, record.pending = false → t.stored = some record

/-- What a waiter has been told is what is recorded; one that has left is told nothing. -/
def Tells : Prop :=
  ∀ begun ∈ s.begins, ∀ outcome, begun.future = some outcome → begun.phase ≠ .left →
    s.outcome = some outcome

def Attached : Prop :=
  ∀ (i : Nat) (begun : Begin), s.begins[i]? = some begun → begun.open_ = true → s.waiter = some i

def rank : Nat :=
  (s.begins.map (fun begun => begun.phase.rank)).sum +
    (s.settles.map (fun settle => settle.phase.rank)).sum

end InteractionDesk

/-- Nobody takes an open waiter away without its outcome, and nobody registers one for an
interaction whose outcome has been brought already. -/
def InteractionAct.Timely (s : InteractionDesk) : InteractionAct → Prop
  | .register _ => s.isOver = true → s.waiter = none → s.Coming
  | .write k now => ∀ settle ∈ s.settles[k]?, ∀ record ∈ s.stored,
      record.lapses now settle.call = true → s.watched = false
  | .told _ ok => ok = false → s.watched = false
  | .deliver k => ∀ settle ∈ s.settles[k]?, settle.phase = .delivering false → s.watched = false
  | _ => True

instance (s : InteractionDesk) : Decidable s.Coming := by
  unfold InteractionDesk.Coming
  infer_instance

instance InteractionAct.decidableTimely (s : InteractionDesk) (act : InteractionAct) :
    Decidable (act.Timely s) := by
  unfold InteractionAct.Timely
  split <;> infer_instance

/-- The calls under way take no more steps than their rank, and while a `begin` has not ended
one of them has a timely step to take, or a registration. -/
def InteractionDesk.Completes (env : SchemaEnv) (s : InteractionDesk) : Prop :=
  ∀ acts, (∀ act ∈ acts, act.goesOn = true) →
    (∀ taken ∈ accepted (InteractionDesk.step env) s acts, taken.2.Timely taken.1) →
    (accepted (InteractionDesk.step env) s acts).length ≤ s.rank ∧
      ((∀ begun ∈ (final (InteractionDesk.step env) s acts).begins, begun.ended = true) ∨
        ∃ act, act.goesOn = true ∧
          (act.Timely (final (InteractionDesk.step env) s acts) ∨ ∃ i, act = .register i) ∧
          (InteractionDesk.step env (final (InteractionDesk.step env) s acts) act).isSome = true)

/-- Every step that is taken, one case each. -/
inductive InteractionTaken (env : SchemaEnv) (s : InteractionDesk) :
    InteractionAct → InteractionDesk → Prop
  | begin_ (request : InteractionRequest) : InteractionTaken env s (.begin_ request)
      { s with begins := s.begins ++ [{ request := request }] }
  | persist {i : Nat} {begun : Begin} (now : Time) (interactionId : String) (free : Bool)
      (found : s.begins[i]? = some begun) (phase : begun.phase = .persisting) :
      InteractionTaken env s (.persist i now interactionId free)
        (s.persist env i begun now interactionId free)
  | register {i : Nat} {begun : Begin} {created : Bool} (found : s.begins[i]? = some begun)
      (phase : begun.phase = .registering created) :
      InteractionTaken env s (.register i) (s.register i begun created)
  | announced {i : Nat} {begun : Begin} (ok : Bool) (found : s.begins[i]? = some begun)
      (phase : begun.phase = .announcing) : InteractionTaken env s (.announced i ok)
        (s.setBegin i { begun with phase := if ok then .waiting else .raised })
  | leave {i : Nat} {begun : Begin} (found : s.begins[i]? = some begun)
      (phase : begun.phase = .waiting) : InteractionTaken env s (.leave i)
        (s.setBegin i { begun with phase := .left, future := some (begun.future.getD .cancelled) })
  | call (call : InteractionCall) : InteractionTaken env s (.call call)
      { s with settles := s.settles ++ [{ call := call }] }
  | write {k : Nat} {settle : Settle} (now : Time) (call : s.settles[k]? = some settle)
      (phase : settle.phase = .persisting) :
      InteractionTaken env s (.write k now) (s.write env k settle now)
  | told {k : Nat} {settle : Settle} (ok : Bool) (call : s.settles[k]? = some settle)
      (phase : settle.phase = .announcing) : InteractionTaken env s (.told k ok)
        (s.setSettle k settle (if ok then .delivering true else .raised))
  | deliver {k : Nat} {settle : Settle} {changed : Bool} (call : s.settles[k]? = some settle)
      (phase : settle.phase = .delivering changed) :
      InteractionTaken env s (.deliver k) (s.deliver k settle changed)

section Steps

variable {env : SchemaEnv} {s t u : InteractionDesk} {act : InteractionAct} {i k : Nat}

theorem interaction_taken_of_begin {f : Begin → Option InteractionDesk}
    (h : (s.begins[i]?).bind f = some t)
    (each : ∀ begun, s.begins[i]? = some begun → f begun = some t → InteractionTaken env s act t) :
    InteractionTaken env s act t := by
  obtain ⟨begun, found, taken⟩ := Option.bind_eq_some_iff.mp h
  exact each begun found taken

theorem interaction_taken_of_settle {f : Settle → Option InteractionDesk}
    (h : (s.settles[k]?).bind f = some t)
    (each : ∀ settle, s.settles[k]? = some settle → f settle = some t →
      InteractionTaken env s act t) : InteractionTaken env s act t := by
  obtain ⟨settle, call, taken⟩ := Option.bind_eq_some_iff.mp h
  exact each settle call taken

theorem interaction_taken (taken : s.step env act = some t) : InteractionTaken env s act t := by
  cases act with
  | begin_ request => cases taken; exact .begin_ request
  | call call => cases taken; exact .call call
  | persist i now interactionId free =>
    refine interaction_taken_of_begin taken (fun begun found step => ?_)
    split at step
    · cases step; exact .persist now interactionId free found ‹_›
    · cases step
  | register i =>
    refine interaction_taken_of_begin taken (fun begun found step => ?_)
    split at step
    · cases step; exact .register found ‹_›
    · cases step
  | announced i ok =>
    refine interaction_taken_of_begin taken (fun begun found step => ?_)
    split at step
    · cases step; exact .announced ok found ‹_›
    · cases step
  | leave i =>
    refine interaction_taken_of_begin taken (fun begun found step => ?_)
    split at step
    · cases step; exact .leave found ‹_›
    · cases step
  | write k now =>
    refine interaction_taken_of_settle taken (fun settle call step => ?_)
    split at step
    · cases step; exact .write now call ‹_›
    · cases step
  | told k ok =>
    refine interaction_taken_of_settle taken (fun settle call step => ?_)
    split at step
    · cases step; exact .told ok call ‹_›
    · cases step
  | deliver k =>
    refine interaction_taken_of_settle taken (fun settle call step => ?_)
    split at step
    · cases step; exact .deliver call ‹_›
    · cases step

end Steps

section Records

variable {env : SchemaEnv} {s t u : InteractionDesk} {act : InteractionAct} {i k : Nat}

variable {stored : Option HumanInteraction} {now : Time} {record : HumanInteraction}

theorem request_spec {key : InteractionKey} {request : InteractionRequest} {interactionId : String}
    {free created : Bool}
    (h : requestInteraction env key stored request now interactionId free = some (record, created)) :
    stored = some record ∨ stored = none ∧ record.pending = true := by
  unfold requestInteraction at h
  split at h
  · split at h
    · split at h <;> cases h
      exact Or.inl rfl
    · dsimp only at h
      split at h <;> cases h
      exact Or.inr ⟨rfl, rfl⟩
  · cases h

structure Ends (old record : HumanInteraction) (call : InteractionCall) (now : Time)
    (changed : Bool) : Prop where
  kept : old.pending = false → record = old ∧ changed = false
  isOver : record.pending = false
  brings : changed = true → record.outcome = some call.outcome
  lapses : old.pending = true → changed = false → old.lapses now call = true

variable {changed : Bool}

theorem ends_resolve {principalId resolvedBy : String} {value : JsonText}
    (h : resolveInteraction env stored principalId value resolvedBy now = some (record, changed)) :
    ∃ old, stored = some old ∧
      Ends old record (.resolve principalId value resolvedBy) now changed := by
  unfold resolveInteraction at h
  split at h
  · cases h
  · rename_i old
    refine ⟨old, rfl, ?_⟩
    split at h
    · cases h
    · rename_i mine
      split at h
      · rename_i isOver
        cases h
        refine ⟨fun _ => ⟨rfl, rfl⟩, isOver, by rintro ⟨⟩, fun pending => ?_⟩
        rw [isOver] at pending
        cases pending
      · rename_i pending
        rw [Bool.not_eq_false] at pending
        have open_ : ¬ old.pending = false := by rw [pending]; simp
        split at h
        · rename_i late
          dsimp only at h
          split at h <;> cases h
          refine ⟨fun isOver => absurd isOver open_, rfl, by rintro ⟨⟩, ?_⟩
          intro _ _
          simp only [HumanInteraction.lapses, pending, late, Bool.true_and, Bool.and_true,
            beq_iff_eq]
          exact not_not.mp mine
        · split at h
          · dsimp only at h
            split at h <;> cases h
            exact ⟨fun isOver => absurd isOver open_, rfl, fun _ => rfl, by rintro _ ⟨⟩⟩
          · cases h

theorem ends_expire {principalId : String}
    (h : expireInteraction stored principalId now = some (record, changed)) :
    ∃ old, stored = some old ∧ Ends old record (.expire principalId) now changed := by
  unfold expireInteraction at h
  split at h
  · cases h
  · rename_i old
    refine ⟨old, rfl, ?_⟩
    split at h
    · cases h
    · split at h
      · rename_i isOver
        cases h
        exact ⟨fun _ => ⟨rfl, rfl⟩, isOver, nofun, fun pending => by rw [isOver] at pending; cases pending⟩
      · rename_i pending
        dsimp only at h
        split at h <;> cases h
        exact ⟨fun isOver => absurd isOver pending, rfl, fun _ => rfl, nofun⟩

theorem ends_of_write {call : InteractionCall}
    (h : call.write env stored now = some (record, changed)) :
    ∃ old, stored = some old ∧ Ends old record call now changed := by
  cases call with
  | resolve principalId value resolvedBy => exact ends_resolve h
  | expire principalId => exact ends_expire h

theorem over_iff : s.isOver = true ↔ ∃ record, s.stored = some record ∧ record.pending = false := by
  unfold InteractionDesk.isOver
  cases s.stored <;> simp

theorem over_of_outcome {outcome : Delivered} (h : s.outcome = some outcome) : s.isOver = true := by
  obtain ⟨record, stored, told⟩ := Option.bind_eq_some_iff.mp h
  refine over_iff.mpr ⟨record, stored, ?_⟩
  by_contra pending
  have state : record.state = .pending := by
    simpa [HumanInteraction.pending] using pending
  rw [HumanInteraction.outcome, state] at told
  cases told

theorem keepsRecord_refl (s : InteractionDesk) : s.KeepsRecord s := fun _ stored _ => stored

theorem keepsRecord_trans (first : s.KeepsRecord t) (second : t.KeepsRecord u) : s.KeepsRecord u :=
  fun record stored isOver => second record (first record stored isOver) isOver

theorem keepsRecord_of_eq (same : t.stored = s.stored) : s.KeepsRecord t :=
  fun _ stored _ => same.trans stored

theorem InteractionDesk.KeepsRecord.isOver (h : s.KeepsRecord t) (isOver : s.isOver = true) :
    t.isOver = true := by
  obtain ⟨record, stored, isOver⟩ := over_iff.mp isOver
  exact over_iff.mpr ⟨record, h record stored isOver, isOver⟩

theorem InteractionDesk.KeepsRecord.outcome {outcome : Delivered} (h : s.KeepsRecord t)
    (told : s.outcome = some outcome) : t.outcome = some outcome := by
  obtain ⟨record, stored, isOver⟩ := over_iff.mp (over_of_outcome told)
  rw [InteractionDesk.outcome, h record stored isOver, ← stored]
  exact told

theorem setFuture_cases (s : InteractionDesk) (outcome : Delivered) :
    (∃ i begun, s.waiter = some i ∧ s.begins[i]? = some begun ∧ begun.future = none ∧
      s.setFuture outcome = s.setBegin i { begun with future := some outcome }) ∨
    s.setFuture outcome = s ∧ ∀ i begun, s.waiter = some i → s.begins[i]? = some begun →
      begun.future ≠ none :=
  Parties.setOnce_cases s.waiter s.begins Begin.future
    (fun i begun => s.setBegin i { begun with future := some outcome }) s (by
      unfold InteractionDesk.setFuture
      split <;> simp [*])

@[simp] theorem setFuture_stored (outcome : Delivered) :
    (s.setFuture outcome).stored = s.stored := by
  rcases setFuture_cases s outcome with ⟨_, _, -, -, -, same⟩ | ⟨same, -⟩ <;> rw [same]
  rfl

@[simp] theorem setFuture_settles (outcome : Delivered) :
    (s.setFuture outcome).settles = s.settles := by
  rcases setFuture_cases s outcome with ⟨_, _, -, -, -, same⟩ | ⟨same, -⟩ <;> rw [same]
  rfl

theorem interaction_step_keeps (taken : s.step env act = some t) : s.KeepsRecord t := by
  cases interaction_taken taken with
  | @persist i begun now interactionId free found phase =>
    unfold InteractionDesk.persist
    split
    · exact keepsRecord_refl s
    · rename_i record created requested
      have same : s.KeepsRecord { s with stored := some record } := by
        rcases request_spec requested with stands | ⟨nothing, -⟩
        · exact keepsRecord_of_eq stands.symm
        · intro old stored
          rw [nothing] at stored
          cases stored
      split <;> exact same
  | register found phase =>
    unfold InteractionDesk.register
    split <;> exact keepsRecord_refl s
  | @write k settle now call phase =>
    unfold InteractionDesk.write
    split
    · exact keepsRecord_refl s
    · rename_i record changed written
      obtain ⟨old, stands, ends⟩ := ends_of_write written
      intro other stored isOver
      rw [Option.mem_def, stands] at stored
      cases stored
      exact congrArg some (ends.kept isOver).1
  | deliver call phase =>
    refine keepsRecord_of_eq ?_
    simp only [InteractionDesk.deliver, InteractionDesk.setSettle]
    split
    · exact setFuture_stored _
    · rfl
  | _ => exact keepsRecord_refl s

end Records

/-- What a waiter has been told is recorded, an open waiter is registered, and once the
interaction is over a call is on its way to it. -/
structure DeliverySound (s : InteractionDesk) : Prop where
  tells : s.Tells
  attached : s.Attached
  carried : ∀ settle ∈ s.settles, settle.phase.carries = true → s.outcome = some settle.call.outcome
  coming : s.isOver = true → s.watched = true → s.Coming

section Sound

variable {env : SchemaEnv} {s t : InteractionDesk} {act : InteractionAct} {i k : Nat}
  {begun begun' : Begin} {settle : Settle}

theorem watched_iff : s.watched = true ↔ ∃ i begun, s.waiter = some i ∧
    s.begins[i]? = some begun ∧ begun.open_ = true := by
  simp only [InteractionDesk.watched, Option.any_eq_true, Option.bind_eq_some_iff]
  constructor
  · rintro ⟨begun, ⟨i, waiter, found⟩, undone⟩
    exact ⟨i, begun, waiter, found, undone⟩
  · rintro ⟨i, begun, waiter, found, undone⟩
    exact ⟨begun, ⟨i, waiter, found⟩, undone⟩

theorem open_iff : begun.open_ = true ↔
    (begun.phase = .announcing ∨ begun.phase = .waiting) ∧ begun.future = none := by
  simp [Begin.open_]

section
variable (sound : DeliverySound s)
include sound

theorem DeliverySound.watched (found : s.begins[i]? = some begun)
    (undone : begun.open_ = true) : s.watched = true :=
  watched_iff.mpr ⟨i, begun, sound.attached i begun found undone, found, undone⟩

theorem DeliverySound.setBegin (found : s.begins[i]? = some begun)
    (told : ∀ outcome, begun'.future = some outcome → begun'.phase ≠ .left →
      s.outcome = some outcome)
    (undone : begun'.open_ = true → begun.open_ = true) : DeliverySound (s.setBegin i begun') where
  tells := Parties.forall_set sound.tells told
  attached := by
    intro j other found' open_
    rcases Parties.getElem?_set_cases found' with ⟨rfl, rfl⟩ | ⟨_, found'⟩
    · exact sound.attached i begun found (undone open_)
    · exact sound.attached j other found' open_
  carried := sound.carried
  coming := by
    intro isOver watched
    obtain ⟨j, other, waiter, found', open_⟩ := watched_iff.mp watched
    refine sound.coming isOver (watched_iff.mpr ?_)
    rcases Parties.getElem?_set_cases found' with ⟨rfl, rfl⟩ | ⟨_, found'⟩
    · exact ⟨i, begun, waiter, found, undone open_⟩
    · exact ⟨j, other, waiter, found', open_⟩

theorem DeliverySound.store {stored : Option HumanInteraction}
    (keeps : s.KeepsRecord { s with stored })
    (isOver : ({ s with stored } : InteractionDesk).isOver = true → s.isOver = true) :
    DeliverySound { s with stored } where
  tells begun member outcome future here := keeps.outcome (sound.tells begun member outcome future here)
  attached := sound.attached
  carried settle member carries := keeps.outcome (sound.carried settle member carries)
  coming now watched := sound.coming (isOver now) watched

theorem DeliverySound.setSettle {phase : SettlePhase} (call : s.settles[k]? = some settle)
    (carried : phase.carries = true → s.outcome = some settle.call.outcome)
    (coming : s.watched = true → settle.phase.carries = true → phase.carries = true) :
    DeliverySound (s.setSettle k settle phase) :=
  { sound with
    carried := Parties.forall_set sound.carried carried
    coming := by
      intro isOver watched
      obtain ⟨by_, listed, carries⟩ := sound.coming isOver watched
      by_cases same : by_ = settle
      · subst same
        exact ⟨_, Parties.mem_set_self call, coming watched carries⟩
      · exact ⟨by_, Parties.mem_set_other listed call same, carries⟩ }

theorem persist_sound (found : s.begins[i]? = some begun)
    (phase : begun.phase = .persisting) (now : Time) (interactionId : String) (free : Bool) :
    DeliverySound (s.persist env i begun now interactionId free) := by
  have here : begun.phase ≠ .left := by rw [phase]; exact nofun
  have told := sound.tells begun (List.mem_of_getElem? found)
  unfold InteractionDesk.persist
  split
  · exact sound.setBegin found (fun outcome future _ => told outcome future here) nofun
  · rename_i record created requested
    have written : DeliverySound { s with stored := some record } := by
      rcases request_spec requested with stands | ⟨nothing, pending⟩
      · rw [← stands]
        exact sound
      · refine sound.store ?_ ?_
        · intro old stored
          rw [nothing] at stored
          cases stored
        · intro isOver
          obtain ⟨other, stored, isOver⟩ := over_iff.mp isOver
          cases stored
          rw [pending] at isOver
          cases isOver
    have kept := written.tells begun (List.mem_of_getElem? found)
    split
    · exact written.setBegin found (fun outcome future _ => kept outcome future here) nofun
    · rename_i resolved
      refine written.setBegin found ?_ ?_
      · intro outcome future _
        cases future
        simp [InteractionDesk.outcome, HumanInteraction.outcome, resolved]
      · intro undone
        cases (open_iff.mp undone).2
    · exact written.setBegin found (fun outcome future _ => kept outcome future here) nofun

theorem register_sound {created : Bool}
    (found : s.begins[i]? = some begun) (phase : begun.phase = .registering created)
    (timely : s.isOver = true → s.waiter = none → s.Coming) :
    DeliverySound (s.register i begun created) := by
  have here : begun.phase ≠ .left := by rw [phase]; exact nofun
  have told := sound.tells begun (List.mem_of_getElem? found)
  unfold InteractionDesk.register
  split
  · exact sound.setBegin found (fun outcome future _ => told outcome future here) nofun
  · rename_i free
    have nobody : s.waiter = none := by simpa using free
    refine ⟨?_, ?_, sound.carried, fun isOver _ => timely isOver nobody⟩
    · exact Parties.forall_set sound.tells (fun outcome future _ => told outcome future here)
    · intro j other found' undone
      rcases Parties.getElem?_set_cases found' with ⟨rfl, rfl⟩ | ⟨_, found'⟩
      · rfl
      · have waiter := sound.attached j other found' undone
        rw [nobody] at waiter
        cases waiter

theorem write_sound (call : s.settles[k]? = some settle)
    (phase : settle.phase = .persisting) (now : Time)
    (timely : ∀ record ∈ s.stored, record.lapses now settle.call = true → s.watched = false) :
    DeliverySound (s.write env k settle now) := by
  unfold InteractionDesk.write
  split
  · refine sound.setSettle call nofun ?_
    rw [phase]
    exact nofun
  · rename_i record changed written
    obtain ⟨old, stands, ends⟩ := ends_of_write written
    have keeps : s.KeepsRecord { s with stored := some record } := by
      intro other stored isOver
      rw [Option.mem_def, stands] at stored
      cases stored
      exact congrArg some (ends.kept isOver).1
    refine ⟨?_, sound.attached, ?_, ?_⟩
    · intro begun member outcome future here
      exact keeps.outcome (sound.tells begun member outcome future here)
    · refine Parties.forall_set ?_ ?_
      · intro other member carries
        exact keeps.outcome (sound.carried other member carries)
      · intro carries
        cases changed with
        | true => exact ends.brings rfl
        | false => cases carries
    · intro _ watched
      cases changed with
      | true => exact ⟨_, Parties.mem_set_self call, rfl⟩
      | false =>
        cases pending : old.pending with
        | true =>
          have lapsed := timely old stands (ends.lapses pending rfl)
          change s.watched = true at watched
          rw [lapsed] at watched
          cases watched
        | false =>
          have isOver : s.isOver = true := over_iff.mpr ⟨old, stands, pending⟩
          obtain ⟨by_, listed, carries⟩ := sound.coming isOver watched
          refine ⟨by_, Parties.mem_set_other listed call ?_, carries⟩
          rintro rfl
          rw [phase] at carries
          cases carries

theorem setFuture_sound {outcome : Delivered} (told : s.outcome = some outcome) :
    (s.setFuture outcome).Tells ∧ ∀ begun ∈ (s.setFuture outcome).begins, begun.open_ = false := by
  rcases setFuture_cases s outcome with ⟨i, begun, waiter, found, _, same⟩ | ⟨same, done⟩
  · rw [same]
    refine ⟨Parties.forall_set sound.tells ?_, ?_⟩
    · intro other future _
      cases future
      exact told
    · intro other member
      by_contra undone
      rw [Bool.not_eq_false] at undone
      obtain ⟨j, found'⟩ := List.mem_iff_getElem?.mp member
      rcases Parties.getElem?_set_cases found' with ⟨rfl, rfl⟩ | ⟨apart, found'⟩
      · cases (open_iff.mp undone).2
      · have mine := sound.attached j other found' undone
        rw [waiter] at mine
        exact apart (Option.some.inj mine)
  · rw [same]
    refine ⟨sound.tells, ?_⟩
    intro other member
    by_contra undone
    rw [Bool.not_eq_false] at undone
    obtain ⟨j, found⟩ := List.mem_iff_getElem?.mp member
    exact done j other (sound.attached j other found undone) found (open_iff.mp undone).2

theorem deliver_sound {changed : Bool}
    (call : s.settles[k]? = some settle) (phase : settle.phase = .delivering changed)
    (timely : changed = false → s.watched = false) :
    DeliverySound (s.deliver k settle changed) := by
  have told : changed = true → s.outcome = some settle.call.outcome := by
    rintro rfl
    exact sound.carried settle (List.mem_of_getElem? call) (by rw [phase]; rfl)
  have after : ∃ u : InteractionDesk, (if changed then s.setFuture settle.call.outcome else s) = u ∧
      u.stored = s.stored ∧ u.settles = s.settles ∧ u.Tells ∧
      ∀ begun ∈ u.begins, begun.open_ = false := by
    refine ⟨_, rfl, ?_⟩
    cases changed with
    | true =>
      obtain ⟨tells, closed⟩ := setFuture_sound sound (told rfl)
      exact ⟨setFuture_stored _, setFuture_settles _, tells, closed⟩
    | false =>
      refine ⟨rfl, rfl, sound.tells, ?_⟩
      intro begun member
      by_contra undone
      rw [Bool.not_eq_false] at undone
      obtain ⟨j, found⟩ := List.mem_iff_getElem?.mp member
      have watched := sound.watched found undone
      rw [timely rfl] at watched
      cases watched
  obtain ⟨u, is, stored, settles, tells, closed⟩ := after
  unfold InteractionDesk.deliver
  rw [is]
  refine ⟨tells, ?_, ?_, ?_⟩
  · intro j begun found undone
    rw [closed begun (List.mem_of_getElem? found)] at undone
    cases undone
  · simp only [InteractionDesk.setSettle, settles]
    refine Parties.forall_set ?_ nofun
    intro other member carries
    have kept := sound.carried other member carries
    rw [InteractionDesk.outcome, ← stored] at kept
    exact kept
  · intro _ watched
    obtain ⟨j, _, waiter, -⟩ := watched_iff.mp watched
    cases waiter

/-- A timely step keeps what has been told, and whom the outcome is on its way to. -/
theorem interaction_step_sound (timely : act.Timely s)
    (taken : s.step env act = some t) : DeliverySound t := by
  cases interaction_taken taken with
  | begin_ request =>
    refine ⟨Parties.forall_append sound.tells nofun, ?_, sound.carried, ?_⟩
    · intro j other found undone
      rcases Parties.getElem?_append_cases found with ⟨-, rfl⟩ | found
      · cases undone
      · exact sound.attached j other found undone
    · intro isOver watched
      obtain ⟨j, other, waiter, found, undone⟩ := watched_iff.mp watched
      rcases Parties.getElem?_append_cases found with ⟨-, rfl⟩ | found
      · cases undone
      · exact sound.coming isOver (watched_iff.mpr ⟨j, other, waiter, found, undone⟩)
  | persist now interactionId free found phase =>
    exact persist_sound sound found phase now interactionId free
  | register found phase => exact register_sound sound found phase timely
  | @announced i begun ok found phase =>
    refine sound.setBegin found ?_ ?_
    · intro outcome future _
      exact sound.tells begun (List.mem_of_getElem? found) outcome future
        (by rw [phase]; exact nofun)
    · intro undone
      exact open_iff.mpr ⟨Or.inl phase, (open_iff.mp undone).2⟩
  | leave found phase =>
    refine sound.setBegin found (fun _ _ here => absurd rfl here) ?_
    intro undone
    cases (open_iff.mp undone).2
  | call call =>
    refine ⟨sound.tells, sound.attached, Parties.forall_append sound.carried nofun, ?_⟩
    intro isOver watched
    obtain ⟨by_, listed, carries⟩ := sound.coming isOver watched
    exact ⟨by_, List.mem_append_left _ listed, carries⟩
  | write now call phase => exact write_sound sound call phase now (timely _ call)
  | told ok call phase =>
    have carries : s.outcome = some _ :=
      sound.carried _ (List.mem_of_getElem? call) (by rw [phase]; rfl)
    refine sound.setSettle call (fun _ => carries) ?_
    intro watched _
    cases ok with
    | true => rfl
    | false =>
      rw [timely rfl] at watched
      cases watched
  | deliver call phase =>
    refine deliver_sound sound call phase ?_
    rintro rfl
    exact timely _ call phase

end

end Sound

section Progress

variable {env : SchemaEnv} {s t : InteractionDesk} {act : InteractionAct} {i k : Nat}

theorem rank_setBegin {begun begun' : Begin} (found : s.begins[i]? = some begun)
    (lower : begun'.phase.rank < begun.phase.rank) : (s.setBegin i begun').rank < s.rank := by
  have change := Parties.rank_set (b := begun') (fun begun => begun.phase.rank) found
  simp only [InteractionDesk.rank, InteractionDesk.setBegin]
  omega

theorem rank_setSettle {settle : Settle} {phase : SettlePhase}
    (call : s.settles[k]? = some settle) (lower : phase.rank < settle.phase.rank) :
    (s.setSettle k settle phase).rank < s.rank := by
  have change := Parties.rank_set (b := { settle with phase })
    (fun settle => settle.phase.rank) call
  simp only [InteractionDesk.rank, InteractionDesk.setSettle] at *
  omega

theorem rank_setFuture (outcome : Delivered) : (s.setFuture outcome).rank = s.rank := by
  rcases setFuture_cases s outcome with ⟨i, begun, -, found, -, same⟩ | ⟨same, -⟩ <;> rw [same]
  simp only [InteractionDesk.rank, InteractionDesk.setBegin]
  rw [Parties.rank_set_same (b := { begun with future := some outcome })
    (fun begun => begun.phase.rank) found rfl]

theorem interaction_step_rank (taken : s.step env act = some t) (goes : act.goesOn = true) :
    t.rank < s.rank := by
  cases interaction_taken taken with
  | begin_ _ | leave _ _ | call _ => cases goes
  | persist now interactionId free found phase =>
    unfold InteractionDesk.persist
    split
    · exact rank_setBegin found (by simp [phase, BeginPhase.rank])
    · split <;> exact rank_setBegin (s := { s with stored := _ }) found
        (by simp [phase, BeginPhase.rank])
  | @register i begun created found phase =>
    unfold InteractionDesk.register
    split
    · exact rank_setBegin found (by simp [phase, BeginPhase.rank])
    · refine rank_setBegin (s := s) found ?_
      cases created <;> simp [phase, BeginPhase.rank]
  | announced ok found phase =>
    refine rank_setBegin found ?_
    cases ok <;> simp [phase, BeginPhase.rank]
  | write now call phase =>
    unfold InteractionDesk.write
    split
    · exact rank_setSettle call (by simp [phase, SettlePhase.rank])
    · refine rank_setSettle (s := { s with stored := _ }) call ?_
      split <;> simp [phase, SettlePhase.rank]
  | told ok call phase =>
    refine rank_setSettle call ?_
    cases ok <;> simp [phase, SettlePhase.rank]
  | @deliver k settle changed call phase =>
    have lower : (SettlePhase.done changed).rank < settle.phase.rank := by
      rw [phase]
      exact Nat.lt_succ_self 0
    unfold InteractionDesk.deliver
    split
    · rw [← rank_setFuture (s := s) settle.call.outcome]
      rw [← setFuture_settles settle.call.outcome] at call
      exact rank_setSettle (s := { s.setFuture settle.call.outcome with waiter := none }) call lower
    · exact rank_setSettle (s := { s with waiter := none }) call lower

/-- Once the interaction is over, a `begin` that has not ended does not wait for anything but a
step of its own or of the call that brings the outcome. -/
theorem begin_moves (sound : DeliverySound s) (isOver : s.isOver = true) {begun : Begin}
    (member : begun ∈ s.begins) (going : begun.ended = false) :
    ∃ act, act.goesOn = true ∧ (act.Timely s ∨ ∃ i, act = .register i) ∧
      (s.step env act).isSome = true := by
  obtain ⟨i, found⟩ := List.mem_iff_getElem?.mp member
  cases phase : begun.phase with
  | persisting =>
    exact ⟨.persist i 0 "" true, rfl, Or.inl trivial, by simp [InteractionDesk.step, found, phase]⟩
  | registering created =>
    exact ⟨.register i, rfl, Or.inr ⟨i, rfl⟩, by simp [InteractionDesk.step, found, phase]⟩
  | announcing =>
    exact ⟨.announced i true, rfl, Or.inl trivial, by simp [InteractionDesk.step, found, phase]⟩
  | waiting =>
    have undone : begun.open_ = true := by
      refine open_iff.mpr ⟨Or.inr phase, ?_⟩
      simpa [Begin.ended, phase] using going
    obtain ⟨settle, listed, carries⟩ := sound.coming isOver (sound.watched found undone)
    obtain ⟨k, call⟩ := List.mem_iff_getElem?.mp listed
    cases stands : settle.phase with
    | announcing =>
      exact ⟨.told k true, rfl, Or.inl nofun, by simp [InteractionDesk.step, call, stands]⟩
    | delivering changed =>
      refine ⟨.deliver k, rfl, Or.inl ?_, by simp [InteractionDesk.step, call, stands]⟩
      intro other call' stands'
      rw [Option.mem_def, call] at call'
      cases call'
      rw [stands'] at carries
      cases carries
    | _ => rw [stands] at carries; cases carries
  | left | raised => rw [Begin.ended, phase] at going; cases going

theorem over_completes (sound : DeliverySound s) (isOver : s.isOver = true) : s.Completes env := by
  intro acts goes timely
  have kept : ∀ s act t, DeliverySound s ∧ s.isOver = true → InteractionAct.Timely s act →
      InteractionDesk.step env s act = some t → DeliverySound t ∧ t.isOver = true := by
    rintro s act t ⟨sound, isOver⟩ timely taken
    exact ⟨interaction_step_sound sound timely taken, (interaction_step_keeps taken).isOver isOver⟩
  have reached := Transition.trace_safe_of_clean kept ⟨sound, isOver⟩ timely _
    (Transition.mem_trace_final s acts)
  have lowers : ∀ s act t, True → InteractionAct.goesOn act = true →
      InteractionDesk.step env s act = some t → True ∧ t.rank < s.rank :=
    fun _ _ _ _ goes taken => ⟨trivial, interaction_step_rank taken goes⟩
  have bounded : (accepted (InteractionDesk.step env) s acts).length ≤ s.rank :=
    Transition.accepted_length_le lowers trivial goes
  refine ⟨bounded, ?_⟩
  by_cases done : ∀ begun ∈ (final (InteractionDesk.step env) s acts).begins, begun.ended = true
  · exact Or.inl done
  · obtain ⟨begun, member, going⟩ :
        ∃ begun ∈ (final (InteractionDesk.step env) s acts).begins, begun.ended = false := by
      simpa using done
    exact Or.inr (begin_moves reached.1 reached.2 member going)

end Progress

section Runs

variable {env : SchemaEnv} {key : InteractionKey} {stored : Option HumanInteraction}
  {acts : List InteractionAct}

theorem initial_delivery : DeliverySound (.initial key stored) :=
  ⟨fun _ member => (List.not_mem_nil member).elim,
    fun _ _ found => by simp [InteractionDesk.initial] at found,
    fun _ member => (List.not_mem_nil member).elim, fun _ watched => by cases watched⟩

/-- Along a run of timely steps one outcome is recorded, a waiter is told that one, none is
detached before it, and none waits once it is there. -/
theorem interactions_delivered
    (timely : ∀ taken ∈ accepted (InteractionDesk.step env) (.initial key stored) acts,
      taken.2.Timely taken.1) :
    (trace (InteractionDesk.step env) (.initial key stored) acts).Pairwise
        InteractionDesk.KeepsRecord ∧
      ∀ s ∈ trace (InteractionDesk.step env) (.initial key stored) acts,
        s.Tells ∧ s.Attached ∧ (s.isOver = true → s.Completes env) := by
  refine ⟨?_, ?_⟩
  · exact Transition.trace_pairwise_of_clean keepsRecord_refl
      (fun _ _ _ => keepsRecord_trans) (fun _ _ _ _ => interaction_step_keeps) timely
  · intro s reached
    have sound := Transition.trace_safe_of_clean (fun _ _ _ => interaction_step_sound)
      initial_delivery timely s reached
    exact ⟨sound.tells, sound.attached, over_completes sound⟩

def sampleSchemaEnv : SchemaEnv where
  checkSchema _ := true
  objectType _ := true
  accepts _ _ := true

def sampleKey : InteractionKey where
  runtimeSessionRef := "s"
  runtimeTurnRef := "t"
  runtimeInteractionId := "i"
  interactionEpoch := 1

/-- The user is asked, until the clock is at ten. -/
def asked : List InteractionAct :=
  [.begin_
      { principalId := "p", ownerKind := .conversationTurn, ownerId := "o", kind := .userInput,
        display := .emptyObject, resolutionSchema := .emptyObject, expiresAt := some 10 },
    .persist 0 0 "a" true, .register 0, .announced 0 true]

def answeredRun : List InteractionAct :=
  asked ++ [.call (.resolve "p" ⟨"1"⟩ "u"), .write 0 1, .told 0 true, .deliver 0]

theorem interactions_delivered_sample :
    (final (InteractionDesk.step sampleSchemaEnv) (.initial sampleKey none) answeredRun).outcome =
        some (.result ⟨"1"⟩) ∧
      ∀ s ∈ trace (InteractionDesk.step sampleSchemaEnv) (.initial sampleKey none) answeredRun,
        s.Tells ∧ s.Attached ∧ (s.isOver = true → s.Completes sampleSchemaEnv) :=
  ⟨by decide +kernel, (interactions_delivered (by decide +kernel)).2⟩

/-- The answer comes too late, and takes the waiter away. -/
def lateAnswer : List InteractionAct :=
  asked ++ [.call (.resolve "p" ⟨"1"⟩ "u"), .write 0 11, .deliver 0]

/-- A second answer takes the waiter away while the first is announced. -/
def secondAnswer : List InteractionAct :=
  asked ++ [.call (.resolve "p" ⟨"1"⟩ "u"), .call (.resolve "p" ⟨"2"⟩ "u"), .write 0 1, .write 1 1,
    .deliver 1, .told 0 true, .deliver 0]

def earlyAnswer : List InteractionAct :=
  asked.take 2 ++ [.call (.resolve "p" ⟨"1"⟩ "u"), .write 0 1, .told 0 true, .deliver 0,
    .register 0, .announced 0 true]

/-- Nobody is under way but one waiter that is not told. -/
def InteractionDesk.stranded (s : InteractionDesk) : Bool :=
  s.isOver && s.begins.all (fun begun => begun.phase == .waiting && begun.future.isNone) &&
    s.begins.length == 1 && s.settles.all (fun settle => settle.phase.rank == 0)

theorem stranded_stops {s : InteractionDesk} (h : s.stranded = true) : ¬ s.Completes env := by
  intro completes
  simp only [InteractionDesk.stranded, Bool.and_eq_true, List.all_eq_true, beq_iff_eq,
    Option.isNone_iff_eq_none] at h
  obtain ⟨⟨⟨-, waits⟩, one⟩, quiet⟩ := h
  obtain ⟨begun, only⟩ := List.length_eq_one_iff.mp one
  have here := (completes [] (fun _ none_ => absurd none_ List.not_mem_nil)
    (fun _ none_ => absurd none_ List.not_mem_nil)).2
  rw [final] at here
  rcases here with done | moves
  · have member : begun ∈ s.begins := by rw [only]; exact List.mem_singleton_self begun
    have ended := done begun member
    rw [Begin.ended, (waits begun member).1] at ended
    simp only [(waits begun member).2, Option.isSome_none, Bool.false_eq_true] at ended
  · obtain ⟨act, goes, -, moves⟩ := moves
    obtain ⟨t, taken⟩ := Option.isSome_iff_exists.mp moves
    cases interaction_taken taken with
    | begin_ _ | leave _ _ | call _ => cases goes
    | persist _ _ _ found phase | register found phase | announced _ found phase =>
      rw [(waits _ (List.mem_of_getElem? found)).1] at phase
      cases phase
    | write _ call phase | told _ call phase | deliver call phase =>
      have idle := quiet _ (List.mem_of_getElem? call)
      rw [phase] at idle
      cases idle

theorem answers_strand_waiter : Transition.Along (fun acts =>
    ¬ ∀ s ∈ trace (InteractionDesk.step sampleSchemaEnv) (.initial sampleKey none) acts,
      s.isOver = true → s.Completes sampleSchemaEnv) [lateAnswer, secondAnswer, earlyAnswer] := by
  have behind : ∀ acts ∈ [lateAnswer, secondAnswer, earlyAnswer],
      (final (InteractionDesk.step sampleSchemaEnv) (.initial sampleKey none) acts).stranded =
        true := by decide +kernel
  intro acts listed completes
  have last := behind acts listed
  have isOver : (final (InteractionDesk.step sampleSchemaEnv) (.initial sampleKey none) acts).isOver =
      true := by
    simp only [InteractionDesk.stranded, Bool.and_eq_true] at last
    exact last.1.1.1
  exact stranded_stops (behind acts listed) (completes _ (Transition.mem_trace_final _ _) isOver)

end Runs

end Knoa.Conversation
