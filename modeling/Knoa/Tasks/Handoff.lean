import Knoa.Tasks.SideEffects
import Knoa.Tasks.ApprovalRows

/-!
# Handing a decision to the call that waits for it

`confirm` puts its approval on record before it lists its waiter. A `resolve` in
between finds nobody to wake and requeues the Task.
-/
namespace Knoa.Tasks
open Relational Transaction Transition

def Decided (s : Store) (approvalId : String) (approved : Bool) : Prop :=
  ∃ row ∈ s.approvals.rows, row.approvalId = approvalId ∧ row.state ≠ .pending ∧
    approved = (row.state == .approved)

def TaskAt (start s : Store) (taskId : String) (state : TaskState) : Prop :=
  ∃ v₀ v, start.view taskId = some v₀ ∧ s.view taskId = some v ∧ v.row.state = state ∧
    v.row.attemptCount = v₀.row.attemptCount ∧ v.attempts = v₀.attempts

/-- A Core about to `confirm` one call. -/
def confirming (store : Store) (settings : ReviewSettings) (principalId runId : String)
    (proposal : ProposedToolCall) (effect risk : String) : Core where
  store := store
  settings := settings
  calls := [ { principalId, runId, proposal, effect, risk, needsConfirmation := true }]

/-- The steps of that `confirm`, and of a `resolve` that has started. -/
def Act.goesOn : Act → Prop
  | .request c _ _ | .register c | .review c _ | .publish c | .wake c | .release c
  | .resolveWithin c => c = 0
  | .resolveWrite _ | .resolveReturn => True
  | _ => False

/-- The steps of that `confirm`, interleaved with clients that resolve one approval. -/
def Act.handsOff (target : String) : Act → Prop
  | .resolve _ approvalId _ _ => approvalId = target
  | act => act.goesOn

/-- A decision recorded for the approval of a live call reaches the call, which
runs on in its attempt. -/
structure NoLostDecision (env : Env) (start : Store) (target : String) (s : Core) : Prop where
  unqueued : ∀ call ∈ s.calls, call.approvalId = some target → call.phase.approval.isSome = true →
    ∀ row ∈ s.store.tasks.rows, row.taskId = strip call.runId → row.state ≠ .queued
  resumed : ∀ call ∈ s.calls, call.approvalId = some target → ∀ approved,
    Decided s.store target approved → TaskAt start s.store (strip call.runId) .running
  answers : ∀ call ∈ s.calls, call.approvalId = some target → ∀ approved,
    call.answer = some approved → Decided s.store target approved
  returns : ∀ call ∈ s.calls, call.approvalId = some target → ∀ approved,
    Decided s.store target approved → (∀ act : Act, act.goesOn → s.step env act = none) →
      call.answer = some approved
  bounded : ∀ later : List Act, (∀ act ∈ later, act.goesOn) →
    (accepted (Core.step env) s later).length ≤ 37

/-- The approval of a call that is not in the waiter map yet. -/
def CallPhase.unlisted : CallPhase → Option TaskApprovalRecord
  | .requested approval _ => some approval
  | _ => none

/-- No decision is recorded between the request of a `confirm` and its listing, and
the repository takes the decision of its reviewer. -/
def HandsOver (env : Env) (s : Core) : Act → Prop
  | .resolveWrite now => ∀ r ∈ s.lock, ∀ call ∈ s.calls,
      let written := Tasks.step env s.store (.resolveApproval now r.principalId r.approvalId
        r.approved r.resumeState r.resolvedBy)
      (∀ approval ∈ call.phase.unlisted, r.approvalId = approval.approvalId →
        written.isSome = false) ∧
      (r.caller.isSome = true → written.isSome = true)
  | _ => True

section Records

variable {start s s' : Store} {op : Op} {taskId approvalId : String} {state : TaskState}

theorem Decided.unique {a b : Bool} (ha : Decided s approvalId a) (hb : Decided s approvalId b) :
    a = b := by
  obtain ⟨row, member, names, -, rfl⟩ := ha
  obtain ⟨other, member', names', -, rfl⟩ := hb
  rw [approval_unique member member' (names.trans names'.symm)]

variable {approved : Bool}

theorem Decided.not_pending (h : Decided s approvalId approved) {row : ApprovalRow}
    (member : row ∈ s.approvals.rows) (names : row.approvalId = approvalId) :
    row.state ≠ .pending := by
  obtain ⟨other, member', names', decided, -⟩ := h
  rw [approval_unique member member' (names.trans names'.symm)]
  exact decided

theorem Decided.kept (rooted : Rooted s) (refines : Refines s op s')
    (h : Decided s approvalId approved) : Decided s' approvalId approved := by
  obtain ⟨row, member, names, decided, rfl⟩ := h
  obtain ⟨row', member', carried⟩ := refines.approval_kept rooted member
  have same : row'.state = row.state := by
    cases carried.fate with
    | kept state => exact state
    | resolved _ _ pending | cancelled pending | paused _ _ pending => exact absurd pending decided
  exact ⟨row', member', carried.approvalId.trans names, by rw [same]; exact decided, by rw [same]⟩

theorem TaskAt.here {v : TaskView} (h : TaskAt start s taskId state)
    (seen : s.view taskId = some v) :
    v.row.state = state := by
  obtain ⟨_, v', -, seen', state, -⟩ := h
  rw [seen, Option.some.injEq] at seen'
  rw [seen']
  exact state

theorem TaskAt.row (h : TaskAt start s taskId state) {row : TaskRow} (member : row ∈ s.tasks.rows)
    (names : row.taskId = taskId) : row.state = state := by
  subst names
  obtain ⟨v, seen, same⟩ := view_of_mem member
  rw [← same]
  exact h.here seen

theorem TaskAt.moved {P : TaskState → Prop} (h : TaskAt start s taskId state)
    (refines : Refines s op s') (stands : P state)
    (move : ∀ v v', v.row.state = state → Move s op v v' → v'.attempts = v.attempts ∧
      v'.row.attemptCount = v.row.attemptCount ∧ P v'.row.state) :
    ∃ state', P state' ∧ TaskAt start s' taskId state' := by
  obtain ⟨v₀, v, first, seen, at_, count, attempts⟩ := h
  cases refines.changed taskId with
  | same slice => exact ⟨state, stands, v₀, v, first, (view_of_slice slice).trans seen, at_, count, attempts⟩
  | moved before after moved =>
    rw [seen] at before
    cases before
    obtain ⟨attempts', count', reached⟩ := move _ _ at_ moved
    exact ⟨_, reached, v₀, _, first, after, rfl, count'.trans count, attempts'.trans attempts⟩
  | created absent =>
    rw [seen] at absent
    cases absent

variable {principalId : String}

theorem TaskAt.request {now : Time} {approvalIds : Nat → String} {runId : String}
    {request : ApprovalRequest} (h : TaskAt start s taskId .running)
    (refines : Refines s (.requestApproval now approvalIds principalId runId request) s') :
    TaskAt start s' taskId .running ∨ TaskAt start s' taskId .waitingApproval := by
  obtain ⟨state', reached, stands⟩ := h.moved (P := fun state => state = .running ∨
    state = .waitingApproval) refines (Or.inl rfl) (by
      intro v v' at_ move
      cases move with
      | touch _ row => exact ⟨rfl, row.attemptCount, Or.inl (row.state.trans at_)⟩
      | note _ row => exact ⟨rfl, row.attemptCount, Or.inl row.state⟩
      | ask _ _ _ _ row => exact ⟨rfl, row.attemptCount, Or.inr row.state⟩)
  rcases reached with rfl | rfl
  · exact Or.inl stands
  · exact Or.inr stands

theorem TaskAt.annotate {named reason : String} (h : TaskAt start s taskId state)
    (refines : Refines s (.annotateApprovalReview principalId named reason) s') :
    TaskAt start s' taskId state := by
  obtain ⟨state', rfl, stands⟩ := h.moved (P := fun reached => reached = state) refines rfl (by
    intro v v' at_ move
    cases move with
    | touch _ row => exact ⟨rfl, row.attemptCount, row.state.trans at_⟩
    | note running row => exact ⟨rfl, row.attemptCount, row.state.trans (running.symm.trans at_)⟩
    | annotate => exact ⟨rfl, rfl, at_⟩)
  exact stands

theorem Decided.before_annotate {named reason : String} (rooted : Rooted s)
    (refines : Refines s (.annotateApprovalReview principalId named reason) s')
    (stands : TaskAt start s taskId .running ∨ TaskAt start s taskId .waitingApproval)
    (known : ∃ row ∈ s.approvals.rows, row.approvalId = approvalId ∧ row.taskId = taskId)
    (h : Decided s' approvalId approved) : Decided s approvalId approved := by
  obtain ⟨row', member', names, decided, rfl⟩ := h
  rcases refines.approval_from rooted member' with ⟨row, member, carried⟩ | ⟨pending, -⟩
  · have names' : row.approvalId = approvalId := carried.approvalId.symm.trans names
    cases carried.fate with
    | kept state => exact ⟨row, member, names', by rw [← state]; exact decided, by rw [state]⟩
    | resolved call | paused call => cases call
    | cancelled _ _ ended =>
      obtain ⟨other, member', same, owner⟩ := known
      rw [approval_unique member member' (names'.trans same.symm), owner] at ended
      obtain ⟨task, listed, named', cancelled⟩ := ended
      rcases stands with running | waiting
      · have wrong := (running.annotate refines).row listed named'
        rw [cancelled] at wrong
        cases wrong
      · have wrong := (waiting.annotate refines).row listed named'
        rw [cancelled] at wrong
        cases wrong
  · exact absurd pending decided

end Records

def CallPhase.listed : CallPhase → Bool
  | .reviewing .. | .publishing .. | .waiting _ | .deciding .. | .failing _ | .unwinding .. => true
  | _ => false

section Handed

/-- A `resolve` of the approval, beside a call that confirms it. -/
structure HandedLock (target : String) (s : Core) (call : ToolCall) (r : Resolving) : Prop where
  names : r.approvalId = target
  waiter : r.waiter = if call.phase.listed then some ⟨target, call.runId, 0⟩ else none
  caller : r.caller = none ∨ r.caller = some 0 ∧
    ∃ approval review, call.phase = .deciding approval review
  written : ∀ approval changed, r.written = some (approval, changed) →
    Decided s.store (strip target) (approval.state == .approved) ∧
      (changed = true → Decided s.store (strip target) r.approved)

/-- A call on its way through `confirm`, and what the decision of its approval has
done so far. -/
structure Handed (start : Store) (target : String) (s : Core) (call : ToolCall) : Prop where
  task : TaskAt start s.store (strip call.runId) .running ∨
    TaskAt start s.store (strip call.runId) .waitingApproval
  early : call.phase = .admitted → TaskAt start s.store (strip call.runId) .running
  known : call.phase ≠ .admitted → strip target = target ∧
    ∃ row ∈ s.store.approvals.rows, row.approvalId = target ∧ row.taskId = strip call.runId
  resumed : call.phase ≠ .admitted → ∀ approved, Decided s.store target approved →
    TaskAt start s.store (strip call.runId) .running
  waiters : s.waiters = if call.phase.listed then [⟨target, call.runId, 0⟩] else []
  lock : ∀ r, s.lock = some r → HandedLock target s call r
  requested : ∀ approval created, call.phase = .requested approval created →
    ∀ approved, ¬ Decided s.store target approved
  future : call.phase.listed = true → call.future ≠ .cancelled ∧
    ∀ approved, call.future = .result approved → Decided s.store target approved
  woken : call.phase.listed = true → call.future = .pending →
    ∀ approved, Decided s.store target approved →
      ∃ r approval, s.lock = some r ∧ r.written = some (approval, true)
  calm : ∀ approval, call.phase ≠ .failing approval
  unwinding : ∀ approval answer, call.phase = .unwinding approval answer →
    ∃ approved, answer = some approved ∧ Decided s.store target approved
  answer : ∀ approved, call.answer = some approved → Decided s.store target approved
  isOver : call.phase ≠ .admitted → call.phase.approval = none →
    ∃ approved, call.answer = some approved

/-- The call confirms the approval, as far as it knows. -/
def Aims (target : String) (call : ToolCall) : Prop :=
  ∀ approvalId, call.approvalId = some approvalId → approvalId = target

/-- The invariant of one `confirm` beside clients that resolve one approval. -/
structure Confirming (start : Store) (target : String) (s : Core) (call : ToolCall) : Prop where
  sound : Sound s.store
  normal : NormalApprovals s.store
  single : s.calls = [call]
  asked : call.phase = .admitted → call.approvalId = none
  holds : ∀ approval, call.phase.approval = some approval →
    call.approvalId = some approval.approvalId ∧ strip approval.approvalId = approval.approvalId
  handed : Aims target call → Handed start target s call

variable {start : Store} {target : String} {s t : Core} {call : ToolCall}

variable {phase : CallPhase}

theorem listed_approval (listed : phase.listed = true) : phase.approval.isSome = true := by
  cases phase <;> first | rfl | cases listed

theorem listed_entered (listed : phase.listed = true) : phase ≠ .admitted := by
  rintro rfl
  cases listed

theorem Handed.waiterOf (h : Handed start target s call) :
    s.waiterOf target = if call.phase.listed then some ⟨target, call.runId, 0⟩ else none := by
  unfold Core.waiterOf
  rw [h.waiters]
  cases call.phase.listed <;> simp

theorem Handed.goesOn (h : Handed start target s call)
    (same : t.store = s.store ∧ t.waiters = s.waiters ∧ t.lock = s.lock)
    (before : call.phase.listed = true) (after : phase.listed = true)
    (apart : s.lock = none ∨ ∀ approval review, call.phase ≠ .deciding approval review)
    (calm : ∀ approval, phase ≠ .failing approval)
    (unwinding : ∀ approval answer, phase = .unwinding approval answer →
      ∃ approved, answer = some approved ∧ Decided s.store target approved) :
    Handed start target t { call with phase } := by
  obtain ⟨store, waiters, lock⟩ := same
  have entered := listed_entered before
  refine ⟨?_, ?_, ?_, ?_, ?_, ?_, ?_, ?_, ?_, calm, ?_, ?_, ?_⟩
  · rw [store]
    exact h.task
  · intro wrong
    exact absurd wrong (listed_entered after)
  · intro _
    rw [store]
    exact h.known entered
  · intro _
    rw [store]
    exact h.resumed entered
  · rw [waiters, h.waiters, before]
    exact (if_pos after).symm
  · intro r held
    obtain ⟨names, waiter, caller, written⟩ := h.lock r (lock ▸ held)
    refine ⟨names, ?_, ?_, ?_⟩
    · rw [waiter, before]
      exact (if_pos after).symm
    · rcases caller with client | ⟨-, approval, review, deciding⟩
      · exact Or.inl client
      · rcases apart with free | apart
        · rw [lock, free] at held
          cases held
        · exact absurd deciding (apart approval review)
    · rw [store]
      exact written
  · intro approval created wrong
    rw [show phase = .requested approval created from wrong] at after
    cases after
  · intro _
    rw [store]
    exact h.future before
  · intro _ unset
    rw [store, lock]
    exact h.woken before unset
  · rw [store]
    exact unwinding
  · rw [store]
    exact h.answer
  · intro _ outside
    have inside := listed_approval after
    rw [show phase.approval = none from outside] at inside
    cases inside

variable {call' : ToolCall}

theorem HandedLock.outside {r : Resolving} (h : HandedLock target s call r)
    (before : call.phase.listed = false) (after : call'.phase.listed = false)
    (decisions : ∀ approvalId approved, Decided s.store approvalId approved →
      Decided t.store approvalId approved) :
    HandedLock target t call' r where
  names := h.names
  waiter := by
    rw [h.waiter, before, after]
    rfl
  caller := by
    rcases h.caller with client | ⟨-, approval, review, deciding⟩
    · exact Or.inl client
    · rw [deciding] at before
      cases before
  written approval changed result := by
    obtain ⟨decided, woken⟩ := h.written approval changed result
    exact ⟨decisions _ _ decided, fun change => decisions _ _ (woken change)⟩

section
variable (h : Confirming start target s call)
include h

theorem Confirming.found {c : Nat} (zero : c = 0)
    (found : s.calls[c]? = some call') : call = call' := by
  rw [h.single, zero] at found
  exact Option.some.inj found

theorem Confirming.unasked (phase : call.phase = .admitted) : Aims target call := by
  intro approvalId names
  rw [h.asked phase] at names
  cases names

theorem Confirming.strays (store : t.store = s.store)
    (single : t.calls = [call']) (entered : call'.phase ≠ .admitted)
    (outside : call'.phase.approval = none) (strays : ¬ Aims target call') :
    Confirming start target t call' where
  sound := store ▸ h.sound
  normal := store ▸ h.normal
  single := single
  asked wrong := absurd wrong entered
  holds approval wrong := by
    rw [outside] at wrong
    cases wrong
  handed aims := absurd aims strays

end

variable {env : Env} {approval : TaskApprovalRecord} {created : Bool} {store : Store}

theorem Confirming.requested {now : Time} {approvalIds : Nat → String} {event : TaskEvent}
    (h : Confirming start target s call) (phase : call.phase = .admitted)
    (returned : requestApproval env now approvalIds call.principalId call.runId
      (call.approvalRequest env) s.store = (.ok (approval, event, created), store))
    (pending : approval.state = .pending) : Confirming start target
      ((s.withStore store).setCall 0 (fun call =>
        { call with approvalId := some approval.approvalId, phase := .requested approval created }))
      { call with
        approvalId := some approval.approvalId, phase := .requested approval created } := by
  have taken := requestApproval_taken returned
  have refines := step_refines h.sound.rooted taken
  obtain ⟨member, owner⟩ := requestApproval_known returned
  have normal := refines.normalApprovals h.sound.rooted h.normal
  have before := h.handed (h.unasked phase)
  have unlisted : call.phase.listed = false := by rw [phase]; rfl
  refine ⟨h.sound.kept taken, normal, ?_, by simp, ?_, ?_⟩
  · unfold Core.setCall
    rw [show (s.withStore store).calls = [call] from h.single]
    rfl
  · intro other holds
    cases holds
    exact ⟨rfl, normal approval member⟩
  intro aims
  have named : approval.approvalId = target := aims _ rfl
  have undecided : ∀ approved, ¬ Decided store target approved :=
    fun approved decided => decided.not_pending member named pending
  refine ⟨(before.early phase).request refines, by simp, ?_, ?_, ?_, ?_, ?_, by simp [CallPhase.listed],
    by simp [CallPhase.listed], by simp, by simp, ?_, by simp [CallPhase.approval]⟩
  · intro _
    rw [← named]
    exact ⟨normal approval member, approval, member, rfl, owner⟩
  · intro _ approved decided
    exact absurd decided (undecided approved)
  · change s.waiters = []
    rw [before.waiters, unlisted]
    rfl
  · intro r held
    exact (before.lock r held).outside unlisted rfl (fun _ _ decided => decided.kept h.sound.rooted refines)
  · intro _ _ _ approved
    exact undecided approved
  · intro approved answered
    exact (before.answer approved answered).kept h.sound.rooted refines

theorem Handed.leaves (left : call'.phase = .confirmed ∨ ∃ outcome, call'.phase = .ended outcome)
    (running : TaskAt start t.store (strip call'.runId) .running)
    (known : strip target = target ∧ ∃ row ∈ t.store.approvals.rows, row.approvalId = target ∧
      row.taskId = strip call'.runId)
    (waiters : t.waiters = []) (lock : ∀ r, t.lock = some r → HandedLock target t call' r)
    {approved : Bool} (answered : call'.answer = some approved)
    (decided : Decided t.store target approved) : Handed start target t call' := by
  have unlisted : call'.phase.listed = false := by
    rcases left with phase | ⟨outcome, phase⟩
    · rw [phase]
      rfl
    · rw [phase]
      rfl
  have outside : call'.phase.approval = none := by
    rcases left with phase | ⟨outcome, phase⟩
    · rw [phase]
      rfl
    · rw [phase]
      rfl
  refine ⟨Or.inl running, fun _ => running, fun _ => known, fun _ _ _ => running, ?_, lock, ?_, ?_, ?_,
    ?_, ?_, ?_, fun _ _ => ⟨approved, answered⟩⟩
  · rw [waiters, unlisted]
    rfl
  · intro approval created wrong
    rw [wrong] at outside
    cases outside
  · intro listed
    rw [unlisted] at listed
    cases listed
  · intro listed
    rw [unlisted] at listed
    cases listed
  · intro approval wrong
    rw [wrong] at outside
    cases outside
  · intro approval answer wrong
    rw [wrong] at outside
    cases outside
  · intro other same
    rw [answered, Option.some.injEq] at same
    exact same ▸ decided

theorem returned_phase (approved : Bool) :
    (if approved then CallPhase.confirmed else .ended .denied) = .confirmed ∨
      ∃ outcome, (if approved then CallPhase.confirmed else .ended .denied) = .ended outcome := by
  cases approved with
  | true => exact Or.inl rfl
  | false => exact Or.inr ⟨_, rfl⟩

/-- The call `confirm` has returned to. -/
def ToolCall.returned (call : ToolCall) (approvalId : String) (approved : Bool) : ToolCall :=
  { call with
    approvalId := some approvalId, answer := some approved,
    phase := if approved then .confirmed else .ended .denied }

variable (call) in
theorem returned_entered (approvalId : String) (approved : Bool) :
    (call.returned approvalId approved).phase ≠ .admitted ∧
      (call.returned approvalId approved).phase.listed = false ∧
      (call.returned approvalId approved).phase.approval = none := by
  cases approved <;> exact ⟨by simp [ToolCall.returned], rfl, rfl⟩

section
variable (h : Confirming start target s call)
include h

theorem Confirming.answered {now : Time} {approvalIds : Nat → String} {event : TaskEvent}
    (phase : call.phase = .admitted)
    (returned : requestApproval env now approvalIds call.principalId call.runId
      (call.approvalRequest env) s.store = (.ok (approval, event, created), store))
    (decided : approval.state ≠ .pending) : Confirming start target
      ((s.withStore store).returned 0 approval.approvalId (approval.state == .approved))
      (call.returned approval.approvalId (approval.state == .approved)) := by
  have same : store = s.store := requestApproval_decided returned decided
  subst same
  obtain ⟨member, owner⟩ := requestApproval_known returned
  have before := h.handed (h.unasked phase)
  have unlisted : call.phase.listed = false := by rw [phase]; rfl
  obtain ⟨entered, outside, nothing⟩ :=
    returned_entered call approval.approvalId (approval.state == .approved)
  refine ⟨h.sound, h.normal, Core.setCall_single h.single _, fun wrong => absurd wrong entered, ?_, ?_⟩
  · intro other holds
    rw [nothing] at holds
    cases holds
  intro aims
  have named : approval.approvalId = target := aims _ rfl
  refine .leaves (returned_phase _) (before.early phase) ?_ ?_ ?_ rfl
    ⟨approval, member, named, decided, rfl⟩
  · rw [← named]
    exact ⟨h.normal approval member, approval, member, rfl, owner⟩
  · change s.waiters = []
    rw [before.waiters, unlisted]
    rfl
  · intro r held
    exact (before.lock r held).outside unlisted outside (fun _ _ decided => decided)

theorem Confirming.register
    (phase : call.phase = .requested approval created) (free : s.lock = none) :
    Confirming start target
      ((s.listed ⟨approval.approvalId, call.runId, 0⟩).setCall 0
        (fun call => { call with future := .pending, phase := .reviewing approval created }))
      { call with future := .pending, phase := .reviewing approval created } := by
  have names := h.holds approval (by rw [phase]; rfl)
  refine ⟨h.sound, h.normal, Core.setCall_single h.single _, by simp, ?_, ?_⟩
  · intro other holds
    cases holds
    exact names
  intro aims
  have before := h.handed aims
  have named : approval.approvalId = target := aims _ names.1
  have undecided := before.requested approval created phase
  have entered : call.phase ≠ .admitted := by rw [phase]; simp
  refine ⟨before.task, by simp, fun _ => before.known entered, fun _ => before.resumed entered, ?_, ?_,
    by simp, by simp, ?_, by simp, by simp, before.answer, by simp [CallPhase.approval]⟩
  · change s.waiters ++ [_] = _
    rw [before.waiters, phase, named]
    rfl
  · intro r held
    rw [show s.lock = some r from held] at free
    cases free
  · intro _ _ approved decided
    exact absurd decided (undecided approved)

theorem Confirming.registerTwice {other : Waiter} (phase : call.phase = .requested approval created)
    (known : s.waiterOf approval.approvalId = some other) :
    Confirming start target (s.setPhase 0 (.ended .turnedAway))
      { call with phase := .ended .turnedAway } := by
  refine h.strays (t := s.setPhase 0 (.ended .turnedAway)) rfl (Core.setCall_single h.single _)
    (by simp) rfl ?_
  intro aims
  have before := h.handed aims
  have named : approval.approvalId = target := aims _ (h.holds approval (by rw [phase]; rfl)).1
  rw [named, before.waiterOf, phase] at known
  cases known

theorem Confirming.goesOn {next : TaskApprovalRecord}
    (held : call.phase.approval = some approval) (before : call.phase.listed = true)
    (holds : phase.approval = some next) (same : next.approvalId = approval.approvalId)
    (after : phase.listed = true)
    (apart : s.lock = none ∨ ∀ other review, call.phase ≠ .deciding other review)
    (calm : Aims target call → ∀ other, phase ≠ .failing other)
    (unwinding : Aims target call → ∀ other answer, phase = .unwinding other answer →
      ∃ approved, answer = some approved ∧ Decided s.store target approved) :
    Confirming start target (s.setPhase 0 phase) { call with phase } where
  sound := h.sound
  normal := h.normal
  single := Core.setCall_single h.single _
  asked wrong := absurd wrong (listed_entered after)
  holds other found := by
    have equal : next = other := Option.some.inj (holds.symm.trans found)
    rw [← equal, same]
    exact h.holds approval held
  handed aims :=
    (h.handed aims).goesOn ⟨rfl, rfl, rfl⟩ before after apart (calm aims) (unwinding aims)

theorem Confirming.annotate {principalId approvalId reason : String}
    (listed : call.phase.listed = true)
    (taken : Tasks.step env s.store (.annotateApprovalReview principalId approvalId reason) =
      some store) :
    Confirming start target (s.withStore store) call := by
  have refines := step_refines h.sound.rooted taken
  have entered := listed_entered listed
  refine ⟨h.sound.kept taken, refines.normalApprovals h.sound.rooted h.normal, h.single, h.asked,
    h.holds, ?_⟩
  intro aims
  have before := h.handed aims
  have keeps : ∀ approvalId approved, Decided s.store approvalId approved →
      Decided store approvalId approved := fun _ _ decided => decided.kept h.sound.rooted refines
  have undoes : ∀ approved, Decided store target approved → Decided s.store target approved :=
    fun _ decided => decided.before_annotate h.sound.rooted refines before.task (before.known entered).2
  refine ⟨?_, fun wrong => absurd wrong entered, ?_, ?_, before.waiters, ?_, ?_, ?_, ?_, before.calm, ?_,
    ?_, before.isOver⟩
  · rcases before.task with running | waiting
    · exact Or.inl (running.annotate refines)
    · exact Or.inr (waiting.annotate refines)
  · intro _
    obtain ⟨normal, row, member, names, owner⟩ := before.known entered
    obtain ⟨row', member', carried⟩ := refines.approval_kept h.sound.rooted member
    exact ⟨normal, row', member', carried.approvalId.trans names, carried.taskId.trans owner⟩
  · intro _ approved decided
    exact (before.resumed entered approved (undoes approved decided)).annotate refines
  · intro r held
    obtain ⟨names, waiter, caller, written⟩ := before.lock r held
    refine ⟨names, waiter, caller, ?_⟩
    intro approval changed result
    obtain ⟨decided, woken⟩ := written approval changed result
    exact ⟨keeps _ _ decided, fun change => keeps _ _ (woken change)⟩
  · intro approval created requested approved decided
    exact before.requested approval created requested approved (undoes approved decided)
  · intro _
    obtain ⟨live, set⟩ := before.future listed
    exact ⟨live, fun approved result => keeps _ _ (set approved result)⟩
  · intro _ unset approved decided
    exact before.woken listed unset approved (undoes approved decided)
  · intro approval answer unwinding
    obtain ⟨approved, same, decided⟩ := before.unwinding approval answer unwinding
    exact ⟨approved, same, keeps _ _ decided⟩
  · intro approved answer
    exact keeps _ _ (before.answer approved answer)

theorem Confirming.release {approved : Bool}
    (phase : call.phase = .unwinding approval (some approved)) (free : s.lock = none) :
    Confirming start target ((s.forget 0 approval.approvalId).returned 0 approval.approvalId approved)
      (call.returned approval.approvalId approved) := by
  obtain ⟨entered, outside, nothing⟩ := returned_entered call approval.approvalId approved
  obtain ⟨names, -⟩ := h.holds approval (by rw [phase]; rfl)
  refine ⟨h.sound, h.normal, ?_, fun wrong => absurd wrong entered, ?_, ?_⟩
  · unfold Core.returned Core.setCall
    rw [show (s.forget 0 approval.approvalId).calls = [call] from h.single]
    rfl
  · intro other holds
    rw [nothing] at holds
    cases holds
  intro aims
  have named : approval.approvalId = target := aims _ rfl
  have before := h.handed (by
    intro approvalId holds
    rw [names, Option.some.injEq] at holds
    exact holds.symm.trans named)
  obtain ⟨value, same, decided⟩ := before.unwinding _ _ phase
  cases same
  have started : call.phase ≠ .admitted := by rw [phase]; simp
  refine .leaves (returned_phase _) (before.resumed started approved decided) (before.known started)
    ?_ ?_ rfl decided
  · change s.waiters.filter _ = []
    rw [before.waiters, phase, named]
    simp [CallPhase.listed]
  · intro r held
    rw [show s.lock = some r from held] at free
    cases free

theorem Confirming.releaseRaised (phase : call.phase = .unwinding approval none) :
    Confirming start target ((s.forget 0 approval.approvalId).setPhase 0 (.ended .turnedAway))
      { call with phase := .ended .turnedAway } := by
  refine h.strays (t := (s.forget 0 approval.approvalId).setPhase 0 (.ended .turnedAway)) rfl ?_
    (by simp) rfl ?_
  · unfold Core.setPhase Core.setCall
    rw [show (s.forget 0 approval.approvalId).calls = [call] from h.single]
    rfl
  · intro aims
    obtain ⟨approved, wrong, -⟩ := (h.handed aims).unwinding _ _ phase
    cases wrong

theorem Confirming.locked {caller : Option Nat} {principalId approvalId resolvedBy : String}
    {approved : Bool} (free : s.lock = none) (names : Aims target call → approvalId = target)
    (mine : Aims target call → caller = none ∨ caller = some 0 ∧
      ∃ approval review, call.phase = .deciding approval review) :
    Confirming start target (s.locked caller principalId approvalId approved resolvedBy) call := by
  refine ⟨h.sound, h.normal, h.single, h.asked, h.holds, ?_⟩
  intro aims
  have before := h.handed aims
  have named := names aims
  subst named
  refine ⟨before.task, before.early, before.known, before.resumed, before.waiters, ?_,
    before.requested, before.future, ?_, before.calm, before.unwinding, before.answer, before.isOver⟩
  · intro r held
    cases held
    refine ⟨rfl, before.waiterOf, mine aims, ?_⟩
    intro approval changed wrong
    cases wrong
  · intro listed unset approved' decided
    obtain ⟨r, -, held, -⟩ := before.woken listed unset approved' decided
    rw [free] at held
    cases held

theorem Confirming.refused {r : Resolving} (held : s.lock = some r) (unwritten : r.written = none) :
    Confirming start target s.unlocked call := by
  refine ⟨h.sound, h.normal, h.single, h.asked, h.holds, ?_⟩
  intro aims
  have before := h.handed aims
  refine ⟨before.task, before.early, before.known, before.resumed, before.waiters, ?_,
    before.requested, before.future, ?_, before.calm, before.unwinding, before.answer, before.isOver⟩
  · intro r' held'
    cases held'
  · intro listed unset approved decided
    obtain ⟨r', approval, held', written⟩ := before.woken listed unset approved decided
    rw [held, Option.some.injEq] at held'
    rw [held', written] at unwritten
    cases unwritten

end

end Handed

end Knoa.Tasks
