import Knoa.Tasks.ToolCalls
import Knoa.Tasks.Invariants

/-!
# What one step of a Core does

`Happens` lists the steps of a Core with the state each leaves.
-/
namespace Knoa.Tasks
open Transaction (commit)

section Calls

variable {env : Env} {s s' : Store} {now : Time} {principalId taskId : String}

theorem requestApproval_taken {approvalIds : Nat → String} {request : ApprovalRequest}
    {result : TaskApprovalRecord × TaskEvent × Bool}
    (h : requestApproval env now approvalIds principalId taskId request s = (.ok result, s')) :
    Tasks.step env s (.requestApproval now approvalIds principalId taskId request) = some s' :=
  step_of_outcome rfl h

theorem annotateApprovalReview_taken {approvalId reason : String}
    {result : TaskApprovalRecord × TaskEvent}
    (h : commit (annotateApprovalReview env principalId approvalId reason) s = (.ok result, s')) :
    Tasks.step env s (.annotateApprovalReview principalId approvalId reason) = some s' :=
  step_of_outcome rfl h

variable (env) in
theorem beginToolStep_taken {request : ToolStepRequest} {result : TaskToolStepRecord × Bool}
    (h : commit (beginToolStep now principalId taskId request) s = (.ok result, s')) :
    Tasks.step env s (.beginToolStep now principalId taskId request) = some s' :=
  step_of_outcome rfl h

theorem resolveApproval_taken {approvalId resolvedBy : String} {approved : Bool}
    {resumeState : TaskState} {result : TaskApprovalRecord × Option TaskEvent × Bool}
    (h : commit (resolveApproval env now principalId approvalId approved resumeState resolvedBy) s =
      (.ok result, s')) :
    Tasks.step env s (.resolveApproval now principalId approvalId approved resumeState resolvedBy) =
      some s' :=
  step_of_outcome rfl h

end Calls

namespace Core

inductive Happens (env : Env) (s : Core) : Act → Core → Prop
  | repository {op : Op} {store : Store} (other : op.byToolCalls = false)
      (taken : Tasks.step env s.store op = some store) :
      Happens env s (.repository op) (s.withStore store)
  | configureReview {settings : ReviewSettings} :
      Happens env s (.configureReview settings) { s with settings }
  | propose {principalId runId : String} {proposal : ProposedToolCall} {effect risk : String}
      {needsConfirmation : Bool} {call : ToolCall} (fresh : call.phase = .admitted)
      (unasked : call.approvalId = none) (open_ : call.future = .pending)
      (unanswered : call.answer = none) :
      Happens env s (.propose principalId runId proposal effect risk needsConfirmation)
        { s with calls := s.calls ++ [call] }
  | requested {c : Nat} {call : ToolCall} {now : Time} {approvalIds : Nat → String}
      {approval : TaskApprovalRecord} {event : TaskEvent} {created : Bool} {store : Store}
      (found : s.calls[c]? = some call) (phase : call.phase = .admitted)
      (returned : requestApproval env now approvalIds call.principalId call.runId
        (call.approvalRequest env) s.store = (.ok (approval, event, created), store))
      (pending : approval.state = .pending) :
      Happens env s (.request c now approvalIds) ((s.withStore store).setCall c (fun call =>
        { call with approvalId := some approval.approvalId, phase := .requested approval created }))
  | answered {c : Nat} {call : ToolCall} {now : Time} {approvalIds : Nat → String}
      {approval : TaskApprovalRecord} {event : TaskEvent} {created : Bool} {store : Store}
      (found : s.calls[c]? = some call) (phase : call.phase = .admitted)
      (returned : requestApproval env now approvalIds call.principalId call.runId
        (call.approvalRequest env) s.store = (.ok (approval, event, created), store))
      (decided : approval.state ≠ .pending) :
      Happens env s (.request c now approvalIds)
        ((s.withStore store).returned c approval.approvalId (approval.state == .approved))
  | registerTwice {c : Nat} {call : ToolCall} {approval : TaskApprovalRecord} {created : Bool}
      {other : Waiter} (found : s.calls[c]? = some call)
      (phase : call.phase = .requested approval created) (free : s.lock = none)
      (known : s.waiterOf approval.approvalId = some other) :
      Happens env s (.register c) (s.setPhase c (.ended .turnedAway))
  | register {c : Nat} {call : ToolCall} {approval : TaskApprovalRecord} {created : Bool}
      (found : s.calls[c]? = some call) (phase : call.phase = .requested approval created)
      (free : s.lock = none) (absent : s.waiterOf approval.approvalId = none) :
      Happens env s (.register c)
        ((s.listed ⟨approval.approvalId, call.runId, c⟩).setCall c
          (fun call => { call with future := .pending, phase := .reviewing approval created }))
  | unreviewed {c : Nat} {call : ToolCall} {answer : Option ApprovalReview}
      {approval : TaskApprovalRecord} {created : Bool} (found : s.calls[c]? = some call)
      (phase : call.phase = .reviewing approval created) :
      Happens env s (.review c answer) (s.setPhase c (.publishing approval none))
  | reviewed {c : Nat} {call : ToolCall} {review : ApprovalReview} {truncated : Bool}
      {approval annotated : TaskApprovalRecord} {event : TaskEvent} {created : Bool} {store : Store}
      (found : s.calls[c]? = some call) (phase : call.phase = .reviewing approval created)
      (returned : commit (annotateApprovalReview env call.principalId approval.approvalId
        (reviewNote call.reason review)) s.store = (.ok (annotated, event), store)) :
      Happens env s (.review c (some review))
        ((s.withStore store).setPhase c (.publishing annotated (some (review, truncated))))
  | publish {c : Nat} {call : ToolCall} {approval : TaskApprovalRecord}
      {review : Option (ApprovalReview × Bool)} (found : s.calls[c]? = some call)
      (phase : call.phase = .publishing approval review) :
      Happens env s (.publish c) (s.setPhase c (.waiting approval))
  | publishReviewed {c : Nat} {call : ToolCall} {approval : TaskApprovalRecord}
      {review : ApprovalReview} {truncated : Bool} (found : s.calls[c]? = some call)
      (phase : call.phase = .publishing approval (some (review, truncated))) :
      Happens env s (.publish c) (s.setPhase c (.deciding approval review))
  | wake {c : Nat} {call : ToolCall} {approval : TaskApprovalRecord} {value : Bool}
      (found : s.calls[c]? = some call) (phase : call.phase = .waiting approval)
      (future : call.future = .result value) :
      Happens env s (.wake c) (s.setPhase c (.unwinding approval (some value)))
  | wakeCancelled {c : Nat} {call : ToolCall} {approval : TaskApprovalRecord}
      (found : s.calls[c]? = some call) (phase : call.phase = .waiting approval)
      (future : call.future = .cancelled) : Happens env s (.wake c) (s.raised c approval)
  | release {c : Nat} {call : ToolCall} {approval : TaskApprovalRecord} {approved : Bool}
      (found : s.calls[c]? = some call) (phase : call.phase = .unwinding approval (some approved))
      (free : s.lock = none) :
      Happens env s (.release c) ((s.forget c approval.approvalId).returned c approval.approvalId
        approved)
  | releaseRaised {c : Nat} {call : ToolCall} {approval : TaskApprovalRecord}
      (found : s.calls[c]? = some call) (phase : call.phase = .unwinding approval none)
      (free : s.lock = none) :
      Happens env s (.release c) ((s.forget c approval.approvalId).setPhase c (.ended .turnedAway))
  | begin {c : Nat} {call : ToolCall} {now : Time} {record : TaskToolStepRecord} {store : Store}
      (found : s.calls[c]? = some call) (may : call.mayCommit = true)
      (returned : commit (beginToolStep now call.principalId call.runId (call.stepRequest env))
        s.store = (.ok (record, true), store)) :
      Happens env s (.beginCommit c now)
        ((s.begun store ⟨c, call.approvalId, call.stepId env⟩).setPhase c .committing)
  | replay {c : Nat} {call : ToolCall} {now : Time} {record : TaskToolStepRecord} {store : Store}
      {outcome : CallOutcome} (found : s.calls[c]? = some call) (may : call.mayCommit = true)
      (returned : commit (beginToolStep now call.principalId call.runId (call.stepRequest env))
        s.store = (.ok (record, false), store)) :
      Happens env s (.beginCommit c now) ((s.withStore store).setPhase c (.ended outcome))
  | execute {c : Nat} {call : ToolCall} {completed : Bool} {result : JsonText}
      {state : TaskToolStepState} (found : s.calls[c]? = some call)
      (phase : call.phase = .committing) :
      Happens env s (.execute c completed result)
        ((s.executed ⟨c, call.approvalId, call.stepId env⟩).setPhase c (.ran state result))
  | finish {c : Nat} {call : ToolCall} {now : Time} {state : TaskToolStepState} {result : JsonText}
      {store : Store} (found : s.calls[c]? = some call) (phase : call.phase = .ran state result)
      (taken : Tasks.step env s.store (.finishToolStep now call.principalId call.runId
        (call.stepId env) state result) = some store) :
      Happens env s (.finishCommit c now) ((s.withStore store).setPhase c (.ended (.finished result)))
  | leave {c : Nat} {call : ToolCall} (found : s.calls[c]? = some call)
      (outside : call.phase.inTry = false) :
      Happens env s (.leave c) (s.setPhase c (.ended .turnedAway))
  | interrupt {c : Nat} {call : ToolCall} {approval : TaskApprovalRecord}
      (found : s.calls[c]? = some call) (inside : call.insideTry = some approval)
      (unheld : s.lock.any (fun r => r.caller == some c) = false) :
      Happens env s (.interrupt c) (s.raised c approval)
  | interruptWaiting {c : Nat} {call : ToolCall} {approval : TaskApprovalRecord}
      (found : s.calls[c]? = some call) (phase : call.phase = .waiting approval) :
      Happens env s (.interrupt c) ((s.settle c .cancelled).raised c approval)
  | interruptFailing {c : Nat} {call : ToolCall} {approval : TaskApprovalRecord}
      (found : s.calls[c]? = some call) (phase : call.phase = .failing approval)
      (unheld : s.lock.any (fun r => r.caller == some c) = false) :
      Happens env s (.interrupt c) (s.setPhase c (.unwinding approval none))
  | resolve {principalId approvalId : String} {approved : Bool} {resolvedBy : String}
      (free : s.lock = none) :
      Happens env s (.resolve principalId approvalId approved resolvedBy)
        (s.locked none principalId approvalId approved resolvedBy)
  | resolveReview {c : Nat} {call : ToolCall} {approval : TaskApprovalRecord}
      {review : ApprovalReview} (found : s.calls[c]? = some call)
      (phase : call.phase = .deciding approval review) (free : s.lock = none) :
      Happens env s (.resolveWithin c)
        (s.locked (some c) call.principalId approval.approvalId (review.decision == .approve)
          ("approval_reviewer:" ++ review.reviewerId))
  | resolveFailed {c : Nat} {call : ToolCall} {approval : TaskApprovalRecord}
      (found : s.calls[c]? = some call) (phase : call.phase = .failing approval)
      (free : s.lock = none) :
      Happens env s (.resolveWithin c)
        (s.locked (some c) call.principalId approval.approvalId false "system:confirmation_error")
  | write {now : Time} {r : Resolving} {approval : TaskApprovalRecord} {event : Option TaskEvent}
      {changed : Bool} {store : Store} (held : s.lock = some r) (unwritten : r.written = none)
      (returned : commit (resolveApproval env now r.principalId r.approvalId r.approved
        r.resumeState r.resolvedBy) s.store = (.ok (approval, event, changed), store)) :
      Happens env s (.resolveWrite now)
        { s with
          store, lock := some { r with written := some (approval, changed) },
          decisions := if changed then
            s.decisions ++ [⟨approval.approvalId, r.approved, s.decider r⟩] else s.decisions }
  | writeRefused {now : Time} {r : Resolving} (held : s.lock = some r)
      (unwritten : r.written = none)
      (refused : Tasks.step env s.store (.resolveApproval now r.principalId r.approvalId r.approved
        r.resumeState r.resolvedBy) = none) :
      Happens env s (.resolveWrite now) (s.unlocked.resolveRaised r.caller)
  | resolveReturn {r : Resolving} {approval : TaskApprovalRecord} {changed : Bool}
      (held : s.lock = some r) (written : r.written = some (approval, changed)) :
      Happens env s .resolveReturn (s.exited r approval changed)
  | cancelTask {taskId : String} (free : s.lock = none) :
      Happens env s (.cancelTask taskId)
        (s.dismiss (fun waiter => waiter.taskId != taskId) (.result false))
  | close (free : s.lock = none) : Happens env s .close (s.dismiss (fun _ => false) .cancelled)
  | crash : Happens env s .crash s.crash

variable {c : Nat}

theorem withCall_some {s s' : Core} {f : ToolCall → Option Core} (h : s.withCall c f = some s') :
    ∃ call, s.calls[c]? = some call ∧ f call = some s' :=
  Option.bind_eq_some_iff.mp h

theorem happens {env : Env} {s s' : Core} {act : Act} (h : s.step env act = some s') :
    Happens env s act s' := by
  cases act with
  | repository op =>
    simp only [step] at h
    split at h
    · cases h
    · rename_i other
      obtain ⟨store, taken, rfl⟩ := Option.map_eq_some_iff.mp h
      exact .repository (Bool.eq_false_iff.mpr other) taken
  | configureReview settings =>
    cases h
    exact .configureReview
  | propose principalId runId proposal effect risk needsConfirmation =>
    cases h
    exact .propose rfl rfl rfl rfl
  | request c now approvalIds =>
    obtain ⟨call, found, h⟩ := withCall_some h
    simp only [request] at h
    split at h
    · rename_i ready
      split at h
      · rename_i approval event created store returned
        split at h
        · rename_i pending
          cases h
          exact .requested found ready.1 returned pending
        · rename_i decided
          cases h
          exact .answered found ready.1 returned decided
      · cases h
    · cases h
  | register c =>
    obtain ⟨call, found, h⟩ := withCall_some h
    simp only [register] at h
    split at h
    · rename_i approval created phase
      split at h
      · rename_i free
        split at h
        · rename_i other known
          cases h
          exact .registerTwice found phase free known
        · rename_i absent
          cases h
          exact .register found phase free absent
      · cases h
    · cases h
  | review c answer =>
    obtain ⟨call, found, h⟩ := withCall_some h
    simp only [review] at h
    split at h
    · rename_i approval created phase
      split at h
      · cases h
        exact .unreviewed found phase
      · split at h
        · split at h
          · cases h
            exact .unreviewed found phase
          · split at h
            · cases h
              exact .unreviewed found phase
            · rename_i annotated event store returned
              cases h
              exact .reviewed found phase returned
        · cases h
    · cases h
  | publish c =>
    obtain ⟨call, found, h⟩ := withCall_some h
    simp only [publish] at h
    split at h
    · rename_i approval review truncated phase
      cases h
      split
      · exact .publishReviewed found phase
      · exact .publish found phase
    · rename_i approval phase
      cases h
      exact .publish found phase
    · cases h
  | wake c =>
    obtain ⟨call, found, h⟩ := withCall_some h
    simp only [wake] at h
    split at h
    · rename_i approval value phase future
      cases h
      exact .wake found phase future
    · rename_i approval phase future
      cases h
      exact .wakeCancelled found phase future
    · cases h
  | release c =>
    obtain ⟨call, found, h⟩ := withCall_some h
    simp only [release] at h
    split at h
    · rename_i approval answer phase
      split at h
      · rename_i free
        split at h
        · cases h
          exact .release found phase free
        · cases h
          exact .releaseRaised found phase free
      · cases h
    · cases h
  | beginCommit c now =>
    obtain ⟨call, found, h⟩ := withCall_some h
    simp only [beginCommit] at h
    split at h
    · rename_i may
      split at h
      · rename_i record store returned
        cases h
        exact .begin found may returned
      · rename_i record store returned
        cases h
        exact .replay found may returned
      · cases h
    · cases h
  | execute c completed result =>
    obtain ⟨call, found, h⟩ := withCall_some h
    simp only [execute] at h
    split at h <;> cases h
    rename_i phase
    exact .execute found phase
  | finishCommit c now =>
    obtain ⟨call, found, h⟩ := withCall_some h
    simp only [finishCommit] at h
    split at h
    · rename_i state result phase
      split at h <;> cases h
      rename_i store returned
      exact .finish found phase (step_of_outcome rfl returned)
    · cases h
  | leave c =>
    obtain ⟨call, found, h⟩ := withCall_some h
    simp only [leave] at h
    split at h
    · rename_i phase
      cases h
      exact .leave found (by rw [phase]; rfl)
    · rename_i phase
      cases h
      exact .leave found (by rw [phase]; rfl)
    · rename_i phase
      cases h
      exact .leave found (by rw [phase]; rfl)
    · rename_i phase
      cases h
      exact .leave found (by rw [phase]; rfl)
    · rename_i phase
      cases h
      exact .leave found (by rw [phase]; rfl)
    · rename_i phase
      split at h <;> cases h
      exact .leave found (by rw [phase]; rfl)
    · cases h
  | interrupt c =>
    obtain ⟨call, found, h⟩ := withCall_some h
    simp only [interrupt] at h
    split at h
    · cases h
    · rename_i held
      have unheld := Bool.eq_false_iff.mpr held
      split at h
      · rename_i approval inside
        cases h
        exact .interrupt found inside unheld
      · rename_i approval _ phase
        cases h
        exact .interruptWaiting found phase
      · rename_i approval _ phase
        cases h
        exact .interruptFailing found phase unheld
      · cases h
  | resolve principalId approvalId approved resolvedBy =>
    simp only [step, acquire] at h
    split at h <;> cases h
    rename_i free
    exact .resolve free
  | resolveWithin c =>
    obtain ⟨call, found, h⟩ := withCall_some h
    simp only [resolveWithin, acquire] at h
    split at h
    · rename_i approval review phase
      split at h <;> cases h
      rename_i free
      exact .resolveReview found phase free
    · rename_i approval phase
      split at h <;> cases h
      rename_i free
      exact .resolveFailed found phase free
    · cases h
  | resolveWrite now =>
    simp only [step, resolveWrite] at h
    split at h
    · rename_i r held
      split at h
      · rename_i unwritten
        split at h
        · rename_i approval event changed store returned
          cases h
          exact .write held unwritten returned
        · rename_i error store raised
          cases h
          exact .writeRefused held unwritten (step_of_error rfl raised)
      · cases h
    · cases h
  | resolveReturn =>
    simp only [step, resolveReturn] at h
    split at h
    · rename_i r held
      obtain ⟨⟨approval, changed⟩, written, rfl⟩ := Option.map_eq_some_iff.mp h
      exact .resolveReturn held written
    · cases h
  | cancelTask taskId =>
    simp only [step, cancelTask] at h
    split at h <;> cases h
    rename_i free
    exact .cancelTask free
  | close =>
    simp only [step, close] at h
    split at h <;> cases h
    rename_i free
    exact .close free
  | crash =>
    cases h
    exact .crash

section Calls

@[simp] theorem settled_phase (future : CallFuture) (call : ToolCall) :
    (call.settled future).phase = call.phase := by
  unfold ToolCall.settled
  split <;> rfl

@[simp] theorem settled_approvalId (future : CallFuture) (call : ToolCall) :
    (call.settled future).approvalId = call.approvalId := by
  unfold ToolCall.settled
  split <;> rfl

variable {s : Core}

theorem waiterOf_some {approvalId : String} {waiter : Waiter}
    (h : s.waiterOf approvalId = some waiter) :
    waiter ∈ s.waiters ∧ waiter.approvalId = approvalId := by
  have names := List.find?_some h
  exact ⟨List.mem_of_find?_eq_some h, beq_iff_eq.mp names⟩

theorem setCall_calls {c' : Nat} {f : ToolCall → ToolCall} {call' : ToolCall}
    (h : (s.setCall c f).calls[c']? = some call') :
    (c' = c ∧ ∃ call, s.calls[c]? = some call ∧ call' = f call) ∨
      (c' ≠ c ∧ s.calls[c']? = some call') := by
  by_cases same : c' = c
  · subst same
    rw [setCall, List.getElem?_modify_eq] at h
    obtain ⟨call, found, rfl⟩ := Option.map_eq_some_iff.mp h
    exact Or.inl ⟨rfl, call, found, rfl⟩
  · rw [setCall, List.getElem?_modify_ne f s.calls (Ne.symm same)] at h
    exact Or.inr ⟨same, h⟩

theorem dismiss_calls {keep : Waiter → Bool} {future : CallFuture} {call' : ToolCall}
    (h : (s.dismiss keep future).calls[c]? = some call') : ∃ call, s.calls[c]? = some call ∧
      (call' = call ∨
        (call' = call.settled future ∧ ∃ waiter ∈ s.waiters, keep waiter = false ∧
          waiter.call = c)) := by
  rw [dismiss, List.getElem?_mapIdx] at h
  obtain ⟨call, found, rfl⟩ := Option.map_eq_some_iff.mp h
  refine ⟨call, found, ?_⟩
  split
  · rename_i dropped
    obtain ⟨waiter, member, dropped⟩ := List.any_eq_true.mp dropped
    simp only [Bool.and_eq_true, Bool.not_eq_true', beq_iff_eq] at dropped
    exact Or.inr ⟨rfl, waiter, member, dropped.1, dropped.2⟩
  · exact Or.inl rfl

theorem resolveRaised_eq (caller : Option Nat) :
    s.resolveRaised caller = s ∨ ∃ c phase, s.resolveRaised caller = s.setPhase c phase := by
  unfold resolveRaised
  split
  · exact Or.inl rfl
  · split
    · exact Or.inr ⟨_, _, rfl⟩
    · exact Or.inr ⟨_, _, rfl⟩
    · exact Or.inl rfl

theorem woken_eq (r : Resolving) (changed : Bool) :
    s.woken r changed = s ∨ ∃ c future, s.woken r changed = s.settle c future := by
  unfold woken
  split
  · split
    · exact Or.inr ⟨_, _, rfl⟩
    · exact Or.inl rfl
  · exact Or.inl rfl

theorem exited_eq (r : Resolving) (approval : TaskApprovalRecord) (changed : Bool) :
    s.exited r approval changed = (s.woken r changed).unlocked ∨
      ∃ c phase, s.exited r approval changed = (s.woken r changed).unlocked.setPhase c phase := by
  unfold exited
  split
  · exact Or.inl rfl
  · split
    · exact Or.inr ⟨_, _, rfl⟩
    · exact Or.inr ⟨_, _, rfl⟩
    · exact Or.inl rfl

/-- The calls of `t` are those of `s`, some futures set. -/
structure Settled (s t : Core) : Prop where
  length : t.calls.length = s.calls.length
  calls : ∀ (c : Nat) (call' : ToolCall), t.calls[c]? = some call' →
    ∃ call : ToolCall, s.calls[c]? = some call ∧
    (call' = call ∨ ∃ future, call' = call.settled future)

theorem settled_refl (s : Core) :
    Settled s s := ⟨rfl, fun _ call' found => ⟨call', found, Or.inl rfl⟩⟩

theorem settled_settle (c : Nat) (future : CallFuture) : Settled s (s.settle c future) where
  length := List.length_modify ..
  calls c' call' found := by
    rcases setCall_calls found with ⟨rfl, call, known, rfl⟩ | ⟨-, known⟩
    · exact ⟨call, known, Or.inr ⟨future, rfl⟩⟩
    · exact ⟨call', known, Or.inl rfl⟩

theorem settled_woken (r : Resolving) (changed : Bool) : Settled s (s.woken r changed) := by
  unfold woken
  split
  · split
    · exact settled_settle _ _
    · exact settled_refl s
  · exact settled_refl s

theorem settled_dismiss (keep : Waiter → Bool) (future : CallFuture) :
    Settled s (s.dismiss keep future) where
  length := List.length_mapIdx
  calls c call' found := by
    obtain ⟨call, known, same | ⟨set, -⟩⟩ := dismiss_calls found
    · exact ⟨call, known, Or.inl same⟩
    · exact ⟨call, known, Or.inr ⟨future, set⟩⟩

theorem phaseOf_settled {t : Core} (settled : Settled s t) {phase : CallPhase}
    (stands : s.phaseOf c = some phase) : t.phaseOf c = some phase := by
  obtain ⟨call, known, rfl⟩ := Option.map_eq_some_iff.mp stands
  have inside : c < t.calls.length := by
    rw [settled.length]
    exact (List.getElem?_eq_some_iff.mp known).1
  obtain ⟨old, before, same⟩ := settled.calls c _ (List.getElem?_eq_getElem inside)
  rw [known] at before
  cases before
  rw [phaseOf, List.getElem?_eq_getElem inside, Option.map_some]
  congr 1
  rcases same with same | ⟨future, set⟩
  · rw [same]
  · rw [set, settled_phase]

/-- Every field but the calls and the lock stands. -/
structure SameRest (s t : Core) : Prop where
  store : t.store = s.store
  settings : t.settings = s.settings
  waiters : t.waiters = s.waiters
  decisions : t.decisions = s.decisions
  commits : t.commits = s.commits
  executions : t.executions = s.executions
  length : t.calls.length = s.calls.length

theorem sameRest_resolveRaised (caller : Option Nat) : SameRest s (s.resolveRaised caller) := by
  rcases resolveRaised_eq (s := s) caller with same | ⟨c, phase, set⟩
  · rw [same]
    exact ⟨rfl, rfl, rfl, rfl, rfl, rfl, rfl⟩
  · rw [set]
    exact ⟨rfl, rfl, rfl, rfl, rfl, rfl, List.length_modify ..⟩

theorem sameRest_woken (r : Resolving) (changed : Bool) : SameRest s (s.woken r changed) := by
  rcases woken_eq (s := s) r changed with same | ⟨c, future, set⟩
  · rw [same]
    exact ⟨rfl, rfl, rfl, rfl, rfl, rfl, rfl⟩
  · rw [set]
    exact ⟨rfl, rfl, rfl, rfl, rfl, rfl, List.length_modify ..⟩

theorem sameRest_exited (r : Resolving) (approval : TaskApprovalRecord) (changed : Bool) :
    SameRest s (s.exited r approval changed) := by
  obtain ⟨store, settings, waiters, decisions, commits, executions, length⟩ :=
    sameRest_woken (s := s) r changed
  rcases exited_eq (s := s) r approval changed with same | ⟨c, phase, set⟩
  · rw [same]
    exact ⟨store, settings, waiters, decisions, commits, executions, length⟩
  · rw [set]
    exact ⟨store, settings, waiters, decisions, commits, executions,
      (List.length_modify ..).trans length⟩

end Calls

section OneCall

variable {s t : Core} {call : ToolCall}

theorem settled_eq (future : CallFuture) (call : ToolCall) : call.settled future =
      { call with future := if call.future = .pending then future else call.future } := by
  unfold ToolCall.settled
  split <;> rfl

theorem setCall_single (single : s.calls = [call]) (f : ToolCall → ToolCall) :
    (s.setCall 0 f).calls = [f call] := by
  unfold Core.setCall
  rw [single]
  rfl

theorem phaseOf_single (single : s.calls = [call]) {phase : CallPhase}
    (stands : s.phaseOf c = some phase) : c = 0 ∧ call.phase = phase := by
  obtain ⟨other, found, same⟩ := Option.map_eq_some_iff.mp stands
  have zero : c = 0 := by
    have inside := (List.getElem?_eq_some_iff.mp found).1
    rw [single] at inside
    simpa using inside
  subst zero
  rw [single] at found
  cases found
  exact ⟨rfl, same⟩

theorem settled_single (settled : Settled s t) (single : s.calls = [call]) :
    ∃ future, t.calls = [{ call with future }] := by
  have one := settled.length
  rw [single] at one
  obtain ⟨call', calls⟩ := List.length_eq_one_iff.mp one
  obtain ⟨old, found, same | ⟨future, set⟩⟩ := settled.calls 0 call' (by rw [calls]; rfl)
  · rw [single] at found
    cases found
    exact ⟨call.future, by rw [calls, same]⟩
  · rw [single] at found
    cases found
    rw [settled_eq] at set
    exact ⟨_, by rw [calls, set]⟩

end OneCall

end Core

end Knoa.Tasks
