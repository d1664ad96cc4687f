import Knoa.Tasks.Operations

/-!
# Tool calls of a running Core

`DurableApprovalService`, `DurableToolCommitService` and `ToolStep.execute` as the coroutines of
one process. A coroutine stands where the source awaits; a repository call is one step; the lock is
held from the read of the waiter map in `resolve` to its exit.
-/
namespace Knoa.Tasks
open Transaction (Body commit)

structure ProposedToolCall where
  callId : String
  name : String
  arguments : JsonText
  deriving DecidableEq, Repr

def taskToolStepId (env : Env) (taskId : String) (call : ProposedToolCall) : String :=
  env.digest (taskId ++ "\x00" ++ call.callId ++ "\x00" ++ call.name ++ "\x00" ++
    call.arguments.text)

def taskApprovalActionId (env : Env) (taskId : String) (call : ProposedToolCall) : String :=
  env.digest (taskId ++ "\x00approval\x00" ++ call.name ++ "\x00" ++ call.arguments.text)

inductive ApprovalReviewMode
  | off | suggest | auto
  deriving DecidableEq, Repr

inductive ApprovalReviewDecision
  | approve | deny | escalate
  deriving DecidableEq, Repr

def ApprovalReviewDecision.value : ApprovalReviewDecision → String
  | .approve => "approve"
  | .deny => "deny"
  | .escalate => "escalate"

/-- `ApprovalReviewResult`. -/
structure ApprovalReview where
  decision : ApprovalReviewDecision
  reason : String := ""
  ruleIds : List String := []
  reviewerId : String := "reviewer_agent"
  model : String := ""
  deriving DecidableEq, Repr

/-- The arguments of `configure_review`. -/
structure ReviewSettings where
  reviewer : Bool := false
  mode : ApprovalReviewMode := .off
  autoMaxRisk : String := "medium"
  deriving DecidableEq, Repr

/-- The note `confirm` writes over the reason of a reviewed approval. -/
def reviewNote (reason : String) (review : ApprovalReview) : String :=
  takeChars (reason ++ "; reviewer[" ++ review.reviewerId ++ "/" ++ review.model ++ "]=" ++
    review.decision.value ++ ": " ++ review.reason ++
    (if ",".intercalate review.ruleIds = "" then "" else
      "; rules=" ++ ",".intercalate review.ruleIds)) 2000

/-- `reason.partition(":")[2] or "high"`. -/
def riskOf (reason : String) : String :=
  let risk := String.ofList ((reason.toList.dropWhile (fun c => c != ':')).drop 1)
  if risk = "" then "high" else risk

/-- `_may_auto_resolve`. -/
def mayAutoResolve (settings : ReviewSettings) (decision : ApprovalReviewDecision)
    (reason : String) (truncated : Bool) : Bool :=
  !truncated && settings.mode == .auto && decision != .escalate &&
    (if settings.autoMaxRisk = "low" then riskOf reason == "low"
      else riskOf reason == "low" || riskOf reason == "medium")

inductive CallFuture
  | pending
  | result (value : Bool)
  | cancelled
  deriving DecidableEq, Repr

/-- An entry of the waiter map; the call stands for its future. -/
structure Waiter where
  approvalId : String
  taskId : String
  call : Nat
  deriving DecidableEq, Repr

inductive CallOutcome
  | turnedAway | denied | outcomeUnknown
  | replayed (result : JsonText)
  | finished (result : JsonText)
  deriving DecidableEq, Repr

/-- Where a call stands. `requested` to `unwinding` are inside `confirm`. -/
inductive CallPhase
  | admitted
  | requested (approval : TaskApprovalRecord) (created : Bool)
  | reviewing (approval : TaskApprovalRecord) (created : Bool)
  | publishing (approval : TaskApprovalRecord) (review : Option (ApprovalReview × Bool))
  | waiting (approval : TaskApprovalRecord)
  | deciding (approval : TaskApprovalRecord) (review : ApprovalReview)
  | failing (approval : TaskApprovalRecord)
  | unwinding (approval : TaskApprovalRecord) (answer : Option Bool)
  | confirmed
  | committing
  | ran (state : TaskToolStepState) (result : JsonText)
  | ended (outcome : CallOutcome)
  deriving DecidableEq, Repr

/-- One `ToolStep.execute` past the gates before confirmation. -/
structure ToolCall where
  principalId : String
  runId : String
  proposal : ProposedToolCall
  effect : String
  risk : String
  needsConfirmation : Bool
  phase : CallPhase := .admitted
  approvalId : Option String := none
  future : CallFuture := .pending
  answer : Option Bool := none
  deriving DecidableEq, Repr

/-- The reason `ToolStep.execute` confirms under. -/
def ToolCall.reason (call : ToolCall) : String := call.effect ++ ":" ++ call.risk

def ToolCall.stepId (env : Env) (call : ToolCall) : String :=
  taskToolStepId env call.runId call.proposal

/-- What `confirm` asks the repository for. -/
def ToolCall.approvalRequest (env : Env) (call : ToolCall) : ApprovalRequest where
  toolStepId := taskApprovalActionId env call.runId call.proposal
  toolCallId := call.proposal.callId
  toolName := call.proposal.name
  arguments := call.proposal.arguments
  reason := call.reason

/-- What `DurableToolCommitService.begin` asks the repository for. -/
def ToolCall.stepRequest (env : Env) (call : ToolCall) : ToolStepRequest where
  toolStepId := call.stepId env
  toolCallId := call.proposal.callId
  toolName := call.proposal.name
  arguments := call.proposal.arguments
  effect := call.effect
  risk := call.risk

def ToolCall.settled (future : CallFuture) (call : ToolCall) : ToolCall :=
  if call.future = .pending then { call with future } else call

/-- Inside the `try` of `confirm` or its handler. -/
def CallPhase.inTry : CallPhase → Bool
  | .reviewing .. | .publishing .. | .waiting _ | .deciding .. | .failing _ => true
  | _ => false

/-- The approval a call inside `confirm` holds. -/
def CallPhase.approval : CallPhase → Option TaskApprovalRecord
  | .requested approval _ | .reviewing approval _ | .publishing approval _ | .waiting approval
  | .deciding approval _ | .failing approval | .unwinding approval _ => some approval
  | _ => none

/-- The approval of a call inside the `try` of `confirm` and not at its wait. -/
def ToolCall.insideTry (call : ToolCall) : Option TaskApprovalRecord :=
  match call.phase with
  | .reviewing approval _ | .publishing approval _ | .deciding approval _ => some approval
  | _ => none

def ToolCall.mayCommit (call : ToolCall) : Bool :=
  call.phase == .confirmed || (call.phase == .admitted && !call.needsConfirmation)

/-- The `resolve` that holds the lock: made by a client, or inside the `confirm`
of a call. `waiter` is what it read in the map, `written` what the repository
returned. -/
structure Resolving where
  caller : Option Nat
  principalId : String
  approvalId : String
  approved : Bool
  resolvedBy : String
  waiter : Option Waiter
  written : Option (TaskApprovalRecord × Bool) := none
  deriving DecidableEq, Repr

def Resolving.resumeState (r : Resolving) : TaskState :=
  if r.waiter.isSome then .running else .queued

/-- Who made a recorded decision: a client, the configured reviewer, or the
error handler of `confirm`. -/
inductive Decider
  | client | reviewer | handler
  deriving DecidableEq, Repr

structure Decision where
  approvalId : String
  approved : Bool
  decider : Decider
  deriving DecidableEq, Repr

structure Commit where
  call : Nat
  approvalId : Option String
  toolStepId : String
  deriving DecidableEq, Repr

/-- The process and its database. `decisions`, `commits` and `executions` record
what happened: decisions written, steps begun, calls the registry ran. -/
structure Core where
  store : Store
  settings : ReviewSettings := {}
  waiters : List Waiter := []
  lock : Option Resolving := none
  calls : List ToolCall := []
  decisions : List Decision := []
  commits : List Commit := []
  executions : List Commit := []

/-- The repository calls that only the services of this module make. -/
def Op.byToolCalls : Op → Bool
  | .requestApproval .. | .resolveApproval .. | .annotateApprovalReview .. | .beginToolStep ..
  | .finishToolStep .. => true
  | _ => false

namespace Core

def withStore (s : Core) (store : Store) : Core := { s with store }

def setCall (s : Core) (c : Nat) (f : ToolCall → ToolCall) : Core :=
  { s with calls := s.calls.modify c f }

def setPhase (s : Core) (c : Nat) (phase : CallPhase) : Core :=
  s.setCall c (fun call => { call with phase })

def listed (s : Core) (waiter : Waiter) : Core := { s with waiters := s.waiters ++ [waiter] }

def begun (s : Core) (store : Store) (commit : Commit) : Core :=
  { s with store, commits := s.commits ++ [commit] }

def executed (s : Core) (commit : Commit) : Core :=
  { s with executions := s.executions ++ [commit] }

def unlocked (s : Core) : Core := { s with lock := none }

def waiterOf (s : Core) (approvalId : String) : Option Waiter :=
  s.waiters.find? (fun waiter => waiter.approvalId == approvalId)

/-- `confirm` returns: a call that is not approved ends. -/
def returned (s : Core) (c : Nat) (approvalId : String) (approved : Bool) : Core :=
  s.setCall c (fun call =>
    { call with
      approvalId := some approvalId, answer := some approved,
      phase := if approved then .confirmed else .ended .denied })

/-- An exception inside the `try` of `confirm`. -/
def raised (s : Core) (c : Nat) (approval : TaskApprovalRecord) : Core :=
  s.setPhase c (if approval.state = .pending then .failing approval else .unwinding approval none)

def settle (s : Core) (c : Nat) (future : CallFuture) : Core := s.setCall c (ToolCall.settled future)

def request (env : Env) (s : Core) (c : Nat) (call : ToolCall) (now : Time)
    (approvalIds : Nat → String) : Option Core :=
  if call.phase = .admitted ∧ call.needsConfirmation = true then
    match requestApproval env now approvalIds call.principalId call.runId
        (call.approvalRequest env) s.store with
    | (.ok (approval, _, created), store) =>
      if approval.state = .pending then
        some ((s.withStore store).setCall c (fun call =>
          { call with
            approvalId := some approval.approvalId, phase := .requested approval created }))
      else
        some ((s.withStore store).returned c approval.approvalId (approval.state == .approved))
    | (.error _, _) => none
  else none

def register (s : Core) (c : Nat) (call : ToolCall) : Option Core :=
  match call.phase with
  | .requested approval created =>
    if s.lock = none then
      match s.waiterOf approval.approvalId with
      | some _ => some (s.setPhase c (.ended .turnedAway))
      | none =>
        some ((s.listed ⟨approval.approvalId, call.runId, c⟩).setCall c (fun call =>
          { call with future := .pending, phase := .reviewing approval created }))
    else none
  | _ => none

/-- The review, with whether the instruction it saw was truncated; no `answer`
where the reviewer is not asked or fails. -/
def review (env : Env) (s : Core) (c : Nat) (call : ToolCall) (answer : Option ApprovalReview) :
    Option Core :=
  match call.phase with
  | .reviewing approval created =>
    match answer with
    | none => some (s.setPhase c (.publishing approval none))
    | some review =>
      if created = true ∧ s.settings.reviewer = true ∧ s.settings.mode ≠ .off then
        match getTask s.store call.principalId call.runId with
        | .error _ => some (s.setPhase c (.publishing approval none))
        | .ok task =>
          match commit (annotateApprovalReview env call.principalId approval.approvalId
              (reviewNote call.reason review)) s.store with
          | (.error _, _) => some (s.setPhase c (.publishing approval none))
          | (.ok (annotated, _), store) =>
            some ((s.withStore store).setPhase c
              (.publishing annotated (some (review, decide (8000 < task.goal.length)))))
      else none
  | _ => none

def publish (s : Core) (c : Nat) (call : ToolCall) : Option Core :=
  match call.phase with
  | .publishing approval (some (review, truncated)) =>
    some (s.setPhase c
      (if s.settings.reviewer ∧
          mayAutoResolve s.settings review.decision call.reason truncated = true then
        .deciding approval review
      else .waiting approval))
  | .publishing approval none => some (s.setPhase c (.waiting approval))
  | _ => none

def wake (s : Core) (c : Nat) (call : ToolCall) : Option Core :=
  match call.phase, call.future with
  | .waiting approval, .result value => some (s.setPhase c (.unwinding approval (some value)))
  | .waiting approval, .cancelled => some (s.raised c approval)
  | _, _ => none

/-- The call takes its own waiter out of the map. -/
def forget (s : Core) (c : Nat) (approvalId : String) : Core :=
  { s with
    waiters := s.waiters.filter (fun waiter =>
      !(waiter.approvalId == approvalId && waiter.call == c)) }

def release (s : Core) (c : Nat) (call : ToolCall) : Option Core :=
  match call.phase with
  | .unwinding approval answer =>
    if s.lock = none then
      let left := s.forget c approval.approvalId
      match answer with
      | some approved => some (left.returned c approval.approvalId approved)
      | none => some (left.setPhase c (.ended .turnedAway))
    else none
  | _ => none

def beginCommit (env : Env) (s : Core) (c : Nat) (call : ToolCall) (now : Time) : Option Core :=
  if call.mayCommit then
    match commit (beginToolStep now call.principalId call.runId (call.stepRequest env)) s.store with
    | (.ok (_, true), store) =>
      some ((s.begun store ⟨c, call.approvalId, call.stepId env⟩).setPhase c .committing)
    | (.ok (record, false), store) =>
      some ((s.withStore store).setPhase c (.ended
        (if record.state = .completed ∨ record.state = .failed then .replayed record.result
          else .outcomeUnknown)))
    | (.error _, _) => none
  else none

/-- The registry runs the call. -/
def execute (env : Env) (s : Core) (c : Nat) (call : ToolCall) (completed : Bool)
    (result : JsonText) : Option Core :=
  if call.phase = .committing then
    some ((s.executed ⟨c, call.approvalId, call.stepId env⟩).setPhase c
      (.ran (if completed then .completed else .failed) result))
  else none

def finishCommit (env : Env) (s : Core) (c : Nat) (call : ToolCall) (now : Time) : Option Core :=
  match call.phase with
  | .ran state result =>
    match commit (finishToolStep now call.principalId call.runId (call.stepId env) state result)
        s.store with
    | (.ok _, store) => some ((s.withStore store).setPhase c (.ended (.finished result)))
    | (.error _, _) => none
  | _ => none

/-- A gate, an exception or a cancellation outside the `try` of `confirm` ends the call. -/
def leave (s : Core) (c : Nat) (call : ToolCall) : Option Core :=
  match call.phase with
  | .admitted | .requested .. | .confirmed | .committing | .ran .. =>
    some (s.setPhase c (.ended .turnedAway))
  | .unwinding .. => if s.lock = none then none else some (s.setPhase c (.ended .turnedAway))
  | _ => none

/-- `task.cancel()` reaches a call inside the `try` of `confirm`. A call inside a
`resolve` of its own takes it up when that returns. -/
def interrupt (s : Core) (c : Nat) (call : ToolCall) : Option Core :=
  if s.lock.any (fun r => r.caller == some c) then none
  else
    match call.insideTry, call.phase with
    | some approval, _ => some (s.raised c approval)
    | none, .waiting approval => some ((s.settle c .cancelled).raised c approval)
    | none, .failing approval => some (s.setPhase c (.unwinding approval none))
    | none, _ => none

/-- `resolve` holds the lock and has read the waiter map. -/
def locked (s : Core) (caller : Option Nat) (principalId approvalId : String) (approved : Bool)
    (resolvedBy : String) : Core :=
  { s with
    lock := some
      { caller, principalId, approvalId, approved, resolvedBy, waiter := s.waiterOf approvalId } }

def acquire (s : Core) (caller : Option Nat) (principalId approvalId : String) (approved : Bool)
    (resolvedBy : String) : Option Core :=
  if s.lock = none then some (s.locked caller principalId approvalId approved resolvedBy) else none

def resolveWithin (s : Core) (c : Nat) (call : ToolCall) : Option Core :=
  match call.phase with
  | .deciding approval review =>
    s.acquire (some c) call.principalId approval.approvalId (review.decision == .approve)
      ("approval_reviewer:" ++ review.reviewerId)
  | .failing approval =>
    s.acquire (some c) call.principalId approval.approvalId false "system:confirmation_error"
  | _ => none

def phaseOf (s : Core) (c : Nat) : Option CallPhase := (s.calls[c]?).map ToolCall.phase

def decider (s : Core) (r : Resolving) : Decider :=
  match r.caller with
  | none => .client
  | some c =>
    match s.phaseOf c with
    | some (.failing _) => .handler
    | _ => .reviewer

/-- The repository refused the decision: the exception leaves `resolve`. -/
def resolveRaised (s : Core) (caller : Option Nat) : Core :=
  match caller with
  | none => s
  | some c =>
    match s.phaseOf c with
    | some (.deciding approval _) => s.raised c approval
    | some (.failing approval) => s.setPhase c (.unwinding approval none)
    | _ => s

def resolveWrite (env : Env) (s : Core) (now : Time) : Option Core :=
  match s.lock with
  | some r =>
    if r.written = none then
      match commit (resolveApproval env now r.principalId r.approvalId r.approved r.resumeState
          r.resolvedBy) s.store with
      | (.ok (approval, _, changed), store) =>
        some { s with
          store, lock := some { r with written := some (approval, changed) },
          decisions := if changed then
            s.decisions ++ [⟨approval.approvalId, r.approved, s.decider r⟩] else s.decisions }
      | (.error _, _) => some (s.unlocked.resolveRaised r.caller)
    else none
  | none => none

/-- `resolve` wakes the waiter it read. -/
def woken (s : Core) (r : Resolving) (changed : Bool) : Core :=
  match r.waiter with
  | some waiter => if changed then s.settle waiter.call (.result r.approved) else s
  | none => s

/-- `resolve` leaves the lock and returns to its caller. -/
def exited (s : Core) (r : Resolving) (approval : TaskApprovalRecord) (changed : Bool) : Core :=
  match r.caller with
  | none => (s.woken r changed).unlocked
  | some c =>
    match s.phaseOf c with
    | some (.deciding mine _) => (s.woken r changed).unlocked.setPhase c
        (.unwinding mine (some (approval.state == .approved)))
    | some (.failing mine) => (s.woken r changed).unlocked.setPhase c (.unwinding mine none)
    | _ => (s.woken r changed).unlocked

def resolveReturn (s : Core) : Option Core :=
  match s.lock with
  | some r => r.written.map (fun written => s.exited r written.1 written.2)
  | none => none

/-- The waiters that `keep` drops from the map get their futures settled. -/
def dismiss (s : Core) (keep : Waiter → Bool) (future : CallFuture) : Core :=
  { s with
    waiters := s.waiters.filter keep
    calls := s.calls.mapIdx (fun c call =>
      if s.waiters.any (fun waiter => !keep waiter && waiter.call == c) then call.settled future
      else call) }

def cancelTask (s : Core) (taskId : String) : Option Core :=
  if s.lock = none then
    some (s.dismiss (fun waiter => waiter.taskId != taskId) (.result false))
  else none

def close (s : Core) : Option Core :=
  if s.lock = none then some (s.dismiss (fun _ => false) .cancelled) else none

/-- The process is gone; the database stands. -/
def crash (s : Core) : Core :=
  { s with
    waiters := [], lock := none,
    calls := s.calls.map (fun call => { call with phase := .ended .turnedAway }) }

end Core

inductive Act
  | repository (op : Op)
  | configureReview (settings : ReviewSettings)
  | propose (principalId runId : String) (proposal : ProposedToolCall) (effect risk : String)
      (needsConfirmation : Bool)
  | request (c : Nat) (now : Time) (approvalIds : Nat → String)
  | register (c : Nat)
  | review (c : Nat) (answer : Option ApprovalReview)
  | publish (c : Nat)
  | wake (c : Nat)
  | release (c : Nat)
  | beginCommit (c : Nat) (now : Time)
  | execute (c : Nat) (completed : Bool) (result : JsonText)
  | finishCommit (c : Nat) (now : Time)
  | leave (c : Nat)
  | interrupt (c : Nat)
  | resolve (principalId approvalId : String) (approved : Bool) (resolvedBy : String)
  | resolveWithin (c : Nat)
  | resolveWrite (now : Time)
  | resolveReturn
  | cancelTask (taskId : String)
  | close
  | crash

namespace Core

def withCall (s : Core) (c : Nat) (f : ToolCall → Option Core) : Option Core := (s.calls[c]?).bind f

def step (env : Env) (s : Core) : Act → Option Core
  | .repository op =>
    if op.byToolCalls then none
    else (Tasks.step env s.store op).map (fun store => { s with store })
  | .configureReview settings => some { s with settings }
  | .propose principalId runId proposal effect risk needsConfirmation =>
    some { s with calls := s.calls ++ [
      { principalId, runId, proposal, effect, risk, needsConfirmation }] }
  | .request c now approvalIds => s.withCall c (fun call => s.request env c call now approvalIds)
  | .register c => s.withCall c (s.register c)
  | .review c answer => s.withCall c (fun call => s.review env c call answer)
  | .publish c => s.withCall c (s.publish c)
  | .wake c => s.withCall c (s.wake c)
  | .release c => s.withCall c (s.release c)
  | .beginCommit c now => s.withCall c (fun call => s.beginCommit env c call now)
  | .execute c completed result => s.withCall c (fun call => s.execute env c call completed result)
  | .finishCommit c now => s.withCall c (fun call => s.finishCommit env c call now)
  | .leave c => s.withCall c (s.leave c)
  | .interrupt c => s.withCall c (s.interrupt c)
  | .resolve principalId approvalId approved resolvedBy =>
    s.acquire none principalId approvalId approved resolvedBy
  | .resolveWithin c => s.withCall c (s.resolveWithin c)
  | .resolveWrite now => s.resolveWrite env now
  | .resolveReturn => s.resolveReturn
  | .cancelTask taskId => s.cancelTask taskId
  | .close => s.close
  | .crash => some s.crash

end Core

end Knoa.Tasks
