import Knoa.Tasks.RuntimeRepository

/-!
# Transitions, claims, leases and recovery

The second half of `tasks/runtime_repository.py`.
-/
namespace Knoa.Tasks
open Transaction

/-- Keyword arguments of `transition`. -/
structure TransitionMetadata where
  phase : String := ""
  reason : String := ""
  finalSummary : String := ""
  failureCode : String := ""
  expectedRevision : Option Nat := none
  deriving DecidableEq, Repr

/-- The state a transition leaves the running attempt in, when it ends one. -/
def attemptStateFor : TaskState → Option TaskAttemptState
  | .completed => some .completed
  | .failed => some .failed
  | .cancelled => some .cancelled
  | .paused => some .interrupted
  | _ => none

def attemptFailureCode (target : TaskState) (failureCode : String) : String :=
  match target with
  | .failed => failureCode
  | .paused => "paused"
  | .cancelled => "cancelled"
  | _ => ""

def finishAttemptFor (s : Store) (taskId : String) (target : TaskState) (failureCode : String)
    (now : Time) : Store :=
  match attemptStateFor target with
  | some state => finishActiveAttempt s taskId state now (attemptFailureCode target failureCode)
  | none => s

def invalidTransition (current target : TaskState) : TaskError :=
  .transition ("Invalid Task transition: " ++ current.value ++ " -> " ++ target.value)

/-- `normalized_phase or row["phase"]`. -/
def transitionPhase (row : TaskRow) (metadata : TransitionMetadata) : String :=
  if strip metadata.phase = "" then row.phase else strip metadata.phase

def transitionPayload (row : TaskRow) (target : TaskState) (metadata : TransitionMetadata) :
    TaskEventPayload where
  content := if target = .completed then metadata.finalSummary else ""
  previousState := some row.state
  state := some target
  phase := transitionPhase row metadata
  reason := strip metadata.reason

/-- The `UPDATE` of `transition`: `row` as it was read, `task` as it is stored. -/
def transitionRow (now : Time) (row : TaskRow) (target : TaskState)
    (metadata : TransitionMetadata) (task : TaskRow) : TaskRow :=
  { task with
    state := target, phase := transitionPhase row metadata,
    finalSummary := if target = .completed then metadata.finalSummary else "",
    failureCode := if target = .failed then metadata.failureCode else "",
    leaseOwner := if target = .running then row.leaseOwner else "",
    leaseExpiresAt := if target = .running then row.leaseExpiresAt else none, updatedAt := now,
    startedAt := if target = .running ∧ row.startedAt = none then some now else row.startedAt,
    finishedAt := if target.isTerminal then some now else none,
    nextEventSeq := row.nextEventSeq + 1, revision := task.revision + 1 }

def transition (env : Env) (now : Time) (principalId taskId : String) (target : TaskState)
    (metadata : TransitionMetadata) : Body Store TaskError (TaskRecord × TaskEvent) := fun s => do
  let principal ← normalizeIdentifier principalId "principal_id" 256
  let taskId ← normalizeIdentifier taskId "task_id" 128
  require ((strip metadata.phase).length ≤ 256 ∧ (strip metadata.reason).length ≤ 2000)
    (.value "Task transition metadata exceeds its size limit")
  require (metadata.finalSummary.length ≤ 200000 ∧ metadata.failureCode.length ≤ 256)
    (.value "Task terminal metadata exceeds its size limit")
  let row ← ownedTask s principal taskId
  require (metadata.expectedRevision.all (fun revision => row.revision == revision) = true)
    (.transition "Task revision changed")
  require (target ∈ row.state.transitions) (invalidTransition row.state target)
  require (target = .completed → strip metadata.finalSummary ≠ "")
    (.transition "Completed Task requires a final summary")
  require (target = .failed → strip metadata.failureCode ≠ "")
    (.transition "Failed Task requires a failure code")
  let appended ← appendEvent env s row target.eventType (transitionPayload row target metadata) now
  let finished := finishAttemptFor appended.2 taskId target metadata.failureCode now
  let stored := finished.updateTask taskId (transitionRow now row target metadata)
  let updated ← ownedTask stored principal taskId
  return ((updated, appended.1), stored)

def TaskState.isActive : TaskState → Bool
  | .running | .waitingApproval => true
  | _ => false

/-- `NOT EXISTS` of `claim_next`: no Task of the session is running or waiting. -/
def sessionIdle (s : Store) (sessionHandle : String) : Bool :=
  !s.tasks.rows.any (fun active => active.sessionHandle == sessionHandle && active.state.isActive)

def claimable (s : Store) (principal : String) (candidate : TaskRow) : Bool :=
  candidate.state == .queued && (principal == "" || candidate.principalId == principal) &&
    candidate.phase != "delegation_staged" && sessionIdle s candidate.sessionHandle

/-- `ORDER BY priority DESC, created_at, task_id`. -/
def claimBefore (a b : TaskRow) : Prop :=
  b.priority < a.priority ∨ (a.priority = b.priority ∧
    (a.createdAt < b.createdAt ∨ (a.createdAt = b.createdAt ∧ a.taskId ≤ b.taskId)))

instance : DecidableRel claimBefore := fun a b => by unfold claimBefore; infer_instance

def nextClaim (s : Store) (principal : String) : Option TaskRow :=
  ((s.tasks.rows.filter (claimable s principal)).insertionSort claimBefore).head?

def attemptId (env : Env) (taskId : String) (ordinal : Nat) : String :=
  env.digest (taskId ++ "\x00" ++ toString ordinal)

def normalizeClaimPrincipal (principalId : String) : Except TaskError String :=
  if strip principalId = "" then .ok ""
  else normalizeIdentifier (strip principalId) "principal_id" 256

/-- The `UPDATE` of `claim_next`: `row` as it was read, `task` as it is stored. -/
def claimedRow (now : Time) (worker : String) (leaseSeconds : Time) (row : TaskRow)
    (eventSeq : Nat) (task : TaskRow) : TaskRow :=
  if task.state = .queued then
    { task with
      state := .running, attemptCount := task.attemptCount + 1, leaseOwner := worker,
      leaseExpiresAt := some (now + leaseSeconds),
      startedAt := if row.startedAt = none then some now else row.startedAt, updatedAt := now,
      nextEventSeq := eventSeq + 1, revision := task.revision + 1 }
  else task

theorem claimedRow_taskId (now : Time) (worker : String) (leaseSeconds : Time) (row : TaskRow)
    (eventSeq : Nat) (task : TaskRow) :
    (claimedRow now worker leaseSeconds row eventSeq task).taskId = task.taskId := by
  unfold claimedRow
  split <;> rfl

def claimRow (env : Env) (now : Time) (worker : String) (leaseSeconds : Time) (row : TaskRow) :
    Body Store TaskError (Option TaskRecord) := fun s => do
  let appended ← appendEvent env s row .stateChanged
    { previousState := some .queued, state := some .running } now
  let ordinal := row.attemptCount + 1
  let attempts ← insertRow appended.2.attempts
    { attemptId := attemptId env row.taskId ordinal, taskId := row.taskId, ordinal,
      state := .running, startedAt := now, finishedAt := none, failureCode := "" }
    "runtime_task_attempts.attempt_id"
    (fun attempt => attempt.taskId == row.taskId && attempt.ordinal == ordinal)
    "runtime_task_attempts.task_id, runtime_task_attempts.ordinal"
  let inserted : Store := { appended.2 with attempts }
  let stored := inserted.updateTask row.taskId
    (claimedRow now worker leaseSeconds row appended.1.eventSeq)
    (claimedRow_taskId now worker leaseSeconds row appended.1.eventSeq)
  let claimed ← ownedTask stored row.principalId row.taskId
  return (some claimed, stored)

def claimNext (env : Env) (now : Time) (workerId : String) (leaseSeconds : Time)
    (principalId : String) : Body Store TaskError (Option TaskRecord) := fun s => do
  let worker ← normalizeIdentifier workerId "worker_id" 128
  require (1 ≤ leaseSeconds ∧ leaseSeconds ≤ 3600)
    (.value "Task lease must be between 1 and 3600 seconds")
  let principal ← normalizeClaimPrincipal principalId
  match nextClaim s principal with
  | none => return (none, s)
  | some row => claimRow env now worker leaseSeconds row s

def activateStaged (now : Time) (principalId taskId : String) : Body Store TaskError TaskRecord :=
  fun s => do
    let principal ← normalizeIdentifier principalId "principal_id" 256
    let taskId ← normalizeIdentifier taskId "task_id" 128
    let row ← ownedTask s principal taskId
    require (row.state = .queued) (.transition "Only queued delegation Tasks can be activated")
    require (row.phase = "delegation_staged") (.transition "Task is not staged for delegation")
    let stored := s.updateTask taskId (fun task =>
      { task with phase := "", updatedAt := now, revision := task.revision + 1 })
    let updated ← ownedTask stored principal taskId
    return (updated, stored)

def holdsLease (principal taskId worker : String) (row : TaskRow) : Bool :=
  row.principalId == principal && row.taskId == taskId && row.state == .running &&
    row.leaseOwner == worker

def renewLease (now : Time) (principalId taskId workerId : String) (leaseSeconds : Time) :
    Body Store TaskError Bool := fun s => do
  require (1 ≤ leaseSeconds ∧ leaseSeconds ≤ 3600)
    (.value "Task lease must be between 1 and 3600 seconds")
  let principal ← normalizeIdentifier principalId "principal_id" 256
  let taskId ← normalizeIdentifier taskId "task_id" 128
  let worker ← normalizeIdentifier workerId "worker_id" 128
  return (s.tasks.rows.any (holdsLease principal taskId worker), s.updateTask taskId (fun task =>
      if holdsLease principal taskId worker task then
        { task with leaseExpiresAt := some (now + leaseSeconds), updatedAt := now }
      else task) (by intro task; split <;> rfl))

def recoverEach (one : TaskRow → Body Store TaskError TaskEvent) :
    List TaskRow → Body Store TaskError (List TaskEvent)
  | [], s => .ok ([], s)
  | row :: rows, s => do
    let first ← one row s
    let rest ← recoverEach one rows first.2
    return (first.1 :: rest.1, rest.2)

/-- `ORDER BY created_at, task_id`. -/
def createdBefore (a b : TaskRow) : Prop :=
  a.createdAt < b.createdAt ∨ (a.createdAt = b.createdAt ∧ a.taskId ≤ b.taskId)

instance : DecidableRel createdBefore := fun a b => by unfold createdBefore; infer_instance

def selectTasks (s : Store) (p : TaskRow → Bool) : List TaskRow :=
  (s.tasks.rows.filter p).insertionSort createdBefore

/-- The running attempt ends and the Task is paused under `phase`. -/
def pauseRecovered (env : Env) (now : Time) (failureCode phase reason : String) (row : TaskRow) :
    Body Store TaskError TaskEvent := fun s => do
  let finished := finishActiveAttempt s row.taskId .interrupted now failureCode
  let appended ← appendEvent env finished row .stateChanged
    { previousState := some .running, state := some .paused, phase, reason } now
  return (appended.1, appended.2.updateTask row.taskId (fun task =>
    { task with
      state := .paused, phase, leaseOwner := "", leaseExpiresAt := none, updatedAt := now,
      nextEventSeq := appended.1.eventSeq + 1, revision := task.revision + 1 }))

def leaseExpired (now : Time) (row : TaskRow) : Bool :=
  row.state == .running && row.leaseExpiresAt.any (fun expiresAt => decide (expiresAt < now))

def recoverExpiredLeases (env : Env) (now : Time) : Body Store TaskError (List TaskEvent) :=
  fun s =>
    recoverEach (pauseRecovered env now "lease_expired" "lease_expired"
      "Task lease expired without heartbeat renewal; explicit resume is required")
      (selectTasks s (leaseExpired now)) s

/-- `UPDATE ... SET state='outcome_unknown'` on the selected committing steps. -/
def markOutcomeUnknown (s : Store) (now : Time) (p : ToolStepRow → Bool) : Store :=
  s.updateSteps (fun row => p row && row.state == .committing)
    (fun row => { row with state := .outcomeUnknown, updatedAt := now })

def recoverWaiting (env : Env) (now : Time) (row : TaskRow) : Body Store TaskError TaskEvent :=
  fun s => do
    let finished := finishActiveAttempt s row.taskId .interrupted now
      "core_restart_waiting_approval"
    let appended ← appendEvent env finished row .warning
      { state := some .waitingApproval, phase := "waiting_approval",
        reason := "Core restarted while approval was pending; the approval " ++
          "remains valid and will start a new attempt when resolved" } now
    return (appended.1, appended.2.updateTask row.taskId (fun task =>
      { task with
        leaseOwner := "", leaseExpiresAt := none, updatedAt := now,
        nextEventSeq := appended.1.eventSeq + 1, revision := task.revision + 1 }))

def unknownCommit (s : Store) (taskId : String) : Bool :=
  s.steps.rows.any (fun step => step.taskId == taskId && step.state == .outcomeUnknown)

def recoverRunning (env : Env) (now : Time) (row : TaskRow) : Body Store TaskError TaskEvent :=
  fun s =>
    if unknownCommit s row.taskId then
      pauseRecovered env now "core_restart" "outcome_unknown"
        ("Core restarted during a tool commit; its outcome is unknown " ++
          "and explicit recovery is required") row s
    else if row.phase = "pause_requested" then
      pauseRecovered env now "core_restart" "manual_pause"
        "The persisted pause request was completed during Core recovery" row s
    else
      pauseRecovered env now "core_restart" "interrupted"
        "Core restarted before execution completed; explicit resume is required" row s

def recoverInterrupted (env : Env) (now : Time) : Body Store TaskError (List TaskEvent) :=
  fun s => do
    let marked := markOutcomeUnknown s now (fun _ => true)
    let waiting ← recoverEach (recoverWaiting env now)
      (selectTasks marked (fun row => row.state == .waitingApproval)) marked
    let running ← recoverEach (recoverRunning env now)
      (selectTasks waiting.2 (fun row => row.state == .running)) waiting.2
    return (waiting.1 ++ running.1, running.2)

end Knoa.Tasks
