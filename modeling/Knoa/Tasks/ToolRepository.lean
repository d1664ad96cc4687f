import Knoa.Tasks.Scheduling

/-!
# Tool steps, approvals and execution traces

`tasks/tool_repository.py` and the trace operations of
`tasks/execution_repository.py`.
-/
namespace Knoa.Tasks
open Transaction Relational

def eventOf (s : Store) (taskId : String) (eventSeq : Nat) : Option EventRow :=
  s.events.lookup (taskId, eventSeq)

def annotateApprovalReview (env : Env) (principalId approvalId reason : String) :
    Body Store TaskError (TaskApprovalRecord × TaskEvent) := fun s => do
  let principal ← normalizeIdentifier principalId "principal_id" 256
  let approvalId ← normalizeIdentifier approvalId "approval_id" 128
  let reason := takeChars (strip reason) 2000
  let approval ← ownedApproval s principal approvalId
  let requested ← orRaise (eventOf s approval.taskId approval.requestEventSeq) .assertion
  if approval.state = .pending then
    let payload ← eventJson env { requested.payload with reason }
    let stored := (s.updateApprovals (fun row => row.approvalId == approvalId)
        (fun row => { row with reason })).updateEvents
      (fun event => event.taskId == approval.taskId && event.eventSeq == approval.requestEventSeq)
      (fun event => { event with payload })
    let updated ← ownedApproval stored principal approvalId
    return ((updated, { requested with eventType := .approvalRequested, payload }), stored)
  else
    return ((approval, { requested with eventType := .approvalRequested }), s)

/-- Arguments of `begin_tool_step`. -/
structure ToolStepRequest where
  toolStepId : String
  toolCallId : String
  toolName : String
  arguments : JsonText
  effect : String
  risk : String
  deriving DecidableEq, Repr

def toolEffects : List String :=
  ["read_only", "internal_write", "local_write", "external_side_effect", "desktop_control",
    "unknown"]

def toolRisks : List String := ["low", "medium", "high"]

def ownedStep (s : Store) (principal taskId stepId : String) : Option ToolStepRow :=
  (s.steps.lookup stepId).filter (fun row => row.taskId == taskId && row.principalId == principal)

def newToolStepRow (now : Time) (principal taskId stepId callId name : String)
    (request : ToolStepRequest) : ToolStepRow where
  toolStepId := stepId
  taskId := taskId
  principalId := principal
  toolCallId := callId
  toolName := name
  arguments := request.arguments
  effect := request.effect
  risk := request.risk
  state := .committing
  result := .emptyObject
  createdAt := now
  updatedAt := now

def beginToolStep (now : Time) (principalId taskId : String) (request : ToolStepRequest) :
    Body Store TaskError (TaskToolStepRecord × Bool) := fun s => do
  let principal ← normalizeIdentifier principalId "principal_id" 256
  let taskId ← normalizeIdentifier taskId "task_id" 128
  let stepId ← normalizeIdentifier request.toolStepId "tool_step_id" 128
  let callId ← normalizeIdentifier request.toolCallId "tool_call_id" 256
  let name ← normalizeIdentifier request.toolName "tool_name" 256
  require (request.effect ∈ toolEffects) (.value "Task tool effect is invalid")
  require (request.risk ∈ toolRisks) (.value "Task tool risk is invalid")
  require (request.arguments.bytes ≤ maxEventBytes)
    (.value "Task tool arguments exceed the size limit")
  let task ← ownedTask s principal taskId
  require (task.state = .running) (.transition "Task must be running before tool commit")
  match ownedStep s principal taskId stepId with
  | some existing =>
    require (existing.toolCallId = callId ∧ existing.toolName = name ∧
        existing.arguments = request.arguments ∧ existing.effect = request.effect ∧
        existing.risk = request.risk)
      (.idempotencyConflict "tool_step_id already belongs to another tool commit")
    return ((existing, false), s)
  | none =>
    let row := newToolStepRow now principal taskId stepId callId name request
    let steps ← insertRow s.steps row "runtime_task_tool_steps.tool_step_id" (fun _ => false) ""
    return ((row, true), { s with steps })

def finishToolStep (now : Time) (principalId taskId toolStepId : String)
    (state : TaskToolStepState) (result : JsonText) :
    Body Store TaskError (TaskToolStepRecord × Bool) := fun s => do
  require (state = .completed ∨ state = .failed)
    (.value "Task tool step may finish only completed or failed")
  let principal ← normalizeIdentifier principalId "principal_id" 256
  let taskId ← normalizeIdentifier taskId "task_id" 128
  let stepId ← normalizeIdentifier toolStepId "tool_step_id" 128
  require (result.bytes ≤ maxEventBytes) (.value "Task tool result exceeds the size limit")
  let _ ← ownedTask s principal taskId
  let current ← orRaise (ownedStep s principal taskId stepId) (.notFound "Task tool step not found")
  if current.state = .committing then
    let stored := s.updateSteps
      (fun row => row.toolStepId == stepId && row.state == .committing)
      (fun row => { row with state, result, updatedAt := now })
    let updated ← orRaise (stored.steps.lookup stepId) (.runtime "Task tool step disappeared")
    return ((updated, true), stored)
  else
    require (current.state = state ∧ current.result = result)
      (.transition "Task tool step is already terminal")
    return ((current, false), s)

def pauseForUnknownToolOutcome (env : Env) (now : Time) (principalId taskId reason : String) :
    Body Store TaskError (TaskRecord × TaskEvent) := fun s => do
  let principal ← normalizeIdentifier principalId "principal_id" 256
  let taskId ← normalizeIdentifier taskId "task_id" 128
  require (strip reason ≠ "" ∧ (strip reason).length ≤ 2000)
    (.value "Unknown tool outcome reason must contain 1-2000 characters")
  let row ← ownedTask s principal taskId
  require (row.state = .running)
    (.transition "Only a running Task can report an unknown tool outcome")
  let marked := markOutcomeUnknown s now
    (fun step => step.taskId == taskId && step.principalId == principal)
  let finished := finishActiveAttempt marked taskId .interrupted now "tool_outcome_unknown"
  let appended ← appendEvent env finished row .stateChanged
    { previousState := some .running, state := some .paused, phase := "outcome_unknown",
      reason := strip reason } now
  let stored := appended.2.updateTask taskId (fun task =>
    { task with
      state := .paused, phase := "outcome_unknown", leaseOwner := "", leaseExpiresAt := none,
      updatedAt := now, nextEventSeq := appended.1.eventSeq + 1, revision := task.revision + 1 })
  let updated ← ownedTask stored principal taskId
  return ((updated, appended.1), stored)

/-- Arguments of `request_approval`. -/
structure ApprovalRequest where
  toolStepId : String
  toolCallId : String
  toolName : String
  arguments : JsonText
  reason : String := ""
  expiresAt : Option Time := none
  deriving DecidableEq, Repr

/-- The normalised texts of an approval request. -/
structure ApprovalFields where
  principal : String
  taskId : String
  stepId : String
  callId : String
  name : String
  reason : String
  deriving DecidableEq, Repr

def normalizeApproval (principalId taskId : String) (request : ApprovalRequest) :
    Except TaskError ApprovalFields := do
  let principal ← normalizeIdentifier principalId "principal_id" 256
  let taskId ← normalizeIdentifier taskId "task_id" 128
  let stepId ← normalizeIdentifier request.toolStepId "tool_step_id" 128
  let callId ← normalizeIdentifier request.toolCallId "tool_call_id" 256
  let name ← normalizeIdentifier request.toolName "tool_name" 256
  require ((strip request.reason).length ≤ 2000)
    (.value "Task approval reason exceeds 2000 characters")
  require (request.arguments.bytes ≤ maxEventBytes)
    (.value "Task approval arguments exceed the size limit")
  return { principal, taskId, stepId, callId, name, reason := strip request.reason }

def existingApproval (s : Store) (taskId stepId : String) : Option ApprovalRow :=
  s.approvals.rows.find? (fun row => row.taskId == taskId && row.toolStepId == stepId)

def newApprovalRow (now : Time) (approvalId : String) (requestEventSeq : Nat)
    (request : ApprovalRequest) (fields : ApprovalFields) : ApprovalRow where
  approvalId := approvalId
  taskId := fields.taskId
  principalId := fields.principal
  toolStepId := fields.stepId
  toolCallId := fields.callId
  toolName := fields.name
  arguments := request.arguments
  reason := fields.reason
  state := .pending
  requestEventSeq := requestEventSeq
  createdAt := now
  resolvedAt := none
  expiresAt := request.expiresAt
  resolvedBy := ""

def approvalPayload (approvalId : String) (request : ApprovalRequest) (fields : ApprovalFields) :
    TaskEventPayload where
  previousState := some .running
  state := some .waitingApproval
  approvalId := approvalId
  toolStepId := fields.stepId
  toolCallId := fields.callId
  toolName := fields.name
  toolArgs := request.arguments
  reason := fields.reason

def waitingRow (now : Time) (eventSeq : Nat) (task : TaskRow) : TaskRow :=
  { task with
    state := .waitingApproval, updatedAt := now, nextEventSeq := eventSeq + 1,
    revision := task.revision + 1 }

/-- The branch of `request_approval` that asks for a new approval. -/
def openApproval (env : Env) (now : Time) (request : ApprovalRequest) (fields : ApprovalFields)
    (approvalId : String) (task : TaskRow) :
    Body Store TaskError (TaskApprovalRecord × TaskEvent × Bool) := fun s => do
  require (task.state = .running) (.transition "Task must be running before requesting approval")
  let appended ← appendEvent env s task .approvalRequested
    (approvalPayload approvalId request fields) now
  let approvals ← insertRow appended.2.approvals
    (newApprovalRow now approvalId appended.1.eventSeq request fields)
    "runtime_task_approvals.approval_id"
    (fun row => row.taskId == fields.taskId && row.toolStepId == fields.stepId)
    "runtime_task_approvals.task_id, runtime_task_approvals.tool_step_id"
  let inserted : Store := { appended.2 with approvals }
  let stored := inserted.updateTask fields.taskId (waitingRow now appended.1.eventSeq)
  let approval ← ownedApproval stored fields.principal approvalId
  return ((approval, appended.1, true), stored)

/-- One pass of the loop of `request_approval`, in one transaction. -/
def requestApprovalOnce (env : Env) (now : Time) (request : ApprovalRequest)
    (fields : ApprovalFields) (candidate : String) :
    Body Store TaskError (TaskApprovalRecord × TaskEvent × Bool) := fun s => do
  let approvalId ← normalizeIdentifier candidate "approval_id" 128
  let task ← ownedTask s fields.principal fields.taskId
  match existingApproval s fields.taskId fields.stepId with
  | some approval =>
    require (approval.toolName = fields.name ∧ approval.arguments = request.arguments ∧
        approval.reason = fields.reason)
      (.idempotencyConflict "tool_step_id already belongs to another approval")
    let requested ← orRaise (eventOf s fields.taskId approval.requestEventSeq)
      (.runtime "Task approval event is missing")
    return ((approval, { requested with eventType := .approvalRequested }, false), s)
  | none => openApproval env now request fields approvalId task s

def retryApprovalId (e : TaskError) : Bool := e == .integrity "runtime_task_approvals.approval_id"

def requestApproval (env : Env) (now : Time) (approvalIds : Nat → String)
    (principalId taskId : String) (request : ApprovalRequest) (s : Store) :
    Except TaskError (TaskApprovalRecord × TaskEvent × Bool) × Store :=
  match normalizeApproval principalId taskId request with
  | .error e => (.error e, s)
  | .ok fields =>
    retrying retryApprovalId (.runtime "Could not allocate a unique approval ID")
      ((List.range 5).map (fun i => requestApprovalOnce env now request fields (approvalIds i))) s

def resolveApproval (env : Env) (now : Time) (principalId approvalId : String) (approved : Bool)
    (resumeState : TaskState) (resolvedBy : String) :
    Body Store TaskError (TaskApprovalRecord × Option TaskEvent × Bool) := fun s => do
  require (resumeState = .running ∨ resumeState = .queued)
    (.value "Approval may resume only a running or queued Task")
  let principal ← normalizeIdentifier principalId "principal_id" 256
  let approvalId ← normalizeIdentifier approvalId "approval_id" 128
  require ((strip resolvedBy).length ≤ 256) (.value "Approval resolver exceeds 256 characters")
  let approval ← ownedApproval s principal approvalId
  if approval.state = .pending then
    let task ← ownedTask s principal approval.taskId
    require (task.state = .waitingApproval)
      (.transition "Pending approval does not belong to a waiting Task")
    let resolvedState : ApprovalState := if approved then .approved else .denied
    let decided := s.updateApprovals
      (fun row => row.approvalId == approvalId && row.state == .pending)
      (fun row =>
        { row with state := resolvedState, resolvedAt := some now, resolvedBy := strip resolvedBy })
    let appended ← appendEvent env decided task .approvalResolved
      { previousState := some .waitingApproval, state := some resumeState, approvalId,
        toolStepId := approval.toolStepId, toolCallId := approval.toolCallId,
        toolName := approval.toolName, reason := resolvedState.value } now
    let finished :=
      if resumeState = .queued then
        finishActiveAttempt appended.2 approval.taskId .interrupted now "approval_wait_interrupted"
      else appended.2
    let stored := finished.updateTask approval.taskId (fun row =>
      { row with
        state := resumeState, leaseOwner := if resumeState = .queued then "" else task.leaseOwner,
        leaseExpiresAt := if resumeState = .queued then none else task.leaseExpiresAt,
        updatedAt := now, nextEventSeq := appended.1.eventSeq + 1, revision := row.revision + 1 })
    let updated ← ownedApproval stored principal approvalId
    return ((updated, some appended.1, true), stored)
  else
    return ((approval, none, false), s)

def maxTraceBytes : Nat := 16 * 1024 * 1024

def getTrace (s : Store) (principalId taskId : String) :
    Except TaskError (Option TaskExecutionTrace) := do
  let principal ← normalizeIdentifier principalId "principal_id" 256
  let taskId ← normalizeIdentifier taskId "task_id" 128
  let _ ← ownedTask s principal taskId
  return s.traces.lookup taskId

def newTraceRow (env : Env) (now : Time) (taskId : String) (entries : List TaskTraceEntry)
    (finalOutput : String) : TraceRow where
  taskId := taskId
  entries := entries
  finalOutput := finalOutput
  createdAt := now
  updatedAt := now
  retainedUntil := now + env.traceRetentionSeconds
  compactedAt := none
  revision := 0

def saveTrace (env : Env) (now : Time) (principalId taskId : String)
    (entries : List TaskTraceEntry) (finalOutput : String) :
    Body Store TaskError TaskExecutionTrace := fun s => do
  let principal ← normalizeIdentifier principalId "principal_id" 256
  let taskId ← normalizeIdentifier taskId "task_id" 128
  require (finalOutput.length ≤ 200000) (.value "Task trace final output exceeds 200000 characters")
  require (env.traceBytes entries ≤ maxTraceBytes)
    (.value "Task execution trace exceeds the size limit")
  let _ ← ownedTask s principal taskId
  match s.traces.insert (newTraceRow env now taskId entries finalOutput) with
  | some traces => return (newTraceRow env now taskId entries finalOutput, { s with traces })
  | none =>
    let traces := s.traces.update (fun trace => trace.taskId == taskId) (fun trace =>
      { trace with
        entries, finalOutput, updatedAt := now,
        retainedUntil := now + env.traceRetentionSeconds, compactedAt := none,
        revision := trace.revision + 1 }) (by intro trace; rfl)
    let trace ← orRaise (traces.lookup taskId) .assertion
    return (trace, { s with traces })

end Knoa.Tasks
