import Mathlib.Data.List.Sort
import Knoa.Tasks.Journal

/-!
# Task lifecycle operations

`tasks/runtime_repository.py`: each operation is a transaction body over the
store. The clock reading and the ids drawn from a factory are arguments.
-/
namespace Knoa.Tasks
open Transaction Relational

structure CreateRequest where
  scope : RuntimeScope
  clientRequestId : String
  goal : String
  attachments : List ArtifactAttachment := []
  toolsEnabled : Bool := true
  priority : Int := 0
  parentTaskId : String := ""
  origin : TaskOrigin := .user
  agentId : Option String := none
  initialPhase : String := ""
  deriving DecidableEq, Repr

/-- The normalised texts of a request. -/
structure CreateFields where
  requestId : String
  goal : String
  parentTaskId : String
  phase : String
  deriving DecidableEq, Repr

def normalizeCreate (request : CreateRequest) : Except TaskError CreateFields := do
  let requestId ← normalizeIdentifier request.clientRequestId "client_request_id" 128
  require (strip request.goal ≠ "" ∧ (strip request.goal).length ≤ 200000)
    (.value "Task goal must contain 1-200000 characters")
  require (0 ≤ request.priority ∧ request.priority ≤ 9)
    (.value "Task priority must be between 0 and 9")
  require ((strip request.initialPhase).length ≤ 256)
    (.value "Task initial phase exceeds its size limit")
  require (request.attachments.length ≤ 8) (.value "Task accepts at most eight attachments")
  return {
    requestId, goal := strip request.goal
    parentTaskId := strip request.parentTaskId
    phase := strip request.initialPhase }

def existingRequest (s : Store) (principalId requestId : String) : Option TaskRow :=
  s.tasks.rows.find? (fun row => row.principalId == principalId && row.clientRequestId == requestId)

/-- `same_request`: the stored row agrees with the request, field by field. -/
def sameRequest (existing : TaskRow) (selectedAgent : String) (request : CreateRequest)
    (fields : CreateFields) : Bool :=
  existing.sessionHandle == request.scope.sessionHandle
    && existing.agentId == selectedAgent
    && existing.goal == fields.goal
    && existing.attachments == request.attachments
    && existing.toolsEnabled == request.toolsEnabled
    && existing.priority == request.priority
    && existing.origin == request.origin
    && existing.parentTaskId.getD "" == fields.parentTaskId
    && existing.phase == fields.phase

def getTask (s : Store) (principalId taskId : String) : Except TaskError TaskRecord := do
  let principal ← normalizeIdentifier principalId "principal_id" 256
  let taskId ← normalizeIdentifier taskId "task_id" 128
  ownedTask s principal taskId

def countActive (s : Store) (p : TaskRow → Bool) : Nat :=
  (s.tasks.rows.filter (fun row => p row && !row.state.isTerminal)).length

def checkParent (s : Store) (principalId parentTaskId : String) : Except TaskError PUnit :=
  if parentTaskId = "" then .ok ⟨⟩
  else (ownedTask s principalId parentTaskId).map (fun _ => ⟨⟩)

def newTaskRow (now : Time) (taskId selectedAgent : String) (request : CreateRequest)
    (fields : CreateFields) : TaskRow where
  taskId := taskId
  principalId := request.scope.principalId
  sessionHandle := request.scope.sessionHandle
  agentId := selectedAgent
  clientRequestId := fields.requestId
  origin := request.origin
  parentTaskId := if fields.parentTaskId = "" then none else some fields.parentTaskId
  goal := fields.goal
  attachments := request.attachments
  toolsEnabled := request.toolsEnabled
  priority := request.priority
  state := .queued
  phase := fields.phase
  attemptCount := 0
  cancelRequested := false
  finalSummary := ""
  failureCode := ""
  leaseOwner := ""
  leaseExpiresAt := none
  createdAt := now
  updatedAt := now
  startedAt := none
  finishedAt := none
  nextEventSeq := 1
  revision := 0

def insertTask (env : Env) (now : Time) (selectedAgent : String) (request : CreateRequest)
    (fields : CreateFields) (candidate : String) : Body Store TaskError (TaskRecord × Bool) :=
  fun s => do
    let principal := request.scope.principalId
    require (countActive s (fun _ => true) < env.maxActiveTasks)
      (.capacity "Global active Task limit reached")
    require (countActive s (fun row => row.principalId == principal)
        < env.maxActiveTasksPerPrincipal)
      (.capacity "Per-principal active Task limit reached")
    let _ ← checkParent s principal fields.parentTaskId
    let taskId ← normalizeIdentifier candidate "task_id" 128
    let tasks ← insertRow s.tasks (newTaskRow now taskId selectedAgent request fields)
      "runtime_tasks.task_id"
      (fun row => row.principalId == principal && row.clientRequestId == fields.requestId)
      "runtime_tasks.principal_id, runtime_tasks.client_request_id"
    let row ← ownedTask { s with tasks } principal taskId
    let appended ← appendEvent env { s with tasks } row .taskCreated { state := some .queued } now
    let stored := appended.2.updateTask taskId (fun task => { task with nextEventSeq := 2 })
    let created ← ownedTask stored principal taskId
    return ((created, true), stored)

/-- One pass of the loop of `create`, in one transaction. -/
def createOnce (env : Env) (now : Time) (request : CreateRequest) (fields : CreateFields)
    (candidate : String) : Body Store TaskError (TaskRecord × Bool) := fun s => do
  let session ← ownedSession s request.scope
  require (request.agentId.all (fun agentId => session.agentId == agentId) = true)
    (.value "Task Agent must match the Session Agent")
  match existingRequest s request.scope.principalId fields.requestId with
  | some existing =>
    require (sameRequest existing session.agentId request fields = true)
      (.idempotencyConflict "client_request_id already belongs to another Task request")
    return ((existing, false), s)
  | none => insertTask env now session.agentId request fields candidate s

def retryTaskId (e : TaskError) : Bool := e == .integrity "runtime_tasks.task_id"

def create (env : Env) (now : Time) (taskIds : Nat → String) (request : CreateRequest)
    (s : Store) : Except TaskError (TaskRecord × Bool) × Store :=
  match normalizeCreate request with
  | .error e => (.error e, s)
  | .ok fields =>
    retrying retryTaskId (.runtime "Could not allocate a unique Task ID")
      ((List.range 5).map (fun i => createOnce env now request fields (taskIds i))) s

def appendTaskEvent (env : Env) (now : Time) (principalId taskId : String)
    (eventType : TaskEventType) (payload : TaskEventPayload) : Body Store TaskError TaskEvent :=
  fun s => do
    require (eventType.isDurable = true)
      (.value "Streaming model output belongs to Task ExecutionTrace, not the event journal")
    let principal ← normalizeIdentifier principalId "principal_id" 256
    let taskId ← normalizeIdentifier taskId "task_id" 128
    let row ← ownedTask s principal taskId
    require (row.state.isTerminal = false) (.transition "Terminal Task cannot accept new events")
    let appended ← appendEvent env s row eventType payload now
    return (appended.1, appended.2.updateTask taskId (fun task =>
      { task with
        nextEventSeq := appended.1.eventSeq + 1, updatedAt := now, revision := task.revision + 1 }))

/-- The approval rows a cancelled or paused Task leaves unanswered. -/
def cancelPendingApprovals (s : Store) (taskId : String) (now : Time) (resolvedBy : String) :
    Store :=
  s.updateApprovals (fun row => row.taskId == taskId && row.state == .pending)
    (fun row => { row with state := .cancelled, resolvedAt := some now, resolvedBy })

def requestCancel (env : Env) (now : Time) (principalId taskId reason : String) :
    Body Store TaskError (TaskCancelResult × Option TaskEvent) := fun s => do
  let principal ← normalizeIdentifier principalId "principal_id" 256
  let taskId ← normalizeIdentifier taskId "task_id" 128
  require ((strip reason).length ≤ 2000) (.value "Task cancellation reason exceeds 2000 characters")
  let row ← ownedTask s principal taskId
  if row.state.isTerminal then
    return (({ accepted := true, state := row.state }, none), s)
  else if row.state = .queued ∨ row.state = .waitingApproval ∨ row.state = .paused then
    let settled :=
      if row.state = .waitingApproval then
        finishActiveAttempt (cancelPendingApprovals s taskId now "task_cancelled") taskId
          .cancelled now "cancelled"
      else s
    let appended ← appendEvent env settled row .cancelled
      { previousState := some row.state, state := some .cancelled, reason := strip reason } now
    return (({ accepted := true, state := .cancelled }, some appended.1),
      appended.2.updateTask taskId (fun task =>
        { task with
          state := .cancelled, cancelRequested := true, leaseOwner := "", leaseExpiresAt := none,
          updatedAt := now, finishedAt := some now, nextEventSeq := appended.1.eventSeq + 1,
          revision := task.revision + 1 }))
  else if row.cancelRequested then
    return (({ accepted := true, state := row.state }, none), s)
  else
    let appended ← appendEvent env s row .warning
      { state := some row.state
        reason := if strip reason = "" then "Cancellation requested" else strip reason } now
    return (({ accepted := true, state := row.state }, some appended.1),
      appended.2.updateTask taskId (fun task =>
        { task with
          cancelRequested := true, updatedAt := now, nextEventSeq := appended.1.eventSeq + 1,
          revision := task.revision + 1 }))

def requestPause (env : Env) (now : Time) (principalId taskId reason : String) :
    Body Store TaskError (TaskPauseResult × Option TaskEvent) := fun s => do
  let principal ← normalizeIdentifier principalId "principal_id" 256
  let taskId ← normalizeIdentifier taskId "task_id" 128
  require ((strip reason).length ≤ 2000) (.value "Task pause reason exceeds 2000 characters")
  let row ← ownedTask s principal taskId
  require (row.state.isTerminal = false) (.transition "Terminal Task cannot be paused")
  if row.state = .paused then
    return (({ accepted := true, state := row.state }, none), s)
  else if row.state = .running then
    if row.phase = "pause_requested" then
      return (({ accepted := true, state := row.state }, none), s)
    else
      let appended ← appendEvent env s row .warning
        { state := some row.state, phase := "pause_requested",
          reason := if strip reason = "" then "Pause requested" else strip reason } now
      return (({ accepted := true, state := row.state }, some appended.1),
        appended.2.updateTask taskId (fun task =>
          { task with
            phase := "pause_requested", updatedAt := now, nextEventSeq := appended.1.eventSeq + 1,
            revision := task.revision + 1 }))
  else
    let settled :=
      if row.state = .waitingApproval then
        finishActiveAttempt (cancelPendingApprovals s taskId now "task_paused") taskId
          .interrupted now "paused"
      else s
    let appended ← appendEvent env settled row .stateChanged
      { previousState := some row.state, state := some .paused, phase := "manual_pause",
        reason := if strip reason = "" then "Task paused" else strip reason } now
    return (({ accepted := true, state := .paused }, some appended.1),
      appended.2.updateTask taskId (fun task =>
        { task with
          state := .paused, phase := "manual_pause", leaseOwner := "", leaseExpiresAt := none,
          updatedAt := now, nextEventSeq := appended.1.eventSeq + 1,
          revision := task.revision + 1 }))

def resume (env : Env) (now : Time) (principalId taskId reason : String)
    (acknowledgeOutcomeUnknown : Bool) : Body Store TaskError (TaskRecord × TaskEvent) :=
  fun s => do
    let principal ← normalizeIdentifier principalId "principal_id" 256
    let taskId ← normalizeIdentifier taskId "task_id" 128
    require ((strip reason).length ≤ 2000) (.value "Task resume reason exceeds 2000 characters")
    let row ← ownedTask s principal taskId
    require (row.state = .paused) (.transition "Only a paused Task can be resumed")
    require (row.phase = "outcome_unknown" → acknowledgeOutcomeUnknown = true)
      (.transition "Unknown tool outcome must be explicitly acknowledged")
    let appended ← appendEvent env s row .stateChanged
      { previousState := some .paused, state := some .queued,
        reason := if strip reason = "" then "Task explicitly resumed" else strip reason } now
    let stored := appended.2.updateTask taskId (fun task =>
      { task with
        state := .queued, cancelRequested := false, leaseOwner := "", leaseExpiresAt := none,
        phase := "", updatedAt := now, nextEventSeq := appended.1.eventSeq + 1,
        revision := task.revision + 1 })
    let updated ← ownedTask stored principal taskId
    return ((updated, appended.1), stored)

end Knoa.Tasks
