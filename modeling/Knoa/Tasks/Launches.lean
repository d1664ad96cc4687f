import Mathlib.Data.List.Sort
import Knoa.Tasks.Executor

/-!
# Launches

`execute_definition`, `continue_definition` and `execute_bound_launch` of `TaskService`, one step for
every await.
-/
namespace Knoa.Tasks
open Transaction Relational

inductive TaskDefinitionState
  | active | paused | archived
  deriving DecidableEq, Repr

inductive TaskLaunchReason
  | created | manual | scheduled | event | rerun | followUp
  deriving DecidableEq, Repr

/-- A row of `tasks`, joined with its launch policy. -/
structure TaskDefinitionRow where
  taskId : String
  principalId : String
  sessionHandle : String
  agentId : String
  title : String
  goal : String
  attachments : List ArtifactAttachment
  toolsEnabled : Bool
  priority : Int
  launchPolicy : JsonText
  notificationPolicy : List (String × Bool)
  state : TaskDefinitionState
  revision : Nat
  latestExecutionId : Option String
  updatedAt : Time
  deriving DecidableEq, Repr

/-- A row of `task_executions`. -/
structure TaskExecutionRow where
  executionId : String
  taskId : String
  taskRevision : Nat
  agentIdSnapshot : String
  launchReason : TaskLaunchReason
  goalSnapshot : String
  attachments : List ArtifactAttachment
  policySnapshot : JsonText
  createdAt : Time
  deriving DecidableEq, Repr

/-- A row of `task_launch_bindings`. -/
structure LaunchBindingRow where
  taskId : String
  providerKind : String
  providerId : String
  deriving DecidableEq, Repr

def LaunchBindingRow.key (row : LaunchBindingRow) : String × String :=
  (row.providerKind, row.providerId)

abbrev TaskDefinitionRecord := TaskDefinitionRow

structure LaunchStore where
  runtime : Store
  saved : Table TaskDefinitionRow.taskId
  links : Table TaskExecutionRow.executionId
  bindings : Table LaunchBindingRow.key

namespace LaunchStore

variable (s : LaunchStore)

/-- The database as the runtime repository reads it. -/
def tables : Store :=
  { s.runtime with
    definitions := s.saved.columns (fun row =>
      { taskId := row.taskId, title := row.title, goal := row.goal,
        notificationPolicy := row.notificationPolicy }) (by intro _; rfl)
    executions := s.links.columns (fun row =>
      { executionId := row.executionId, taskId := row.taskId }) (by intro _; rfl) }

def updateDefinition (taskId : String) (f : TaskDefinitionRow → TaskDefinitionRow)
    (keep : ∀ row, (f row).taskId = row.taskId := by intro _; rfl) : LaunchStore :=
  { s with saved := s.saved.update (fun row => row.taskId == taskId) f keep }

end LaunchStore

inductive LaunchError
  | task (error : TaskError)
  | sessionNotFound
  | preflightBlocked
  | alreadyActive
  | interrupted
  deriving DecidableEq, Repr

/-- What is launched: `execute_definition` with its reason, the execution a rerun repeats
and its own goal, or `continue_definition` with its input. -/
inductive LaunchInput
  | execute (reason : TaskLaunchReason) (snapshot : Option TaskExecutionRow)
      (goalOverride : String)
  | followUp (input : String) (attachments : List ArtifactAttachment)
  deriving DecidableEq, Repr

structure LaunchRequest where
  principalId : String
  clientRequestId : String
  input : LaunchInput
  deriving DecidableEq, Repr

namespace LaunchInput

def reason : LaunchInput → TaskLaunchReason
  | .execute reason .. => reason
  | .followUp .. => .followUp

def origin (input : LaunchInput) : TaskOrigin :=
  match input.reason with
  | .scheduled => .scheduled
  | .event => .event
  | _ => .user

def goal (definition : TaskDefinitionRecord) : LaunchInput → String
  | .execute _ snapshot goalOverride =>
    if strip goalOverride = "" then snapshot.elim definition.goal TaskExecutionRow.goalSnapshot
    else strip goalOverride
  | .followUp input _ =>
    if strip input = "" then
      "Review the attached human-provided evidence and continue the Task analysis."
    else strip input

def attachments (definition : TaskDefinitionRecord) : LaunchInput → List ArtifactAttachment
  | .execute _ snapshot _ => snapshot.elim definition.attachments TaskExecutionRow.attachments
  | .followUp _ attachments => attachments

def policy (definition : TaskDefinitionRecord) : LaunchInput → JsonText
  | .execute _ snapshot _ => snapshot.elim definition.launchPolicy TaskExecutionRow.policySnapshot
  | .followUp .. => definition.launchPolicy

def revision (definition : TaskDefinitionRecord) : LaunchInput → Nat
  | .execute _ snapshot _ => snapshot.elim definition.revision TaskExecutionRow.taskRevision
  | .followUp .. => definition.revision

def agentId (definition : TaskDefinitionRecord) : LaunchInput → String
  | .execute _ snapshot _ => snapshot.elim definition.agentId TaskExecutionRow.agentIdSnapshot
  | .followUp .. => definition.agentId

/-- An input that `continue_definition` refuses at once. -/
def isEmpty : LaunchInput → Bool
  | .execute .. => false
  | .followUp input attachments => strip input = "" && attachments.isEmpty

end LaunchInput

/-- The request id of the Task; without one of the caller's, a fresh `token` makes it. -/
def LaunchRequest.requestId (request : LaunchRequest) (definition : TaskDefinitionRecord)
    (token : String) : String :=
  match request.input with
  | .execute .. =>
    if strip request.clientRequestId = "" then
      "execution:" ++ definition.taskId ++ ":" ++ token
    else strip request.clientRequestId
  | .followUp .. => request.clientRequestId

section Repository

def getTaskDefinition (s : LaunchStore) (principalId taskId : String) :
    Except TaskError TaskDefinitionRecord := do
  let principal ← normalizeIdentifier principalId "principal_id" 256
  let taskId ← normalizeIdentifier taskId "task_id" 128
  orRaise ((s.saved.lookup taskId).filter (fun row => row.principalId == principal))
    (.notFound "Task not found")

def taskForLaunch (s : LaunchStore) (principalId providerKind providerId : String) :
    Except TaskError TaskDefinitionRecord :=
  orRaise (((s.bindings.lookup (strip providerKind, strip providerId)).bind
      (fun binding => s.saved.lookup binding.taskId)).filter
        (fun row => row.principalId == principalId))
    (.notFound "Task launch binding not found")

/-- `ORDER BY created_at DESC, execution_id DESC`. -/
def executionBefore (a b : TaskExecutionRow) : Prop :=
  b.createdAt < a.createdAt ∨ b.createdAt = a.createdAt ∧ b.executionId ≤ a.executionId

instance : DecidableRel executionBefore := fun a b => by unfold executionBefore; infer_instance

/-- The rows that `list_task_executions` goes through. -/
def executionMappings (s : LaunchStore) (taskId : String) (limit : Nat) :
    List TaskExecutionRow :=
  ((s.links.rows.filter (fun row => row.taskId == taskId)).insertionSort executionBefore).take limit

def linkTaskExecution (now : Time) (principalId taskId executionId : String)
    (input : LaunchInput) (snapshot : TaskDefinitionRecord) :
    Body LaunchStore TaskError TaskExecutionRow := fun s => do
  let definition ← getTaskDefinition s principalId taskId
  let execution ← getTask s.tables principalId executionId
  let goal := strip (input.goal snapshot)
  require (goal ≠ "") (.value "Execution goal snapshot must not be empty")
  require (execution.agentId = input.agentId snapshot)
    (.value "TaskExecution Agent must match its Runtime Task Agent")
  match s.links.lookup execution.taskId with
  | some existing => do
    require (existing.taskId = definition.taskId)
      (.idempotencyConflict "Execution already belongs to another Task")
    return (existing, s.updateDefinition definition.taskId (fun row =>
      { row with latestExecutionId := some execution.taskId, updatedAt := now }))
  | none => do
    let mapping : TaskExecutionRow :=
      { executionId := execution.taskId, taskId := definition.taskId,
        taskRevision := input.revision snapshot, agentIdSnapshot := input.agentId snapshot,
        launchReason := input.reason, goalSnapshot := goal,
        attachments := input.attachments snapshot, policySnapshot := input.policy snapshot,
        createdAt := execution.createdAt }
    let links ← orRaise (s.links.insert mapping) (.integrity "task_executions")
    return (mapping, { s with links }.updateDefinition definition.taskId (fun row =>
      { row with latestExecutionId := some execution.taskId, updatedAt := now }))

def setTaskDefinitionState (now : Time) (principalId taskId : String)
    (state : TaskDefinitionState) : Body LaunchStore TaskError TaskDefinitionRecord := fun s => do
  let current ← getTaskDefinition s principalId taskId
  if current.state = state then return (current, s)
  else do
    let stored := s.updateDefinition current.taskId (fun row =>
      { row with state, revision := row.revision + 1, updatedAt := now })
    let updated ← getTaskDefinition stored principalId taskId
    return (updated, stored)

def bindTaskLaunch (principalId taskId providerKind providerId : String) :
    Body LaunchStore TaskError PUnit := fun s => do
  let definition ← getTaskDefinition s principalId taskId
  require (strip providerKind = "schedule" ∨ strip providerKind = "event")
    (.value "Task launch provider kind is invalid")
  let providerId ← normalizeIdentifier providerId "provider_id" 128
  let binding : LaunchBindingRow :=
    { taskId := definition.taskId, providerKind := strip providerKind, providerId }
  require (s.bindings.rows.all (fun row => row.key == binding.key ||
      !(row.taskId == binding.taskId && row.providerKind == binding.providerKind)) = true)
    (.integrity "task_launch_bindings.task_id, task_launch_bindings.provider_kind")
  match s.bindings.lookup binding.key with
  | some _ =>
    return (⟨⟩, { s with
      bindings := s.bindings.update (fun row => row.key == binding.key)
        (fun row => { row with taskId := definition.taskId }) (by intro _; rfl) })
  | none => do
    let bindings ← orRaise (s.bindings.insert binding) (.integrity "task_launch_bindings")
    return (⟨⟩, { s with bindings })

end Repository

/-- Where a launch stands. `listed` are the executions its listing returned, `rest` those of
them whose Tasks it has yet to read. -/
inductive LaunchPhase
  | bound (providerKind providerId : String)
  | preflight (taskId : String)
  | defining (taskId : String)
  | listing (definition : TaskDefinitionRecord)
  | reading (definition : TaskDefinitionRecord) (listed rest : List String) (active : Bool)
  | creating (definition : TaskDefinitionRecord) (listed : List String)
  | linking (definition : TaskDefinitionRecord) (listed : List String) (executionId : String)
  | returned (execution : TaskExecutionRow)
  | raised (error : LaunchError)
  deriving DecidableEq, Repr

structure Launch where
  request : LaunchRequest
  phase : LaunchPhase
  deriving DecidableEq, Repr

/-- What a step draws from outside: the clock, the random ids, and the configured checks of
the preflight. -/
structure LaunchTick where
  now : Time
  taskIds : Nat → String
  token : String
  ready : Bool

namespace Launch

def goTo (launch : Launch) (phase : LaunchPhase) : Launch := { launch with phase }

def raise (launch : Launch) (error : LaunchError) : Launch := launch.goTo (.raised error)

/-- `create` of the service: the Task of a launch. -/
def createRequest (launch : Launch) (definition : TaskDefinitionRecord) (token : String) :
    CreateRequest where
  scope := { principalId := definition.principalId, sessionHandle := definition.sessionHandle }
  clientRequestId := launch.request.requestId definition token
  goal := launch.request.input.goal definition
  attachments := launch.request.input.attachments definition
  toolsEnabled := definition.toolsEnabled
  priority := definition.priority
  origin := launch.request.input.origin
  agentId := some definition.agentId

/-- The check of `create` before the Task is written. -/
def checkAgent (s : LaunchStore) (definition : TaskDefinitionRecord) : Except LaunchError PUnit := do
  let session ← orRaise ((s.runtime.sessions.lookup definition.sessionHandle).filter
    (fun row => row.principalId == definition.principalId)) .sessionNotFound
  require (session.agentId = definition.agentId)
    (.task (.value "Task Agent must match the Session Agent"))

def after {α : Type} (launch : Launch) (read : Except TaskError α) (next : α → LaunchPhase) :
    Launch :=
  match read with
  | .ok a => launch.goTo (next a)
  | .error e => launch.raise (.task e)

def preflightPhase (tick : LaunchTick) (taskId : String) (definition : TaskDefinitionRecord) :
    LaunchPhase :=
  if definition.state = .active ∧ strip definition.goal ≠ "" ∧ tick.ready = true then
    .defining taskId
  else .raised .preflightBlocked

def boundPhase (definition : TaskDefinitionRecord) : LaunchPhase :=
  if definition.state = .active then .preflight definition.taskId
  else .raised (.task (.transition "Task is not active"))

def readPhase (definition : TaskDefinitionRecord) (listed : List String) (active : Bool) :
    List String → LaunchPhase
  | [] => if active then .raised .alreadyActive else .creating definition listed
  | rest => .reading definition listed rest active

/-- The next await of a launch, with the database it leaves. -/
def advance (env : Env) (tick : LaunchTick) (launch : Launch) (s : LaunchStore) :
    Option (Launch × LaunchStore) :=
  let principal := launch.request.principalId
  match launch.phase with
  | .bound providerKind providerId =>
    some (launch.after (taskForLaunch s principal providerKind providerId) boundPhase, s)
  | .preflight taskId =>
    if launch.request.input.isEmpty then
      some (launch.raise (.task (.value "Task follow-up requires input or an attachment")), s)
    else some (launch.after (getTaskDefinition s principal taskId) (preflightPhase tick taskId), s)
  | .defining taskId => some (launch.after (getTaskDefinition s principal taskId) .listing, s)
  | .listing definition =>
    let listed := (executionMappings s definition.taskId 200).map TaskExecutionRow.executionId
    some (launch.after (getTaskDefinition s principal definition.taskId)
      (fun _ => readPhase definition listed false listed), s)
  | .reading _ _ [] _ => none
  | .reading definition listed (executionId :: rest) active =>
    some (launch.after (getTask s.tables principal executionId) (fun execution =>
      readPhase definition listed (active || !execution.state.isTerminal) rest), s)
  | .creating definition listed =>
    match checkAgent s definition with
    | .error e => some (launch.raise e, s)
    | .ok _ =>
      match create env tick.now tick.taskIds (launch.createRequest definition tick.token)
          s.tables with
      | (.ok (task, _), runtime) =>
        some (launch.goTo (.linking definition listed task.taskId), { s with runtime })
      | (.error e, _) => some (launch.raise (.task e), s)
  | .linking definition _ executionId =>
    match commit (linkTaskExecution tick.now principal definition.taskId executionId
        launch.request.input definition) s with
    | (.ok mapping, s') => some (launch.goTo (.returned mapping), s')
    | (.error e, _) => some (launch.raise (.task e), s)
  | .returned _ | .raised _ => none

/-- An exception from outside, a cancellation or a crash ends a launch where it stands. -/
def interrupted (launch : Launch) : Option Launch :=
  match launch.phase with
  | .returned _ | .raised _ => none
  | _ => some (launch.raise .interrupted)

end Launch

structure LaunchService where
  store : LaunchStore
  launches : List Launch := []

inductive LaunchAct
  | repository (op : Op)
  | setDefinitionState (now : Time) (principalId taskId : String) (state : TaskDefinitionState)
  | bindLaunch (principalId taskId providerKind providerId : String)
  | executeDefinition (request : LaunchRequest) (taskId : String)
  | executeBoundLaunch (request : LaunchRequest) (providerKind providerId : String)
  | advance (c : Nat) (tick : LaunchTick)
  | interrupt (c : Nat)

namespace LaunchService

def withStore (s : LaunchService) (store : LaunchStore) : LaunchService := { s with store }

def setLaunch (s : LaunchService) (c : Nat) (launch : Launch) : LaunchService :=
  { s with launches := s.launches.set c launch }

def begin (s : LaunchService) (request : LaunchRequest) (phase : LaunchPhase) : LaunchService :=
  { s with launches := s.launches ++ [{ request := request, phase }] }

def called {α : Type} (s : LaunchService) (result : Except TaskError α × LaunchStore) :
    Option LaunchService :=
  match result with
  | (.ok _, store) => some (s.withStore store)
  | (.error _, _) => none

def step (env : Env) (s : LaunchService) : LaunchAct → Option LaunchService
  | .repository op =>
    (Tasks.step env s.store.tables op).map (fun runtime => s.withStore { s.store with runtime })
  | .setDefinitionState now principalId taskId state =>
    s.called (commit (setTaskDefinitionState now principalId taskId state) s.store)
  | .bindLaunch principalId taskId providerKind providerId =>
    s.called (commit (bindTaskLaunch principalId taskId providerKind providerId) s.store)
  | .executeDefinition request taskId => some (s.begin request (.preflight taskId))
  | .executeBoundLaunch request providerKind providerId =>
    some (s.begin request (.bound providerKind providerId))
  | .advance c tick => (s.launches[c]?).bind (fun launch =>
    (launch.advance env tick s.store).map (fun next => (s.setLaunch c next.1).withStore next.2))
  | .interrupt c => (s.launches[c]?).bind (fun launch => launch.interrupted.map (s.setLaunch c))

def initial (sessions : Table SessionRow.sessionHandle) (saved : Table TaskDefinitionRow.taskId)
    (bindings : Table LaunchBindingRow.key) : LaunchService where
  store := { runtime := .initial sessions .empty .empty, saved, links := .empty, bindings }

end LaunchService

end Knoa.Tasks
