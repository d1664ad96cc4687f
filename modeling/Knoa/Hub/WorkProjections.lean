import Knoa.Conversation.ChatTurns
import Knoa.Hub.WebhookOutbox
import Knoa.Tasks.Launches

/-!
# The projections of a Node's work

`_publish_work_projections` of a Node for one of its principals, and `work_projections` of the Hub.
Between two steps the databases of the Node may change.
-/
namespace Knoa.Hub

open Knoa.Tasks Knoa.Conversation Relational
open Transaction (Body require)

inductive UserWorkStatus
  | queued | working | waitingForYou | completed | failed | paused | cancelled
  deriving DecidableEq

inductive SideEffect
  | none | possible | unknown
  deriving DecidableEq

inductive RecommendedAction
  | wait | respond | retry | resume | none
  deriving DecidableEq

structure UserWorkStatusInfo where
  status : UserWorkStatus
  terminal : Bool
  requiresUser : Bool
  recoverable : Bool
  sideEffect : SideEffect
  recommendedAction : RecommendedAction
  deriving DecidableEq

def taskWorkStatus (state : TaskState) (pendingApprovalCount : Nat) : UserWorkStatusInfo :=
  if 0 < pendingApprovalCount ∨ state = .waitingApproval then
    { status := .waitingForYou, terminal := false, requiresUser := true, recoverable := true
      sideEffect := .none, recommendedAction := .respond }
  else
    match state with
    | .queued =>
      { status := .queued, terminal := false, requiresUser := false, recoverable := false
        sideEffect := .none, recommendedAction := .wait }
    | .running =>
      { status := .working, terminal := false, requiresUser := false, recoverable := false
        sideEffect := .none, recommendedAction := .wait }
    | .paused =>
      { status := .paused, terminal := false, requiresUser := true, recoverable := true
        sideEffect := .possible, recommendedAction := .resume }
    | .completed =>
      { status := .completed, terminal := true, requiresUser := false, recoverable := false
        sideEffect := .none, recommendedAction := .none }
    | .cancelled =>
      { status := .cancelled, terminal := true, requiresUser := false, recoverable := true
        sideEffect := .possible, recommendedAction := .retry }
    | .waitingApproval | .failed =>
      { status := .failed, terminal := true, requiresUser := true, recoverable := true
        sideEffect := .unknown, recommendedAction := .retry }

def productTaskWorkStatus (taskState : TaskDefinitionState) (executionState : Option TaskState)
    (pendingApprovalCount : Nat) : Option UserWorkStatusInfo :=
  match taskState with
  | .archived => none
  | .paused => some (taskWorkStatus .paused 0)
  | .active => some (taskWorkStatus (executionState.getD .queued) pendingApprovalCount)

inductive WorkKind
  | conversation
  | task
  deriving DecidableEq

inductive WorkPayload
  | conversation (agentId : String) (turnCount : Nat) (lastTurnAt : Option Time)
  | task (agentId launchKind latestExecutionId : String) (executionCount : Nat)
      (latestExecutionPhase latestExecutionFailureCode : String)
      (workStatus : Option UserWorkStatusInfo)
  deriving DecidableEq

structure Projection where
  entityKind : WorkKind
  entityId : String
  principalId : String
  title : String
  state : String
  summary : String := ""
  approvalSummary : String := ""
  sourceGeneration : Nat
  projectionSeq : Int
  payload : WorkPayload
  deriving DecidableEq

def Projection.key (item : Projection) : WorkKind × String := (item.entityKind, item.entityId)

def Projection.shown (item : Projection) : String × String × WorkPayload :=
  (item.title, item.state, item.payload)

def sessionStateValue : ConversationSessionState → String
  | .active => "active"
  | .archived => "archived"

def definitionStateValue : TaskDefinitionState → String
  | .active => "active"
  | .paused => "paused"
  | .archived => "archived"

structure WorkNode where
  chats : ConversationStore
  tasks : LaunchStore

/-- The arguments of `update_task_definition`. -/
structure TaskEdit where
  title : Option String := none
  goal : Option String := none
  attachments : Option (List ArtifactAttachment) := none
  toolsEnabled : Option Bool := none
  priority : Option Int := none
  launchPolicy : Option JsonText := none
  notificationPolicy : Option (List (String × Bool)) := none
  expectedRevision : Option Int := none

/-- Where `splitlines` breaks. -/
def isLineBreak (c : Char) : Bool :=
  c ∈ ['\n', '\r', '\x0b', '\x0c', '\x1c', '\x1d', '\x1e', '\u0085', '\u2028', '\u2029']

/-- `_task_title`. -/
def taskTitle (title goal : String) : Except TaskError String := do
  let normalized := collapsed title
  let normalized :=
    if normalized ≠ "" then normalized
    else collapsed (String.ofList ((strip goal).toList.takeWhile fun c => !isLineBreak c))
  require (normalized ≠ "") (.value "Task title must not be empty")
  return (normalized.take 200).toString

def updateTaskDefinition (now : Time) (principalId taskId : String) (edit : TaskEdit) :
    Body LaunchStore TaskError TaskDefinitionRow := fun s => do
  let current ← getTaskDefinition s principalId taskId
  require (edit.expectedRevision.all fun revision => (current.revision : Int) = revision)
    (.transition "Task definition changed; refresh before editing")
  let goal := (edit.goal.map strip).getD current.goal
  require (goal ≠ "" ∧ goal.length ≤ 200000) (.value "Task goal must contain 1-200000 characters")
  let title ← taskTitle (edit.title.getD current.title) goal
  let priority := edit.priority.getD current.priority
  require (0 ≤ priority ∧ priority ≤ 9) (.value "Task priority must be between 0 and 9")
  let attachments := edit.attachments.getD current.attachments
  require (attachments.length ≤ 8) (.value "Task accepts at most eight attachments")
  let notifications := edit.notificationPolicy.getD current.notificationPolicy
  require (notifications.length ≤ 32 ∧ ∀ entry ∈ notifications,
      strip entry.1 ≠ "" ∧ entry.1.length ≤ 64) (.value "Task notification policy is invalid")
  let stored := s.updateDefinition current.taskId fun row =>
    { row with
      title, goal, attachments,
      toolsEnabled := edit.toolsEnabled.getD current.toolsEnabled, priority,
      notificationPolicy := notifications, launchPolicy := edit.launchPolicy.getD row.launchPolicy,
      revision := row.revision + 1, updatedAt := now }
  let updated ← getTaskDefinition stored principalId taskId
  return (updated, stored)

section Listing

variable (launchKind : JsonText → String) (node : WorkNode) (principalId : String)

/-- `ORDER BY updated_at DESC, session_handle DESC`. -/
def sessionNewer (a b : ConversationSessionRow) : Prop :=
  b.updatedAt < a.updatedAt ∨ b.updatedAt = a.updatedAt ∧ b.sessionHandle ≤ a.sessionHandle

instance : DecidableRel sessionNewer := fun a b => by unfold sessionNewer; infer_instance

/-- `ORDER BY tasks.updated_at DESC, tasks.task_id DESC`. -/
def definitionNewer (a b : TaskDefinitionRow) : Prop :=
  b.updatedAt < a.updatedAt ∨ b.updatedAt = a.updatedAt ∧ b.taskId ≤ a.taskId

instance : DecidableRel definitionNewer := fun a b => by unfold definitionNewer; infer_instance

/-- `list_sessions` with the archived ones, its first page. -/
def listSessions (limit : Nat) : List ConversationSessionRow :=
  ((node.chats.conversations.rows.filter fun row => row.principalId == principalId).insertionSort
    sessionNewer).take limit

/-- `list_task_definitions` with the archived ones. -/
def listTaskDefinitions (limit : Nat) : List TaskDefinitionRow :=
  ((node.tasks.saved.rows.filter fun row => row.principalId == principalId).insertionSort
    definitionNewer).take limit

def conversationProjection (row : ConversationSessionRow) : Projection :=
  let turns := node.chats.turns.rows.filter fun turn => turn.sessionHandle == row.sessionHandle
  { entityKind := .conversation, entityId := row.sessionHandle, principalId,
    title := row.title, state := sessionStateValue row.state, sourceGeneration := row.revision,
    projectionSeq := row.revision, payload := .conversation
      (((node.chats.sessions.lookup row.sessionHandle).map fun session => session.agentId).getD "")
      turns.length (turns.map fun turn => turn.createdAt).max? }

def latestExecution (row : TaskDefinitionRow) : Option TaskRow :=
  row.latestExecutionId.bind node.tasks.runtime.tasks.lookup

/-- `latest_execution_updated_at or updated_at`. -/
def workUpdatedAt (row : TaskDefinitionRow) : Time :=
  (((latestExecution node row).map fun task => task.updatedAt).filter (· ≠ 0)).getD row.updatedAt

def taskProjection (row : TaskDefinitionRow) : Projection :=
  let latest := latestExecution node row
  let pending := node.tasks.runtime.approvals.rows.countP fun approval =>
    some approval.taskId == row.latestExecutionId && approval.state == .pending
  { entityKind := .task, entityId := row.taskId, principalId, title := row.title,
    state := (latest.map fun task => task.state.value).getD (definitionStateValue row.state),
    summary := (latest.map fun task => (task.finalSummary.take 2000).toString).getD "",
    approvalSummary := if pending = 0 then "" else toString pending ++ " approval(s) pending",
    sourceGeneration := row.revision, projectionSeq := max 1 ⌊workUpdatedAt node row * 1000000⌋,
    payload := .task row.agentId (launchKind row.launchPolicy) (row.latestExecutionId.getD "")
      (node.tasks.links.rows.countP fun link => link.taskId == row.taskId)
      ((latest.map fun task => task.phase).getD "")
      ((latest.map fun task => task.failureCode).getD "")
      (productTaskWorkStatus row.state (latest.map fun task => task.state) pending) }

def conversationItems : List Projection :=
  ((listSessions node principalId 200).filter fun row => row.state != .archived).map
    (conversationProjection node principalId)

def taskItems : List Projection :=
  ((listTaskDefinitions node principalId 200).filter fun row => row.state != .archived).map
    (taskProjection launchKind node principalId)

/-- What the Hub should have of an entity: nothing, unless it is there and not archived. -/
def currentWork : WorkKind × String → Option Projection
  | (.conversation, sessionHandle) =>
    ((node.chats.conversations.lookup sessionHandle).filter fun row =>
      row.principalId == principalId && row.state != .archived).map
        (conversationProjection node principalId)
  | (.task, taskId) =>
    ((node.tasks.saved.lookup taskId).filter fun row =>
      row.principalId == principalId && row.state != .archived).map
        (taskProjection launchKind node principalId)

end Listing

inductive WorkRequest
  | publish (item : Projection)
  | reconcile (entityKind : WorkKind) (principalId : String) (activeEntityIds : List String)

def WorkRequest.principalId : WorkRequest → String
  | .publish item => item.principalId
  | .reconcile _ principalId _ => principalId

structure WorkRow where
  nodeId : String
  item : Projection
  projectedAt : Time
  deriving DecidableEq

def WorkRow.key (row : WorkRow) : WorkKind × String := row.item.key

abbrev WorkTable := Table WorkRow.key

section Hub

variable (rows : WorkTable)

def putWorkProjection (nodeId : String) (item : Projection) (now : Time) : WorkTable :=
  match rows.lookup item.key with
  | some existing =>
    if item.projectionSeq ≤ existing.item.projectionSeq then rows
    else rows.upsert { nodeId, item, projectedAt := now }
  | none => rows.upsert { nodeId, item, projectedAt := now }

def pruneWorkProjections (nodeId : String) (entityKind : WorkKind) (principalId : String)
    (activeEntityIds : List String) : WorkTable :=
  rows.delete fun row => row.nodeId == nodeId && row.item.entityKind == entityKind &&
    row.item.principalId == principalId && !decide (row.item.entityId ∈ activeEntityIds)

def putRequest (nodeId : String) (now : Time) : WorkRequest → WorkTable
  | .publish item => putWorkProjection rows nodeId item now
  | .reconcile entityKind principalId ids =>
    pruneWorkProjections rows nodeId entityKind principalId ids

/-- `publish_work_projection` and `reconcile_work_projections` of a request with a good signature;
`none` where they raise. -/
def receiveWork (nodeId : String) (observedAt now : Time) (request : WorkRequest) :
    Option WorkTable :=
  if 120 < |observedAt - now| then none else some (putRequest rows nodeId now request)

end Hub

/-- Where `_publish_work_projections` is. -/
inductive WorkRound
  | idle
  | listed (conversations : List Projection)
  | sending (rest : List WorkRequest)

def activeIds (entityKind : WorkKind) (items : List Projection) : List String :=
  (items.filter fun item => item.entityKind == entityKind).map Projection.entityId

def workRequests (principalId : String) (items : List Projection) : List WorkRequest :=
  items.map .publish ++
    [.reconcile .conversation principalId (activeIds .conversation items),
      .reconcile .task principalId (activeIds .task items)]

structure WorkSystem where
  node : WorkNode
  rows : WorkTable := .empty
  now : Time := 0
  round : WorkRound := .idle
  sent : List (Time × WorkRequest) := []

inductive WorkLabel
  | clock (now : Time)
  | work (node : WorkNode)
  | listConversations
  | listTasks
  | send (observedAt : Time) (request : Exchanged)
  /-- A request that was sent before arrives, late or again. -/
  | arrive (index : Nat)
  /-- A request of another Node, or for another principal. -/
  | other (nodeId : String) (observedAt : Time) (request : WorkRequest)
  | crash

section Steps

variable (launchKind : JsonText → String) (nodeId principalId : String)

def workStep (s : WorkSystem) : WorkLabel → Option WorkSystem
  | .clock now => if s.now ≤ now then some { s with now } else none
  | .work node => some { s with node }
  | .listConversations =>
    match s.round with
    | .idle => some { s with round := .listed (conversationItems s.node principalId) }
    | _ => none
  | .listTasks =>
    match s.round with
    | .listed conversations =>
      some { s with
        round := .sending (workRequests principalId
          (conversations ++ taskItems launchKind s.node principalId)) }
    | _ => none
  | .send observedAt request =>
    match s.round with
    | .sending (next :: rest) =>
      let sent := s.sent ++ [(observedAt, next)]
      let received := receiveWork s.rows nodeId observedAt s.now next
      match request, received with
      | .answered, some rows =>
        some { s with
          rows, sent, round := if rest.isEmpty then .idle else .sending rest }
      -- an error or a lost answer ends the round
      | .answerLost, some rows => some { s with rows, sent, round := .idle }
      | _, _ => some { s with sent, round := .idle }
    | _ => none
  | .arrive index => do
    let (observedAt, request) ← s.sent[index]?
    let rows ← receiveWork s.rows nodeId observedAt s.now request
    return { s with rows }
  | .other otherId observedAt request => do
    guard (otherId ≠ nodeId ∨ request.principalId ≠ principalId)
    let rows ← receiveWork s.rows otherId observedAt s.now request
    return { s with rows }
  | .crash => some { s with round := .idle }

def completeRoundLabels (s : WorkSystem) : List WorkLabel :=
  [.listConversations, .listTasks] ++
    List.replicate (workRequests principalId (conversationItems s.node principalId ++
      taskItems launchKind s.node principalId)).length (.send s.now .answered)

def completeRound (s : WorkSystem) : WorkSystem :=
  Transition.final (workStep launchKind nodeId principalId) s
    (completeRoundLabels launchKind principalId s)

def hubWork (rows : WorkTable) (key : WorkKind × String) : Option Projection :=
  ((rows.lookup key).filter fun row =>
    row.nodeId == nodeId && row.item.principalId == principalId).map WorkRow.item

/-- The Hub's rows of the Node and the principal are the current work, with its titles, states and
payloads. -/
def Converged (s : WorkSystem) : Prop :=
  ∀ key, (hubWork nodeId principalId s.rows key).map Projection.shown =
    (currentWork launchKind s.node principalId key).map Projection.shown

/-- Everything current is on the two pages, and a row of the Hub that a projection does not
replace already says the same. -/
structure Publishable (s : WorkSystem) : Prop where
  listed : ∀ key item, currentWork launchKind s.node principalId key = some item →
    item ∈ conversationItems s.node principalId ++ taskItems launchKind s.node principalId
  advanced : ∀ item ∈ conversationItems s.node principalId ++
      taskItems launchKind s.node principalId, ∀ row, s.rows.lookup item.key = some row →
    item.projectionSeq ≤ row.item.projectionSeq →
      row.nodeId = nodeId ∧ row.item.principalId = principalId ∧ row.item.shown = item.shown

end Steps

end Knoa.Hub
