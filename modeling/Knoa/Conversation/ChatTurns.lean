import Knoa.Tasks.ToolCalls

/-!
# Chat turns

`ConversationRepository`: the turns of a conversation, their tool steps and their approvals. A
call is one transaction.
-/
namespace Knoa.Conversation
open Knoa.Tasks Relational Transaction

inductive ConversationError
  | value (message : String)
  | sessionNotFound
  | turnNotFound (id : String)
  | turnConflict (id : String)
  | sessionConflict (message : String)
  | integrity (constraint : String)
  | assertion
  deriving DecidableEq, Repr

inductive ChatTurnState
  | running
  | waitingApproval
  | completed
  | failed
  | cancelled
  deriving DecidableEq, Repr

/-- `TERMINAL_CHAT_TURN_STATES`. -/
def ChatTurnState.isTerminal : ChatTurnState → Bool
  | .completed | .failed | .cancelled => true
  | .running | .waitingApproval => false

inductive ConversationSessionState
  | active
  | archived
  deriving DecidableEq, Repr

inductive ChatStepState
  | running
  | completed
  | failed
  deriving DecidableEq, Repr

inductive ChatApprovalState
  | pending
  | approved
  | rejected
  | expired
  deriving DecidableEq, Repr

inductive ToolStepStatus
  | completed
  | rejected
  | failed
  | notExecuted
  deriving DecidableEq, Repr

structure ToolStepResult where
  callId : String
  toolName : String
  status : ToolStepStatus
  code : String := ""
  message : String := ""
  output : JsonText := ⟨"null"⟩
  deriving DecidableEq, Repr

structure ConversationSessionRow where
  sessionHandle : String
  principalId : String
  title : String
  state : ConversationSessionState
  createdAt : Time
  updatedAt : Time
  revision : Nat
  deriving DecidableEq

structure ChatTurnRow where
  turnId : String
  principalId : String
  sessionHandle : String
  clientRequestId : String
  userInput : String
  attachments : List ArtifactAttachment
  toolsEnabled : Bool
  state : ChatTurnState
  reasoning : String
  content : String
  finalOutput : String
  artifacts : JsonText
  failureCode : String
  cancelRequested : Bool
  createdAt : Time
  updatedAt : Time
  finishedAt : Option Time
  revision : Nat
  timeline : JsonText
  deriving DecidableEq

structure ChatToolStepRow where
  stepId : String
  turnId : String
  toolCallId : String
  toolName : String
  arguments : JsonText
  state : ChatStepState
  result : Option ToolStepResult
  createdAt : Time
  updatedAt : Time
  deriving DecidableEq

structure ChatApprovalRow where
  approvalId : String
  turnId : String
  stepId : String
  toolCallId : String
  toolName : String
  arguments : JsonText
  reason : String
  state : ChatApprovalState
  createdAt : Time
  resolvedAt : Option Time
  resolvedBy : String
  deriving DecidableEq

structure ConversationStore where
  sessions : Table SessionRow.sessionHandle
  conversations : Table ConversationSessionRow.sessionHandle := .empty
  turns : Table ChatTurnRow.turnId := .empty
  steps : Table ChatToolStepRow.stepId := .empty
  approvals : Table ChatApprovalRow.approvalId := .empty

namespace ConversationStore

variable (s : ConversationStore)

def ownedSession (scope : RuntimeScope) : Except ConversationError SessionRow :=
  orRaise ((s.sessions.lookup scope.sessionHandle).filter
    (fun row => row.principalId == scope.principalId)) .sessionNotFound

def ownConversation (scope : RuntimeScope) : Option ConversationSessionRow :=
  (s.conversations.lookup scope.sessionHandle).filter
    (fun row => row.principalId == scope.principalId)

def ownedTurn (principalId turnId : String) : Except ConversationError ChatTurnRow :=
  orRaise ((s.turns.lookup turnId).filter (fun row => row.principalId == principalId))
    (.turnNotFound turnId)

def ownedApproval (principalId approvalId : String) : Except ConversationError ChatApprovalRow :=
  orRaise ((s.approvals.lookup approvalId).filter (fun row =>
    (s.turns.lookup row.turnId).any (fun turn => turn.principalId == principalId)))
    (.turnNotFound approvalId)

def updateTurns (p : ChatTurnRow → Bool) (f : ChatTurnRow → ChatTurnRow)
    (keep : ∀ row, (f row).turnId = row.turnId := by intro _; rfl) : ConversationStore :=
  { s with turns := s.turns.update p f keep }

def updateSteps (p : ChatToolStepRow → Bool) (f : ChatToolStepRow → ChatToolStepRow)
    (keep : ∀ row, (f row).stepId = row.stepId := by intro _; rfl) : ConversationStore :=
  { s with steps := s.steps.update p f keep }

def updateApprovals (p : ChatApprovalRow → Bool) (f : ChatApprovalRow → ChatApprovalRow)
    (keep : ∀ row, (f row).approvalId = row.approvalId := by intro _; rfl) : ConversationStore :=
  { s with approvals := s.approvals.update p f keep }

/-- `UPDATE conversation_approvals SET state='expired' .. AND state='pending'`. -/
def expirePending (now : Time) (resolvedBy : String) (of : ChatApprovalRow → Bool) :
    ConversationStore :=
  s.updateApprovals (fun row => of row && row.state == .pending) (fun row =>
    { row with state := .expired, resolvedAt := some now, resolvedBy })

/-- The unique columns of the steps. -/
def insertStep (row : ChatToolStepRow) : Option (Table ChatToolStepRow.stepId) :=
  if s.steps.rows.any (fun other =>
      other.turnId == row.turnId && other.toolCallId == row.toolCallId) then none
  else s.steps.insert row

end ConversationStore

/-- `" ".join(text.strip().split())`. -/
def collapsed (text : String) : String :=
  " ".intercalate (((strip text).toList.splitOnP isSpace).filter (· ≠ [])
    |>.map String.ofList)

/-- `_title_from_first_turn`. -/
def titleFromFirstTurn (userInput : String) (attachments : List ArtifactAttachment) : String :=
  let normalized := collapsed userInput
  if normalized ≠ "" then (normalized.take 40).toString
  else
    match (attachments.map (fun attachment => collapsed attachment.caption)).find? (· ≠ "") with
    | some caption => (caption.take 40).toString
    | none => "附件会话"

structure ChatTurnRequest where
  scope : RuntimeScope
  clientRequestId : String
  userInput : String
  attachments : List ArtifactAttachment := []
  toolsEnabled : Bool := true
  deriving DecidableEq

/-- The arguments of `checkpoint`; what is not given is kept. -/
structure Checkpoint where
  state : Option ChatTurnState := none
  reasoning : Option String := none
  content : Option String := none
  finalOutput : Option String := none
  timeline : Option JsonText := none
  artifacts : Option JsonText := none
  failureCode : Option String := none
  cancelRequested : Option Bool := none
  revision : Option Nat := none
  finished : Bool := false
  deriving DecidableEq

/-- The turns that `recover_interrupted` fails. -/
def ChatTurnState.isInterrupted : ChatTurnState → Bool
  | .running | .waitingApproval => true
  | _ => false

section Operations

variable (now : Time)

def openConversation (title : String) (scope : RuntimeScope) (s : ConversationStore) :
    Except ConversationError (Table ConversationSessionRow.sessionHandle) :=
  if (s.ownConversation scope).isSome then .ok s.conversations
  else orRaise (s.conversations.insert
    { sessionHandle := scope.sessionHandle, principalId := scope.principalId, title,
      state := .active, createdAt := now, updatedAt := now,
      revision := 1 }) (.integrity "conversation_sessions")

def create (turnId : String) (request : ChatTurnRequest) :
    Body ConversationStore ConversationError (ChatTurnRow × Bool) := fun s => do
  require (strip request.userInput ≠ "" ∨ request.attachments ≠ [])
    (.value "ChatTurn requires input or an attachment")
  let scope := request.scope
  let _ ← s.ownedSession scope
  match s.turns.rows.find? (fun row => row.principalId == scope.principalId &&
      row.clientRequestId == request.clientRequestId) with
  | some turn => do
    require (turn.sessionHandle = scope.sessionHandle ∧ turn.userInput = request.userInput ∧
        turn.attachments = request.attachments ∧ turn.toolsEnabled = request.toolsEnabled)
      (.turnConflict request.clientRequestId)
    return ((turn, false), s)
  | none => do
    require ((s.ownConversation scope).all (fun row => row.state == .active))
      (.sessionConflict "Archived conversations cannot accept new turns")
    let title := titleFromFirstTurn request.userInput request.attachments
    let conversations ← openConversation now title scope s
    let row : ChatTurnRow :=
      { turnId := strip turnId, principalId := scope.principalId,
        sessionHandle := scope.sessionHandle, clientRequestId := request.clientRequestId,
        userInput := request.userInput, attachments := request.attachments,
        toolsEnabled := request.toolsEnabled, state := .running, reasoning := "", content := "",
        finalOutput := "", artifacts := ⟨"[]"⟩, failureCode := "", cancelRequested := false,
        createdAt := now, updatedAt := now, finishedAt := none, revision := 1, timeline := ⟨"[]"⟩ }
    let turns ← orRaise (s.turns.insert row) (.integrity "conversation_turns")
    let conversations := conversations.update (fun other =>
        other.sessionHandle == scope.sessionHandle && other.principalId == scope.principalId)
      (fun other =>
        { other with
          title := if other.title = "新对话" then title else other.title, updatedAt := now,
          revision := other.revision + 1 }) (by intro _; rfl)
    return ((row, true), { s with conversations, turns })

def checkpoint (principalId turnId : String) (values : Checkpoint) :
    Body ConversationStore ConversationError ChatTurnRow := fun s => do
  let current ← s.ownedTurn principalId turnId
  if current.state.isTerminal then return (current, s)
  else do
    let nextState := values.state.getD current.state
    require (¬(values.finished = true ∧ nextState.isTerminal = false))
      (.value "A finished ChatTurn must be terminal")
    require (¬(values.finished = false ∧ nextState.isTerminal = true))
      (.value "A terminal ChatTurn must be finished")
    let written := s.updateTurns (fun row => row.turnId == turnId) (fun row =>
      { row with
        state := nextState, reasoning := values.reasoning.getD row.reasoning,
        content := values.content.getD row.content,
        finalOutput := values.finalOutput.getD row.finalOutput,
        timeline := values.timeline.getD row.timeline,
        artifacts := values.artifacts.getD row.artifacts,
        failureCode := values.failureCode.getD row.failureCode,
        cancelRequested := values.cancelRequested.getD row.cancelRequested, updatedAt := now,
        finishedAt := if values.finished then some now else row.finishedAt,
        revision := max (row.revision + 1) (values.revision.getD 0) })
    let stored := if values.finished
      then written.expirePending now "turn_finished" (fun row => row.turnId == turnId)
      else written
    let updated ← stored.ownedTurn principalId turnId
    return (updated, stored)

def requestCancel (principalId turnId : String) :
    Body ConversationStore ConversationError ChatTurnRow := fun s => do
  let _ ← s.ownedTurn principalId turnId
  let stored := s.updateTurns (fun row => row.turnId == turnId && !row.state.isTerminal)
    (fun row =>
      { row with cancelRequested := true, updatedAt := now, revision := row.revision + 1 })
  let updated ← stored.ownedTurn principalId turnId
  return (updated, stored)

def recoverInterrupted :
    Body ConversationStore ConversationError (List ChatTurnRow) := fun s => do
  let interrupted := s.turns.rows.filter (fun row => row.state.isInterrupted)
  let failed := s.updateTurns (fun row => row.state.isInterrupted) (fun row =>
    { row with
      state := .failed, failureCode := "service_restarted", updatedAt := now,
      finishedAt := some now, revision := row.revision + 1 })
  let stored := failed.expirePending now "service_restart" (fun _ => true)
  let turns ← interrupted.mapM (fun row => stored.ownedTurn row.principalId row.turnId)
  return (turns, stored)

def beginToolStep (principalId turnId stepId : String) (call : ProposedToolCall) :
    Body ConversationStore ConversationError (ChatToolStepRow × Bool) := fun s => do
  let _ ← s.ownedTurn principalId turnId
  match s.steps.lookup stepId with
  | none => do
    let row : ChatToolStepRow :=
      { stepId, turnId, toolCallId := call.callId, toolName := call.name,
        arguments := call.arguments, state := .running, result := none, createdAt := now,
        updatedAt := now }
    let steps ← orRaise (s.insertStep row) (.integrity "conversation_tool_steps")
    return ((row, true), { s with steps })
  | some existing => do
    require (existing.turnId = turnId ∧ existing.toolCallId = call.callId ∧
        existing.toolName = call.name ∧ existing.arguments = call.arguments)
      (.turnConflict stepId)
    return ((existing, false), s)

def ToolStepResult.stepState (result : ToolStepResult) : ChatStepState :=
  if result.status = .completed then .completed else .failed

def finishToolStep (principalId turnId stepId : String) (result : ToolStepResult) :
    Body ConversationStore ConversationError ChatToolStepRow := fun s => do
  let _ ← s.ownedTurn principalId turnId
  let stored := s.updateSteps (fun row => row.stepId == stepId && row.turnId == turnId)
    (fun row => { row with state := result.stepState, result := some result, updatedAt := now })
  let step ← orRaise ((stored.steps.lookup stepId).filter (fun row => row.turnId == turnId))
    (.turnNotFound stepId)
  return (step, stored)

def requestApproval (principalId turnId stepId approvalId : String) (call : ProposedToolCall)
    (reason : String) :
    Body ConversationStore ConversationError (ChatApprovalRow × Bool) := fun s => do
  let _ ← s.ownedTurn principalId turnId
  match s.approvals.rows.find? (fun row => row.turnId == turnId && row.stepId == stepId) with
  | some approval => return ((approval, false), s)
  | none => do
    let row : ChatApprovalRow :=
      { approvalId := strip approvalId, turnId, stepId,
        toolCallId := call.callId, toolName := call.name, arguments := call.arguments,
        reason, state := .pending, createdAt := now, resolvedAt := none, resolvedBy := "" }
    let approvals ← orRaise (s.approvals.insert row) (.integrity "conversation_approvals")
    let stored := { s with approvals }.updateTurns
      (fun turn => turn.turnId == turnId)
      (fun turn =>
        { turn with state := .waitingApproval, updatedAt := now, revision := turn.revision + 1 })
    return ((row, true), stored)

def resolveApproval (principalId approvalId : String) (approved : Bool) (resolvedBy : String) :
    Body ConversationStore ConversationError (ChatApprovalRow × Bool × String) := fun s => do
  let row ← s.ownedApproval principalId approvalId
  let changed := row.state == .pending
  let stored :=
    if changed then
      (s.updateApprovals (fun other => other.approvalId == approvalId) (fun other =>
        { other with
          state := if approved then .approved else .rejected, resolvedAt := some now,
          resolvedBy })).updateTurns
        (fun turn => turn.turnId == row.turnId)
        (fun turn =>
          { turn with state := .running, updatedAt := now, revision := turn.revision + 1 })
    else s
  let resolved ← orRaise (stored.approvals.lookup approvalId) .assertion
  return ((resolved, changed, row.turnId), stored)

def expirePendingApprovals (principalId turnId resolvedBy : String) :
    Body ConversationStore ConversationError (List String) := fun s => do
  let _ ← s.ownedTurn principalId turnId
  let pending := s.approvals.rows.filter (fun row => row.turnId == turnId && row.state == .pending)
  let before := fun (a b : ChatApprovalRow) =>
    a.createdAt < b.createdAt ∨ a.createdAt = b.createdAt ∧ a.approvalId ≤ b.approvalId
  let ids := (pending.insertionSort before).map ChatApprovalRow.approvalId
  return (ids, s.expirePending now resolvedBy (fun row => row.turnId == turnId))

end Operations

/-- A call of the repository, with the time and the ids it draws. -/
inductive ConversationOp
  | create (now : Time) (turnId : String) (request : ChatTurnRequest)
  | checkpoint (now : Time) (principalId turnId : String) (values : Checkpoint)
  | requestCancel (now : Time) (principalId turnId : String)
  | recoverInterrupted (now : Time)
  | beginToolStep (now : Time) (principalId turnId stepId : String) (call : ProposedToolCall)
  | finishToolStep (now : Time) (principalId turnId stepId : String) (result : ToolStepResult)
  | requestApproval (now : Time) (principalId turnId stepId approvalId : String)
      (call : ProposedToolCall) (reason : String)
  | resolveApproval (now : Time) (principalId approvalId : String) (approved : Bool)
      (resolvedBy : String)
  | expirePendingApprovals (now : Time) (principalId turnId resolvedBy : String)

namespace ConversationStore

/-- The store that a call leaves, where it returns. -/
def outcome {α : Type} (result : Except ConversationError α × ConversationStore) :
    Option ConversationStore :=
  match result with
  | (.ok _, s) => some s
  | (.error _, _) => none

def step (s : ConversationStore) : ConversationOp → Option ConversationStore
  | .create now turnId request => outcome (commit (create now turnId request) s)
  | .checkpoint now principalId turnId values =>
    outcome (commit (checkpoint now principalId turnId values) s)
  | .requestCancel now principalId turnId => outcome (commit (requestCancel now principalId turnId) s)
  | .recoverInterrupted now => outcome (commit (recoverInterrupted now) s)
  | .beginToolStep now principalId turnId stepId call =>
    outcome (commit (beginToolStep now principalId turnId stepId call) s)
  | .finishToolStep now principalId turnId stepId result =>
    outcome (commit (finishToolStep now principalId turnId stepId result) s)
  | .requestApproval now principalId turnId stepId approvalId call reason =>
    outcome (commit (requestApproval now principalId turnId stepId approvalId call reason) s)
  | .resolveApproval now principalId approvalId approved resolvedBy =>
    outcome (commit (resolveApproval now principalId approvalId approved resolvedBy) s)
  | .expirePendingApprovals now principalId turnId resolvedBy =>
    outcome (commit (expirePendingApprovals now principalId turnId resolvedBy) s)

def initial (sessions : Table SessionRow.sessionHandle) : ConversationStore where
  sessions := sessions

end ConversationStore

end Knoa.Conversation
