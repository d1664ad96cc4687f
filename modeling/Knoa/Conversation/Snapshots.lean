import Knoa.Conversation.Interactions
import Knoa.Conversation.LiveUpdates

/-!
# Snapshots of a turn

`ConversationService.get_turn`, a step for each query: the row, the tool steps, the approvals, the
interactions, and last the live text.
-/
namespace Knoa.Conversation
open Knoa.Tasks (JsonText Time)
open Relational (Table)

/-- A `ChatTurn` as it is returned. -/
structure ChatTurn where
  row : ChatTurnRow
  toolSteps : List ChatToolStepRow
  approvals : List ChatApprovalRow
  interactions : List HumanInteraction := []
  deriving DecidableEq

def ChatTurn.revision (turn : ChatTurn) : Nat := turn.row.revision

/-- All that a client sees but the revision. -/
def ChatTurn.visible (turn : ChatTurn) : ChatTurn :=
  { turn with row := { turn.row with revision := 0 } }

/-- `ORDER BY created_at, key` -/
def byCreation {α : Type} (createdAt : α → Time) (key : α → String) (a b : α) : Prop :=
  createdAt a < createdAt b ∨ createdAt a = createdAt b ∧ key a ≤ key b

instance {α : Type} (createdAt : α → Time) (key : α → String) :
    DecidableRel (byCreation createdAt key) := fun _ _ => inferInstanceAs (Decidable (_ ∨ _))

def ConversationStore.toolStepsOf (s : ConversationStore) (turnId : String) :
    List ChatToolStepRow :=
  (s.steps.owned ChatToolStepRow.turnId turnId).insertionSort
    (byCreation ChatToolStepRow.createdAt ChatToolStepRow.stepId)

def ConversationStore.approvalsOf (s : ConversationStore) (turnId : String) :
    List ChatApprovalRow :=
  (s.approvals.owned ChatApprovalRow.turnId turnId).insertionSort
    (byCreation ChatApprovalRow.createdAt ChatApprovalRow.approvalId)

abbrev InteractionTable := Table HumanInteraction.interactionId

def HumanInteraction.owner (record : HumanInteraction) : String × OwnerKind × String :=
  (record.principalId, record.ownerKind, record.ownerId)

/-- `list_owner` -/
def listOwner (interactions : InteractionTable) (owner : String × OwnerKind × String) :
    List HumanInteraction :=
  (interactions.owned HumanInteraction.owner owner).insertionSort
    (byCreation HumanInteraction.createdAt HumanInteraction.interactionId)

def HumanInteraction.key (record : HumanInteraction) : InteractionKey where
  runtimeSessionRef := record.runtimeSessionRef
  runtimeTurnRef := record.runtimeTurnRef
  runtimeInteractionId := record.runtimeInteractionId
  interactionEpoch := record.interactionEpoch

/-- Where a `get_turn` stands, with what it has read. -/
inductive GetPhase
  | row (principalId : String)
  | toolSteps (principalId : String) (row : ChatTurnRow)
  | approvals (principalId : String) (row : ChatTurnRow) (toolSteps : List ChatToolStepRow)
  | interactions (principalId : String) (turn : ChatTurn)
  | composing (turn : ChatTurn)
  | ended
  deriving DecidableEq

structure TurnViews where
  store : ConversationStore
  interactions : InteractionTable
  turnId : String
  live : Option LiveTurn
  gets : List GetPhase := []
  /-- What `get_turn` has returned, in order. -/
  returned : List ChatTurn := []

namespace TurnViews

variable (s : TurnViews)

def turn : Option ChatTurnRow := s.store.turns.lookup s.turnId

def owner (principalId : String) : String × OwnerKind × String :=
  (principalId, .conversationTurn, s.turnId)

/-- The merge of the live text into what was read. -/
def compose (turn : ChatTurn) : ChatTurn :=
  match s.live with
  | none => turn
  | some live =>
    if turn.row.state.isTerminal = true then turn
    else
      { turn with
        row :=
          { turn.row with
            reasoning := live.text.reasoning, content := live.text.content,
            finalOutput := live.text.finalOutput, timeline := live.text.timeline,
            artifacts := live.text.artifacts, revision := max live.revision turn.row.revision } }

/-- The next query of a `get_turn`. -/
def query : GetPhase → GetPhase
  | .row principalId =>
    match s.turn.filter fun row => row.principalId == principalId with
    | none => .ended
    | some row => .toolSteps principalId row
  | .toolSteps principalId row => .approvals principalId row (s.store.toolStepsOf s.turnId)
  | .approvals principalId row toolSteps =>
    .interactions principalId { row, toolSteps, approvals := s.store.approvalsOf s.turnId }
  | .interactions principalId turn =>
    .composing { turn with interactions := listOwner s.interactions (s.owner principalId) }
  | .composing _ => .ended
  | .ended => .ended

/-- The last step of a `get_turn`. -/
def give (turn : ChatTurn) : TurnViews :=
  { s with
    live := s.live.map (LiveTurn.observe turn.row), returned := s.returned ++ [s.compose turn] }

def freeOwner (request : InteractionRequest) : Bool :=
  s.interactions.rows.all fun record =>
    record.state != .pending ||
      record.owner != (request.principalId, request.ownerKind, request.ownerId)

end TurnViews

inductive ViewAct
  | repository (op : ConversationOp)
  | event (text : Option LiveText)
  | request (key : InteractionKey) (request : InteractionRequest) (now : Time)
      (interactionId : String)
  | settle (interactionId : String) (call : InteractionCall) (now : Time)
  | getTurn (principalId : String)
  | query (i : Nat)
  /-- The execution of the turn is over and its live text goes. -/
  | pop

/-- What a call makes of an interaction. -/
def HumanInteraction.settled (record : HumanInteraction) (after : HumanInteraction) :
    HumanInteraction :=
  { record with
    state := after.state, resolution := after.resolution, resolvedAt := after.resolvedAt,
    resolvedBy := after.resolvedBy }

namespace TurnViews

def step (env : SchemaEnv) (s : TurnViews) : ViewAct → Option TurnViews
  | .repository op => (s.store.step op).map fun store => { s with store }
  | .event text => s.live.map fun live =>
    match text with
    | none => s
    | some text => { s with live := some { live with text, revision := live.revision + 1 } }
  | .request key request now interactionId =>
    match requestInteraction env key (s.interactions.rows.find? fun record => record.key == key)
        request now interactionId (s.freeOwner request) with
    | none => none
    | some (record, created) =>
      if created = true then
        (s.interactions.insert record).map fun interactions => { s with interactions }
      else some s
  | .settle interactionId call now =>
    match call.write env (s.interactions.lookup interactionId) now with
    | none => none
    | some (after, _) =>
      some { s with
        interactions := s.interactions.update (fun record =>
          record.interactionId == interactionId) (fun record => record.settled after)
          (fun _ => rfl) }
  | .getTurn principalId => some { s with gets := s.gets ++ [.row principalId] }
  | .query i =>
    match s.gets[i]? with
    | none => none
    | some .ended => none
    | some (.composing turn) => some { s.give turn with gets := s.gets.set i .ended }
    | some phase => some { s with gets := s.gets.set i (s.query phase) }
  | .pop => some { s with live := none }

end TurnViews

/-- `merged.set(turn.turn_id, turn)` -/
def mergeTurn (merged : List ChatTurn) (turn : ChatTurn) : List ChatTurn :=
  match merged with
  | [] => [turn]
  | current :: merged =>
    if current.row.turnId = turn.row.turnId then
      (if current.revision < turn.revision then turn else current) :: merged
    else current :: mergeTurn merged turn

/-- `mergeConversationTurns`; `localeLe` is the order of `localeCompare`. -/
def mergeConversationTurns (localeLe : String → String → Bool)
    (collections : List (List ChatTurn)) : List ChatTurn :=
  (collections.flatten.foldl mergeTurn []).insertionSort fun left right =>
    left.row.createdAt < right.row.createdAt ∨
      left.row.createdAt = right.row.createdAt ∧ localeLe left.row.turnId right.row.turnId = true

end Knoa.Conversation
