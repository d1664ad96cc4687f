import Knoa.Library.Table
import Knoa.Library.Transaction
import Knoa.Tasks.Models

/-!
# Task tables

The tables of `tasks/schema.py` with the columns the repository reads and writes. A row is held as
its decoded columns, so `_record` and its siblings are the identity.
-/
namespace Knoa.Tasks
open Relational (Table)

structure SessionRow where
  sessionHandle : String
  principalId : String
  agentId : String
  deriving DecidableEq, Repr

structure TaskRow where
  taskId : String
  principalId : String
  sessionHandle : String
  agentId : String
  clientRequestId : String
  origin : TaskOrigin
  parentTaskId : Option String
  goal : String
  attachments : List ArtifactAttachment
  toolsEnabled : Bool
  priority : Int
  state : TaskState
  phase : String
  attemptCount : Nat
  cancelRequested : Bool
  finalSummary : String
  failureCode : String
  leaseOwner : String
  leaseExpiresAt : Option Time
  createdAt : Time
  updatedAt : Time
  startedAt : Option Time
  finishedAt : Option Time
  nextEventSeq : Nat
  revision : Nat
  deriving DecidableEq, Repr

structure EventRow where
  taskId : String
  eventSeq : Nat
  eventType : TaskEventType
  payload : TaskEventPayload
  occurredAt : Time
  deriving DecidableEq, Repr

def EventRow.key (row : EventRow) : String × Nat := (row.taskId, row.eventSeq)

structure FeedRow where
  feedEventId : Nat
  principalId : String
  taskId : String
  taskEventSeq : Nat
  occurredAt : Time
  deriving DecidableEq, Repr

structure AttemptRow where
  attemptId : String
  taskId : String
  ordinal : Nat
  state : TaskAttemptState
  startedAt : Time
  finishedAt : Option Time
  failureCode : String
  deriving DecidableEq, Repr

structure TraceRow where
  taskId : String
  entries : List TaskTraceEntry
  finalOutput : String
  createdAt : Time
  updatedAt : Time
  retainedUntil : Time
  compactedAt : Option Time
  revision : Nat
  deriving DecidableEq, Repr

structure ToolStepRow where
  toolStepId : String
  taskId : String
  principalId : String
  toolCallId : String
  toolName : String
  arguments : JsonText
  effect : String
  risk : String
  state : TaskToolStepState
  result : JsonText
  createdAt : Time
  updatedAt : Time
  deriving DecidableEq, Repr

structure ApprovalRow where
  approvalId : String
  taskId : String
  principalId : String
  toolStepId : String
  toolCallId : String
  toolName : String
  arguments : JsonText
  reason : String
  state : ApprovalState
  requestEventSeq : Nat
  createdAt : Time
  resolvedAt : Option Time
  expiresAt : Option Time
  resolvedBy : String
  deriving DecidableEq, Repr

structure DefinitionRow where
  taskId : String
  title : String
  goal : String
  notificationPolicy : List (String × Bool)
  deriving DecidableEq, Repr

structure ExecutionRow where
  executionId : String
  taskId : String
  deriving DecidableEq, Repr

structure NotificationIntentRow where
  intentId : String
  principalId : String
  category : String
  workId : String
  executionId : String
  semanticCode : String
  title : String
  linkApprovalId : String
  linkInteractionId : String
  dedupeKey : String
  priority : String
  expiresAt : Time
  state : String
  sourceSequence : Nat
  createdAt : Time
  updatedAt : Time
  deriving DecidableEq, Repr

abbrev TaskRecord := TaskRow
abbrev TaskEvent := EventRow
abbrev TaskExecutionTrace := TraceRow
abbrev TaskToolStepRecord := ToolStepRow
abbrev TaskApprovalRecord := ApprovalRow

/-- The database. `feedSequence` is the AUTOINCREMENT counter of the principal
feed, `intentSequence` the singleton row of `notification_intent_sequence`. -/
structure Store where
  sessions : Table SessionRow.sessionHandle
  tasks : Table TaskRow.taskId
  events : Table EventRow.key
  feed : Table FeedRow.feedEventId
  feedSequence : Nat
  attempts : Table AttemptRow.attemptId
  traces : Table TraceRow.taskId
  steps : Table ToolStepRow.toolStepId
  approvals : Table ApprovalRow.approvalId
  definitions : Table DefinitionRow.taskId
  executions : Table ExecutionRow.executionId
  intents : Table NotificationIntentRow.intentId
  intentSequence : Nat

/-- A repository opened on a database with sessions and definitions but no
runtime Task yet. -/
def Store.initial (sessions : Table SessionRow.sessionHandle)
    (definitions : Table DefinitionRow.taskId) (executions : Table ExecutionRow.executionId) :
    Store where
  sessions := sessions
  tasks := .empty
  events := .empty
  feed := .empty
  feedSequence := 0
  attempts := .empty
  traces := .empty
  steps := .empty
  approvals := .empty
  definitions := definitions
  executions := executions
  intents := .empty
  intentSequence := 1

/-- Constructor arguments of `TaskRepository`, and the functions it calls outside
this code: `hashlib.sha256(..).hexdigest()[:32]` and the encoded sizes of
`model_dump_json()` and of a trace. -/
structure Env where
  maxActiveTasks : Nat
  maxActiveTasksPerPrincipal : Nat
  traceRetentionSeconds : Time
  digest : String → String
  eventBytes : TaskEventPayload → Nat
  traceBytes : List TaskTraceEntry → Nat

namespace Store

def updateTask (s : Store) (taskId : String) (f : TaskRow → TaskRow)
    (keep : ∀ row, (f row).taskId = row.taskId := by intro row; rfl) : Store :=
  { s with tasks := s.tasks.update (fun row => row.taskId == taskId) f keep }

def updateSteps (s : Store) (p : ToolStepRow → Bool) (f : ToolStepRow → ToolStepRow)
    (keep : ∀ row, (f row).toolStepId = row.toolStepId := by intro row; rfl) : Store :=
  { s with steps := s.steps.update p f keep }

def updateApprovals (s : Store) (p : ApprovalRow → Bool) (f : ApprovalRow → ApprovalRow)
    (keep : ∀ row, (f row).approvalId = row.approvalId := by intro row; rfl) : Store :=
  { s with approvals := s.approvals.update p f keep }

def updateAttempts (s : Store) (p : AttemptRow → Bool) (f : AttemptRow → AttemptRow)
    (keep : ∀ row, (f row).attemptId = row.attemptId := by intro row; rfl) : Store :=
  { s with attempts := s.attempts.update p f keep }

def updateEvents (s : Store) (p : EventRow → Bool) (f : EventRow → EventRow)
    (keep : ∀ row, (f row).key = row.key := by intro row; rfl) : Store :=
  { s with events := s.events.update p f keep }

end Store

/-- `INSERT` under a primary key and one further `UNIQUE` constraint. -/
def insertRow {ρ κ : Type} {key : ρ → κ} [DecidableEq κ] (table : Table key) (row : ρ)
    (primary : String) (clash : ρ → Bool) (unique : String) :
    Except TaskError (Table key) :=
  match table.insert row with
  | none => .error (.integrity primary)
  | some table' => if table.rows.any clash then .error (.integrity unique) else .ok table'

theorem insertRow_ok {ρ κ : Type} {key : ρ → κ} [DecidableEq κ] {table table' : Table key}
    {row : ρ} {primary unique : String} {clash : ρ → Bool}
    (h : insertRow table row primary clash unique = .ok table') :
    table.insert row = some table' ∧ ∀ other ∈ table.rows, clash other = false := by
  unfold insertRow at h
  split at h
  · cases h
  · rename_i inserted
    split at h <;> cases h
    rename_i free
    refine ⟨inserted, ?_⟩
    simpa using free

end Knoa.Tasks
