
/-!
# Task domain records

The enumerations, event payloads and errors of `tasks/models.py` and
`tasks/errors.py`, and the transition table shared by the repository mixins.
-/
namespace Knoa.Tasks

/-- Clock readings in seconds, exact. -/
abbrev Time := Rat

inductive TaskState
  | queued | running | waitingApproval | paused | completed | failed | cancelled
  deriving DecidableEq, Repr

inductive TaskOrigin
  | user | agent | scheduled | event
  deriving DecidableEq, Repr

inductive ApprovalState
  | pending | approved | denied | expired | cancelled
  deriving DecidableEq, Repr

inductive TaskAttemptState
  | running | completed | failed | cancelled | interrupted
  deriving DecidableEq, Repr

inductive TaskToolStepState
  | committing | completed | failed | outcomeUnknown
  deriving DecidableEq, Repr

inductive TaskEventType
  | taskCreated | stateChanged | reasoningDelta | contentDelta | plan | toolCall | toolResult
  | approvalRequested | approvalResolved | interactionRequested | interactionResolved
  | artifact | contextCompacted | warning | finalOutput | completed | failed | cancelled
  deriving DecidableEq, Repr

inductive TaskTraceEntryType
  | reasoning | content | plan | toolCall | toolResult | artifact | contextCompacted
  | warning | finalOutput
  deriving DecidableEq, Repr

/-- `TERMINAL_TASK_STATES`. -/
def TaskState.isTerminal : TaskState → Bool
  | .completed | .failed | .cancelled => true
  | _ => false

/-- `_TRANSITIONS`: the targets `transition` accepts from each state. -/
def TaskState.transitions : TaskState → List TaskState
  | .queued => [.running, .cancelled]
  | .running => [.waitingApproval, .paused, .completed, .failed, .cancelled]
  | .waitingApproval => [.running, .paused, .cancelled]
  | .paused => [.queued, .failed, .cancelled]
  | .completed | .failed | .cancelled => []

def TaskState.eventType : TaskState → TaskEventType
  | .completed => .completed
  | .failed => .failed
  | .cancelled => .cancelled
  | _ => .stateChanged

/-- `_PRINCIPAL_FEED_EVENT_TYPES`. -/
def TaskEventType.inPrincipalFeed : TaskEventType → Bool
  | .taskCreated | .stateChanged | .approvalRequested | .approvalResolved
  | .interactionRequested | .interactionResolved | .completed | .failed | .cancelled => true
  | _ => false

/-- `_DURABLE_TASK_EVENT_TYPES`. -/
def TaskEventType.isDurable (type : TaskEventType) : Bool :=
  type.inPrincipalFeed || type == .artifact || type == .warning

def TaskEventType.isTerminal : TaskEventType → Bool
  | .completed | .failed | .cancelled => true
  | _ => false

theorem TaskState.eventType_isTerminal (state : TaskState) :
    state.eventType.isTerminal = state.isTerminal := by
  cases state <;> rfl

theorem TaskState.transitions_of_terminal {state : TaskState} (h : state.isTerminal = true) :
    state.transitions = [] := by
  cases state <;> first | rfl | cases h

/-- A JSON value, held as the text `json.dumps(.., sort_keys=True)` writes for it. `NaN` is no JSON
value. -/
structure JsonText where
  text : String
  deriving DecidableEq, Repr

def JsonText.emptyObject : JsonText := ⟨"{}"⟩

/-- The length of the UTF-8 encoding. -/
def JsonText.bytes (j : JsonText) : Nat := j.text.utf8ByteSize

structure ArtifactAttachment where
  artifactId : String
  caption : String := ""
  deriving DecidableEq, Repr

structure ArtifactRef where
  artifactId : String
  deriving DecidableEq, Repr

structure RuntimeScope where
  principalId : String
  sessionHandle : String
  deriving DecidableEq, Repr

structure TaskEventPayload where
  content : String := ""
  previousState : Option TaskState := none
  state : Option TaskState := none
  phase : String := ""
  reason : String := ""
  approvalId : String := ""
  interactionId : String := ""
  interactionKind : String := ""
  interactionDisplay : JsonText := .emptyObject
  interactionSchema : JsonText := .emptyObject
  toolStepId : String := ""
  toolCallId : String := ""
  toolName : String := ""
  toolArgs : JsonText := .emptyObject
  toolResult : Option JsonText := none
  artifact : Option ArtifactRef := none
  artifactId : String := ""
  blocked : Bool := false
  iteration : Nat := 0
  deriving DecidableEq, Repr

structure TaskTraceEntry where
  entryType : TaskTraceEntryType
  iteration : Nat := 0
  content : String := ""
  toolCallId : String := ""
  toolName : String := ""
  toolArgs : JsonText := .emptyObject
  toolResult : Option JsonText := none
  artifact : Option ArtifactRef := none
  occurredAt : Time
  deriving DecidableEq, Repr

structure TaskCancelResult where
  accepted : Bool
  state : TaskState
  deriving DecidableEq, Repr

structure TaskPauseResult where
  accepted : Bool
  state : TaskState
  deriving DecidableEq, Repr

/-- What a repository call may raise, with the message it carries. -/
inductive TaskError
  | value (message : String)
  | notFound (message : String)
  | idempotencyConflict (message : String)
  | transition (message : String)
  | capacity (message : String)
  | integrity (constraint : String)
  | runtime (message : String)
  | assertion
  deriving DecidableEq, Repr

/-- The enumerations' wire texts, as they stand in event payloads and messages. -/
def TaskState.value : TaskState → String
  | .queued => "queued"
  | .running => "running"
  | .waitingApproval => "waiting_approval"
  | .paused => "paused"
  | .completed => "completed"
  | .failed => "failed"
  | .cancelled => "cancelled"

def ApprovalState.value : ApprovalState → String
  | .pending => "pending"
  | .approved => "approved"
  | .denied => "denied"
  | .expired => "expired"
  | .cancelled => "cancelled"

def TaskEventType.value : TaskEventType → String
  | .taskCreated => "task_created"
  | .stateChanged => "state_changed"
  | .reasoningDelta => "reasoning_delta"
  | .contentDelta => "content_delta"
  | .plan => "plan"
  | .toolCall => "tool_call"
  | .toolResult => "tool_result"
  | .approvalRequested => "approval_requested"
  | .approvalResolved => "approval_resolved"
  | .interactionRequested => "interaction_requested"
  | .interactionResolved => "interaction_resolved"
  | .artifact => "artifact"
  | .contextCompacted => "context_compacted"
  | .warning => "warning"
  | .finalOutput => "final_output"
  | .completed => "completed"
  | .failed => "failed"
  | .cancelled => "cancelled"

end Knoa.Tasks
