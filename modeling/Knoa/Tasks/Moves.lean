import Knoa.Tasks.Aggregate
import Knoa.Tasks.Operations

/-!
# What one call does to one Task

`Move` lists, call by call, the ways a Task may change. `Refines` says that a call of the store is,
Task by Task, such a move, a birth, or nothing.
-/
namespace Knoa.Tasks
open Relational (Table)

def TaskRow.event (row : TaskRow) (eventType : TaskEventType) (payload : TaskEventPayload)
    (now : Time) : EventRow :=
  ⟨row.taskId, row.nextEventSeq, eventType, payload, now⟩

def finishRunning (state : TaskAttemptState) (now : Time) (failureCode : String)
    (attempts : List AttemptRow) : List AttemptRow :=
  attempts.map (fun row =>
    if row.state = .running then
      { row with state, finishedAt := some now, failureCode }
    else row)

def finishRunningFor (target : TaskState) (failureCode : String) (now : Time)
    (attempts : List AttemptRow) : List AttemptRow :=
  match attemptStateFor target with
  | some state => finishRunning state now (attemptFailureCode target failureCode) attempts
  | none => attempts

def cancelPending (now : Time) (resolvedBy : String) (approvals : List ApprovalRow) :
    List ApprovalRow :=
  approvals.map (fun row =>
    if row.state = .pending then
      { row with state := .cancelled, resolvedAt := some now, resolvedBy }
    else row)

def quarantine (now : Time) (steps : List ToolStepRow) : List ToolStepRow :=
  steps.map (fun row =>
    if row.state = .committing then { row with state := .outcomeUnknown, updatedAt := now }
    else row)

def decideApproval (approvalId : String) (state : ApprovalState) (now : Time)
    (resolvedBy : String) (approvals : List ApprovalRow) : List ApprovalRow :=
  approvals.map (fun row =>
    if row.approvalId = approvalId ∧ row.state = .pending then
      { row with state, resolvedAt := some now, resolvedBy }
    else row)

def annotateApprovals (approvalId reason : String) (approvals : List ApprovalRow) :
    List ApprovalRow :=
  approvals.map (fun row => if row.approvalId = approvalId then { row with reason } else row)

def annotateEvents (eventSeq : Nat) (reason : String) (events : List EventRow) : List EventRow :=
  events.map (fun event =>
    if event.eventSeq = eventSeq then
      { event with payload := { event.payload with reason } }
    else event)

/-- The control columns of a row after a call. -/
structure RowChange (row row' : TaskRow) (state : TaskState) (events attempts : Nat) : Prop where
  identity : row'.identity = row.identity
  state : row'.state = state
  nextEventSeq : row'.nextEventSeq = row.nextEventSeq + events
  attemptCount : row'.attemptCount = row.attemptCount + attempts

/-- The columns that stage, stop and lease a Task. -/
structure Control where
  phase : String
  cancelRequested : Bool
  leaseOwner : String
  leaseExpiresAt : Option Time
  deriving DecidableEq, Repr

def TaskRow.control (row : TaskRow) : Control where
  phase := row.phase
  cancelRequested := row.cancelRequested
  leaseOwner := row.leaseOwner
  leaseExpiresAt := row.leaseExpiresAt

def Control.unleased (c : Control) : Control := { c with leaseOwner := "", leaseExpiresAt := none }

def Touched (op : Op) (row row' : TaskRow) : Prop :=
  match op with
  | .activateStaged _ _ named => row.taskId = strip named ∧ row.state = .queued ∧
      row.phase = "delegation_staged" ∧ row'.control = { row.control with phase := "" }
  | .renewLease now _ named workerId leaseSeconds => row.taskId = strip named ∧
      row.state = .running ∧ row.leaseOwner = strip workerId ∧
      row'.control = { row.control with leaseExpiresAt := some (now + leaseSeconds) }
  | _ => False

/-- A running Task is asked to stop. -/
def Noted (op : Op) (row row' : TaskRow) : Prop :=
  match op with
  | .requestCancel _ _ named _ =>
    row.taskId = strip named ∧ row'.control = { row.control with cancelRequested := true }
  | .requestPause _ _ named _ =>
    row.taskId = strip named ∧ row'.control = { row.control with phase := "pause_requested" }
  | _ => False

def restartPhase (v : TaskView) : String :=
  if v.steps.any (fun step => step.state == .outcomeUnknown) then "outcome_unknown"
  else if v.row.phase = "pause_requested" then "manual_pause"
  else "interrupted"

inductive Move (s : Store) : Op → TaskView → TaskView → Prop
  /-- A staged Task is activated, or a lease renewed. -/
  | touch {op : Op} {v : TaskView} {row' : TaskRow} (live : v.row.state.isTerminal = false)
      (row : RowChange v.row row' v.row.state 0 0) (touched : Touched op v.row row') :
      Move s op v { v with row := row' }
  | append {now : Time} {principalId taskId : String} {eventType : TaskEventType}
      {payload : TaskEventPayload} {v : TaskView} {row' : TaskRow}
      (live : v.row.state.isTerminal = false) (row : RowChange v.row row' v.row.state 1 0)
      (control : row'.control = v.row.control) :
      Move s (.appendEvent now principalId taskId eventType payload) v
        { v with row := row', events := v.events ++ [v.row.event eventType payload now] }
  /-- The warning that a running Task is asked to stop. -/
  | note {op : Op} {now : Time} {payload : TaskEventPayload} {v : TaskView} {row' : TaskRow}
      (running : v.row.state = .running) (row : RowChange v.row row' .running 1 0)
      (noted : Noted op v.row row') :
      Move s op v { v with row := row', events := v.events ++ [v.row.event .warning payload now] }
  | cancel {now : Time} {principalId taskId reason : String} {payload : TaskEventPayload}
      {v : TaskView} {row' : TaskRow} (stopped : v.row.state = .queued ∨ v.row.state = .paused)
      (names : payload.state = some .cancelled) (row : RowChange v.row row' .cancelled 1 0)
      (control : row'.control = { v.row.control.unleased with cancelRequested := true })
      (named : v.row.taskId = strip taskId) :
      Move s (.requestCancel now principalId taskId reason) v
        { v with row := row', events := v.events ++ [v.row.event .cancelled payload now] }
  | cancelWaiting {now : Time} {principalId taskId reason : String} {payload : TaskEventPayload}
      {v : TaskView} {row' : TaskRow} (waiting : v.row.state = .waitingApproval)
      (named : v.row.taskId = strip taskId)
      (names : payload.state = some .cancelled) (row : RowChange v.row row' .cancelled 1 0)
      (control : row'.control = { v.row.control.unleased with cancelRequested := true }) :
      Move s (.requestCancel now principalId taskId reason) v
        { v with
          row := row', events := v.events ++ [v.row.event .cancelled payload now],
          attempts := finishRunning .cancelled now "cancelled" v.attempts,
          approvals := cancelPending now "task_cancelled" v.approvals }
  | pause {now : Time} {principalId taskId reason : String} {payload : TaskEventPayload}
      {v : TaskView} {row' : TaskRow} (queued : v.row.state = .queued)
      (row : RowChange v.row row' .paused 1 0)
      (control : row'.control = { v.row.control.unleased with phase := "manual_pause" })
      (named : v.row.taskId = strip taskId) :
      Move s (.requestPause now principalId taskId reason) v
        { v with row := row', events := v.events ++ [v.row.event .stateChanged payload now] }
  | pauseWaiting {now : Time} {principalId taskId reason : String} {payload : TaskEventPayload}
      {v : TaskView} {row' : TaskRow} (waiting : v.row.state = .waitingApproval)
      (named : v.row.taskId = strip taskId) (row : RowChange v.row row' .paused 1 0)
      (control : row'.control = { v.row.control.unleased with phase := "manual_pause" }) :
      Move s (.requestPause now principalId taskId reason) v
        { v with
          row := row', events := v.events ++ [v.row.event .stateChanged payload now],
          attempts := finishRunning .interrupted now "paused" v.attempts,
          approvals := cancelPending now "task_paused" v.approvals }
  | resume {now : Time} {principalId taskId reason : String} {acknowledge : Bool}
      {payload : TaskEventPayload} {v : TaskView} {row' : TaskRow}
      (paused : v.row.state = .paused) (row : RowChange v.row row' .queued 1 0)
      (named : v.row.taskId = strip taskId)
      (acknowledged : v.row.phase = "outcome_unknown" → acknowledge = true)
      (control : row'.control = ⟨"", false, "", none⟩) :
      Move s (.resume now principalId taskId reason acknowledge) v
        { v with row := row', events := v.events ++ [v.row.event .stateChanged payload now] }
  | transit {now : Time} {principalId taskId : String} {target : TaskState}
      {metadata : TransitionMetadata} {payload : TaskEventPayload} {v : TaskView} {row' : TaskRow}
      (allowed : target ∈ v.row.state.transitions) (named : v.row.taskId = strip taskId)
      (names : payload.state = some target) (row : RowChange v.row row' target 1 0)
      (control : row'.control =
        { phase := transitionPhase v.row metadata, cancelRequested := v.row.cancelRequested,
          leaseOwner := if target = .running then v.row.leaseOwner else "",
          leaseExpiresAt := if target = .running then v.row.leaseExpiresAt else none }) :
      Move s (.transition now principalId taskId target metadata) v
        { v with
          row := row', events := v.events ++ [v.row.event target.eventType payload now],
          attempts := finishRunningFor target metadata.failureCode now v.attempts }
  | claim {now : Time} {workerId : String} {leaseSeconds : Time} {principalId : String}
      {payload : TaskEventPayload} {attempt : AttemptRow} {principal : String}
      {v : TaskView} {row' : TaskRow} (queued : v.row.state = .queued)
      (asked : normalizeClaimPrincipal principalId = .ok principal)
      (next : nextClaim s principal = some v.row)
      (ordinal : attempt.ordinal = v.row.attemptCount + 1) (running : attempt.state = .running)
      (row : RowChange v.row row' .running 1 1)
      (control : row'.control =
        { v.row.control with
          leaseOwner := strip workerId, leaseExpiresAt := some (now + leaseSeconds) }) :
      Move s (.claimNext now workerId leaseSeconds principalId) v
        { v with
          row := row', events := v.events ++ [v.row.event .stateChanged payload now],
          attempts := v.attempts ++ [attempt] }
  | expire {now : Time} {payload : TaskEventPayload} {v : TaskView} {row' : TaskRow}
      (running : v.row.state = .running) (expired : leaseExpired now v.row = true)
      (row : RowChange v.row row' .paused 1 0)
      (control : row'.control = { v.row.control.unleased with phase := "lease_expired" }) :
      Move s (.recoverExpiredLeases now) v
        { v with
          row := row', events := v.events ++ [v.row.event .stateChanged payload now],
          attempts := finishRunning .interrupted now "lease_expired" v.attempts }
  /-- Restart recovery of a Task that is neither running nor waiting. -/
  | restart {now : Time} {v : TaskView} (idle : v.row.state.isActive = false) :
      Move s (.recoverInterrupted now) v { v with steps := quarantine now v.steps }
  | restartWaiting {now : Time} {payload : TaskEventPayload} {v : TaskView} {row' : TaskRow}
      (waiting : v.row.state = .waitingApproval)
      (row : RowChange v.row row' .waitingApproval 1 0)
      (control : row'.control = v.row.control.unleased) :
      Move s (.recoverInterrupted now) v
        { v with
          row := row', events := v.events ++ [v.row.event .warning payload now],
          attempts := finishRunning .interrupted now "core_restart_waiting_approval" v.attempts,
          steps := quarantine now v.steps }
  | restartRunning {now : Time} {payload : TaskEventPayload} {v : TaskView} {row' : TaskRow}
      (running : v.row.state = .running) (row : RowChange v.row row' .paused 1 0)
      (control : row'.control =
        { v.row.control.unleased with
          phase := restartPhase { v with steps := quarantine now v.steps } }) :
      Move s (.recoverInterrupted now) v
        { v with
          row := row', events := v.events ++ [v.row.event .stateChanged payload now],
          attempts := finishRunning .interrupted now "core_restart" v.attempts,
          steps := quarantine now v.steps }
  | annotate {principalId approvalId reason text : String} {approval : ApprovalRow}
      {v : TaskView} (known : approval ∈ v.approvals) (pending : approval.state = .pending) :
      Move s (.annotateApprovalReview principalId approvalId reason) v
        { v with
          approvals := annotateApprovals approval.approvalId text v.approvals
          events := annotateEvents approval.requestEventSeq text v.events }
  | beginStep {now : Time} {principalId taskId : String} {request : ToolStepRequest}
      {row : ToolStepRow} {v : TaskView} (running : v.row.state = .running)
      (owner : row.principalId = v.row.principalId) (committing : row.state = .committing) :
      Move s (.beginToolStep now principalId taskId request) v { v with steps := v.steps ++ [row] }
  | finishStep {now : Time} {principalId taskId toolStepId stepId : String}
      {state : TaskToolStepState} {result : JsonText} {v : TaskView}
      (terminal : state = .completed ∨ state = .failed) :
      Move s (.finishToolStep now principalId taskId toolStepId state result) v
        { v with
          steps := v.steps.map (fun row =>
            if row.toolStepId = stepId ∧ row.state = .committing then
              { row with state, result, updatedAt := now }
            else row) }
  | unknown {now : Time} {principalId taskId reason : String} {payload : TaskEventPayload}
      {v : TaskView} {row' : TaskRow} (running : v.row.state = .running)
      (row : RowChange v.row row' .paused 1 0) (named : v.row.taskId = strip taskId)
      (control : row'.control = { v.row.control.unleased with phase := "outcome_unknown" }) :
      Move s (.pauseForUnknownToolOutcome now principalId taskId reason) v
        { v with
          row := row', events := v.events ++ [v.row.event .stateChanged payload now],
          attempts := finishRunning .interrupted now "tool_outcome_unknown" v.attempts,
          steps := v.steps.map (fun row =>
            if row.principalId = v.row.principalId ∧ row.state = .committing then
              { row with state := .outcomeUnknown, updatedAt := now }
            else row) }
  | ask {now : Time} {approvalIds : Nat → String} {principalId taskId : String}
      {request : ApprovalRequest} {payload : TaskEventPayload} {approval : ApprovalRow}
      {v : TaskView} {row' : TaskRow} (running : v.row.state = .running)
      (named : v.row.taskId = strip taskId)
      (fresh : existingApproval s (strip taskId) (strip request.toolStepId) = none)
      (pending : approval.state = .pending) (row : RowChange v.row row' .waitingApproval 1 0)
      (numbered : approval.requestEventSeq = v.row.nextEventSeq)
      (normal : strip approval.approvalId = approval.approvalId)
      (control : row'.control = v.row.control) :
      Move s (.requestApproval now approvalIds principalId taskId request) v
        { v with
          row := row', events := v.events ++ [v.row.event .approvalRequested payload now],
          approvals := v.approvals ++ [approval] }
  | resolve {now : Time} {principalId approvalId resolvedBy : String} {approved : Bool}
      {approval : ApprovalRow} {payload : TaskEventPayload} {v : TaskView} {row' : TaskRow}
      (waiting : v.row.state = .waitingApproval)
      (known : approval ∈ v.approvals) (pending : approval.state = .pending)
      (named : approval.approvalId = strip approvalId)
      (row : RowChange v.row row' .running 1 0) (control : row'.control = v.row.control) :
      Move s (.resolveApproval now principalId approvalId approved .running resolvedBy) v
        { v with
          row := row', events := v.events ++ [v.row.event .approvalResolved payload now],
          approvals := decideApproval approval.approvalId (if approved then .approved else .denied)
            now (strip resolvedBy) v.approvals }
  | resolveQueued {now : Time} {principalId approvalId resolvedBy : String} {approved : Bool}
      {approval : ApprovalRow} {payload : TaskEventPayload} {v : TaskView} {row' : TaskRow}
      (waiting : v.row.state = .waitingApproval)
      (known : approval ∈ v.approvals) (pending : approval.state = .pending)
      (named : approval.approvalId = strip approvalId)
      (row : RowChange v.row row' .queued 1 0) (control : row'.control = v.row.control.unleased) :
      Move s (.resolveApproval now principalId approvalId approved .queued resolvedBy) v
        { v with
          row := row', events := v.events ++ [v.row.event .approvalResolved payload now],
          attempts := finishRunning .interrupted now "approval_wait_interrupted" v.attempts,
          approvals := decideApproval approval.approvalId (if approved then .approved else .denied)
            now (strip resolvedBy) v.approvals }
  | saveTrace {now : Time} {principalId taskId : String} {entries : List TaskTraceEntry}
      {finalOutput : String} {trace : TraceRow} {v : TaskView} :
      Move s (.saveTrace now principalId taskId entries finalOutput) v
        { v with trace := some trace }

/-- What a call leaves under one Task id. -/
inductive Changed (s : Store) (op : Op) (s' : Store) (taskId : String) : Prop
  | same (slice : s'.slice taskId = s.slice taskId)
  | moved {v v' : TaskView} (before : s.view taskId = some v) (after : s'.view taskId = some v')
      (move : Move s op v v')
  | created {now : Time} {row row' : TaskRow} (absent : s.view taskId = none)
      (key : row.taskId = taskId) (unclaimed : row.attemptCount = 0)
      (first : row.nextEventSeq = 1) (change : RowChange row row' .queued 1 0)
      (after : s'.view taskId = some
        { row := row', events := [row.event .taskCreated { state := some .queued } now],
          attempts := [], steps := [], approvals := [], trace := none })
      (trimmed : strip taskId = taskId) (sized : taskId ≠ "" ∧ taskId.length ≤ 128)
      (requested : ∃ taskIds request, op = .create now taskIds request ∧
        row.principalId = request.scope.principalId)

/-- The immutable columns of the Tasks grow by at most one row, and that under
a new request id. -/
def IdentitiesGrow (s s' : Store) : Prop :=
  s'.tasks.rows.map TaskRow.identity = s.tasks.rows.map TaskRow.identity ∨
    ∃ born : TaskIdentity,
      s'.tasks.rows.map TaskRow.identity = s.tasks.rows.map TaskRow.identity ++ [born] ∧
      ∀ old ∈ s.tasks.rows.map TaskRow.identity,
        ¬ (old.principalId = born.principalId ∧ old.clientRequestId = born.clientRequestId)

structure Refines (s : Store) (op : Op) (s' : Store) : Prop where
  sessions : s'.sessions = s.sessions
  identities : IdentitiesGrow s s'
  feed : FeedGrows s s'
  journal : JournalGrows s s'
  changed : ∀ taskId, Changed s op s' taskId

def TaskSlice.empty : TaskSlice := ⟨none, [], [], [], [], none⟩

/-- The foreign keys of the tables: nothing is stored under the id of a Task
that does not exist. -/
def Rooted (s : Store) : Prop := ∀ taskId, s.view taskId = none → s.slice taskId = .empty

theorem Refines.refl (s : Store) (op : Op) : Refines s op s where
  sessions := rfl
  identities := Or.inl rfl
  feed := FeedGrows.refl rfl rfl
  journal := JournalGrows.refl rfl rfl rfl
  changed _ := .same rfl

theorem Refines.of_writes {s s' : Store} {op : Op} {taskId : String} {f : TaskView → TaskView}
    (writes : Writes taskId f s s') {v : TaskView} (seen : s.view taskId = some v)
    (move : Move s op v (f v)) : Refines s op s' :=
  { writes with
    identities := Or.inl writes.identities
    changed := fun other => by
      by_cases same : other = taskId
      · subst same
        exact .moved seen (writes.view_some seen) move
      · exact .same (writes.frame other same) }

end Knoa.Tasks
