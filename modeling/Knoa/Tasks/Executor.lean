import Knoa.Tasks.Operations

/-!
# The Task executor

`TaskExecutor`: the worker loop that claims a Task and the `_execute` coroutine of each claim,
one step for every await. A cancelled await leaves its call of the repository in flight.
-/
namespace Knoa.Tasks
open Transaction (commit)

inductive TurnStatus
  | completed | interrupted | failed | refused | outcomeUnknown
  deriving DecidableEq, Repr

structure TurnFinished where
  status : TurnStatus
  finalOutput : String := ""
  errorCode : String := ""
  deriving DecidableEq, Repr

inductive ToolCallStatus
  | completed | rejected | failed | notExecuted
  deriving DecidableEq, Repr

inductive RuntimeTurnEvent
  | assistantDelta (content : String)
  | reasoningSummaryDelta (content : String)
  | planChanged (content : String)
  | toolCallStarted (toolCallId toolName : String) (arguments : JsonText)
  | toolCallFinished (toolCallId toolName : String) (status : ToolCallStatus) (code : String)
      (output : JsonText)
  | artifactProduced
  | interactionRequested
  | contextCompacted
  | usageReported
  | runtimeWarning (message : String)
  | turnFinished (terminal : TurnFinished)
  deriving DecidableEq, Repr

/-- What the executor reads out of JSON values. -/
structure Agents where
  /-- `artifact_refs_from_tool_output`: at most one artifact. -/
  artifactRef : JsonText → Option ArtifactRef
  /-- The object of a call's status, code and output. -/
  toolResult : ToolCallStatus → String → JsonText → JsonText
  /-- The message or title among the arguments of `notify`; empty when it has neither. -/
  notice : JsonText → String

def RuntimeTurnEvent.isDelta : RuntimeTurnEvent → Bool
  | .assistantDelta _ | .reasoningSummaryDelta _ => true
  | _ => false

/-- `_trace_entry`. -/
def traceEntry (agents : Agents) (now : Time) : RuntimeTurnEvent → Option TaskTraceEntry
  | .reasoningSummaryDelta content => some { entryType := .reasoning, content, occurredAt := now }
  | .assistantDelta content => some { entryType := .content, content, occurredAt := now }
  | .planChanged content => some { entryType := .plan, content, occurredAt := now }
  | .toolCallStarted toolCallId toolName arguments =>
    some { entryType := .toolCall, toolCallId, toolName, toolArgs := arguments, occurredAt := now }
  | .toolCallFinished toolCallId toolName status code output =>
    some
      { entryType := .toolResult, toolCallId, toolName,
        toolResult := some (agents.toolResult status code output), occurredAt := now }
  | .contextCompacted =>
    some { entryType := .contextCompacted, content := "Agent context compacted", occurredAt := now }
  | .runtimeWarning message => some { entryType := .warning, content := message, occurredAt := now }
  | .turnFinished terminal =>
    some { entryType := .finalOutput, content := terminal.finalOutput, occurredAt := now }
  | .usageReported | .artifactProduced | .interactionRequested => none

/-- `_append_trace_entry`: a delta joins the entry before it. -/
def appendTraceEntry (entries : List TaskTraceEntry) (entry : TaskTraceEntry) :
    List TaskTraceEntry :=
  match entries.getLast? with
  | some previous =>
    if (entry.entryType = .reasoning ∨ entry.entryType = .content) ∧
        previous.entryType = entry.entryType ∧ previous.iteration = entry.iteration then
      entries.dropLast ++
        [{ previous with
            content := previous.content ++ entry.content, occurredAt := entry.occurredAt }]
    else entries ++ [entry]
  | none => [entry]

/-- `_synthesize_task_summary`. -/
def synthesizeTaskSummary (agents : Agents) (entries : List TaskTraceEntry) (finalOutput : String)
    (terminal : TurnFinished) : String :=
  let notices := entries.reverse.filterMap (fun entry =>
    if entry.entryType = .toolCall ∧ entry.toolName = "notify" ∧
        strip (agents.notice entry.toolArgs) ≠ "" then
      some (strip (agents.notice entry.toolArgs)) else none)
  let reasonings := entries.reverse.filterMap (fun entry =>
    if entry.entryType = .reasoning ∧ strip entry.content ≠ "" then
      some (strip entry.content) else none)
  if strip finalOutput ≠ "" then strip finalOutput
  else
    match notices, reasonings with
    | notice :: _, _ => notice
    | [], reasoning :: _ =>
      if 300 < reasoning.length then takeChars reasoning 300 ++ "..." else reasoning
    | [], [] =>
      if terminal.status = .interrupted then
        "Task interrupted (" ++
          (if terminal.errorCode = "" then "cancelled" else terminal.errorCode) ++ ")"
      else "Task completed"

/-- A write of `_execute`. -/
inductive TaskWrite
  | artifact (artifact : ArtifactRef)
  | trace (entries : List TaskTraceEntry) (finalOutput : String)
  | state (target : TaskState) (metadata : TransitionMetadata)
  | unknown
  deriving DecidableEq, Repr

/-- The repository call of a write; none names the attempt it is made for. -/
def TaskWrite.op (task : TaskRecord) (now : Time) : TaskWrite → Op
  | .artifact ref =>
    .appendEvent now task.principalId task.taskId .artifact
      { artifact := some ref, artifactId := ref.artifactId }
  | .trace entries finalOutput => .saveTrace now task.principalId task.taskId entries finalOutput
  | .state target metadata => .transition now task.principalId task.taskId target metadata
  | .unknown =>
    .pauseForUnknownToolOutcome now task.principalId task.taskId
      ("A tool returned but its durable outcome checkpoint failed; " ++
        "automatic replay is blocked")

/-- A write that takes the Task out of RUNNING. -/
def TaskWrite.leaves : TaskWrite → Bool
  | .state .. | .unknown => true
  | _ => false

/-- Where an execution stands. `streaming` to `leaving` are inside the `try`,
`unknown` to `abandoning` in its handlers, `closing` and `flushing` in the `finally`. -/
inductive ExecutionPhase
  | starting
  | streaming
  | checking (event : RuntimeTurnEvent)
  | announcing (event : RuntimeTurnEvent) (artifact : ArtifactRef)
  | saving (clock : Time)
  | settling
  | settled (current : TaskRecord)
  | leaving (target : TaskState) (metadata : TransitionMetadata)
  | unknown
  | failing (failureCode : String)
  | abandoning (target : TaskState) (metadata : TransitionMetadata)
  | closing
  | flushing
  | ended
  deriving DecidableEq, Repr

/-- One `_execute`: `task` is the record `claim_next` returned to it, `inFlight`
the calls its cancelled awaits left behind. -/
structure Execution where
  task : TaskRecord
  entries : List TaskTraceEntry := []
  finalOutput : String := ""
  traceDirty : Bool := false
  lastTraceFlush : Time := 0
  lastStateCheck : Time := 0
  cancellation : Bool := false
  terminal : Option TurnFinished := none
  phase : ExecutionPhase := .starting
  inFlight : List TaskWrite := []
  deriving DecidableEq, Repr

/-- The class names of `type(exc).__name__`. -/
def TaskError.typeName : TaskError → String
  | .value _ => "ValueError"
  | .notFound _ => "TaskNotFoundError"
  | .idempotencyConflict _ => "TaskIdempotencyConflictError"
  | .transition _ => "TaskTransitionError"
  | .capacity _ => "TaskCapacityError"
  | .integrity _ => "IntegrityError"
  | .runtime _ => "RuntimeError"
  | .assertion => "AssertionError"

namespace Execution

def goTo (e : Execution) (phase : ExecutionPhase) : Execution := { e with phase }

def awaited (e : Execution) : Option TaskWrite :=
  match e.phase with
  | .announcing _ artifact => some (.artifact artifact)
  | .saving _ | .flushing => some (.trace e.entries e.finalOutput)
  | .leaving target metadata | .abandoning target metadata => some (.state target metadata)
  | .unknown => some .unknown
  | _ => none

/-- The trace of earlier attempts is read. -/
def started (e : Execution) (clock : Time) (trace : Option TaskExecutionTrace) : Execution :=
  { e with
    entries := trace.elim [] TraceRow.entries, finalOutput := trace.elim "" TraceRow.finalOutput,
    lastTraceFlush := clock, phase := .streaming }

def followed (e : Execution) (clock : Time) (event : RuntimeTurnEvent) : Execution :=
  let finished :=
    match event with
    | .turnFinished terminal =>
      { e with terminal := some terminal, finalOutput := terminal.finalOutput }
    | _ => e
  finished.goTo
    (if event.isDelta = false ∨ 3 / 2 ≤ clock - e.lastTraceFlush then .saving clock else .streaming)

def noted (e : Execution) (entry : TaskTraceEntry) : Execution :=
  { e with entries := appendTraceEntry e.entries entry, traceDirty := true }

/-- The loop body past the state check. -/
def took (agents : Agents) (e : Execution) (clock now : Time) (event : RuntimeTurnEvent) :
    Execution :=
  let entered := (traceEntry agents now event).elim e e.noted
  match event with
  | .toolCallFinished _ _ .completed _ output =>
    match agents.artifactRef output with
    | some artifact =>
      if entered.entries.any (fun entry =>
          entry.artifact.any (fun known => known.artifactId == artifact.artifactId)) then
        entered.followed clock event
      else
        (entered.noted { entryType := .artifact, artifact := some artifact, occurredAt := now }).goTo
          (.announcing event artifact)
    | none => entered.followed clock event
  | _ => entered.followed clock event

def yielded (agents : Agents) (e : Execution) (clock now : Time) (event : RuntimeTurnEvent) :
    Execution :=
  if e.cancellation then e.goTo .settling
  else if event.isDelta = false ∨ 1 ≤ clock - e.lastStateCheck then
    { e with lastStateCheck := clock, phase := .checking event }
  else e.took agents clock now event

def checked (agents : Agents) (e : Execution) (clock now : Time) (event : RuntimeTurnEvent)
    (current : TaskRecord) : Execution :=
  if current.state.isTerminal = true ∨ current.cancelRequested = true ∨
      current.phase = "pause_requested" then
    { e with cancellation := true, phase := .settling }
  else e.took agents clock now event

/-- What the loop's outcome makes of the Task, read after it. -/
def concluded (agents : Agents) (e : Execution) (current : TaskRecord) : Execution :=
  if current.state.isTerminal then e.goTo .closing
  else if current.state = .paused then e.goTo .closing
  else if current.cancelRequested = true ∨ e.cancellation = true then
    if current.phase = "pause_requested" then
      e.goTo (.leaving .paused
        { phase := "manual_pause", reason := "Task pause reached a safe boundary" })
    else
      e.goTo (.leaving .cancelled { reason := "Task cancellation reached a safe boundary" })
  else if current.state = .waitingApproval then e.goTo .closing
  else
    match e.terminal with
    | none => e.goTo (.failing "RuntimeError")
    | some terminal =>
      if terminal.status = .outcomeUnknown then e.goTo .unknown
      else if terminal.status = .completed ∨ terminal.status = .interrupted then
        e.goTo (.leaving .completed
          { finalSummary := synthesizeTaskSummary agents e.entries e.finalOutput terminal })
      else e.goTo (.failing "RuntimeError")

/-- The handler of `Exception`, the Task read. -/
def handled (e : Execution) (failureCode : String) (current : TaskRecord) : Execution :=
  if current.state.isTerminal then e.goTo .closing
  else if current.cancelRequested then
    e.goTo (.abandoning .cancelled { reason := "Task cancelled after execution failure" })
  else if current.state ≠ .waitingApproval then
    e.goTo (.abandoning .failed { failureCode, reason := "Task execution failed" })
  else e.goTo .closing

/-- The awaited write returned. -/
def wrote (e : Execution) (clock : Time) : Execution :=
  match e.phase with
  | .announcing event _ => e.followed clock event
  | .saving flush => { e with traceDirty := false, lastTraceFlush := flush, phase := .streaming }
  | .leaving .. | .abandoning .. | .unknown => e.goTo .closing
  | .flushing => e.goTo .ended
  | _ => e

/-- The awaited write raised. -/
def refused (e : Execution) (error : TaskError) : Execution :=
  match e.phase with
  | .announcing .. | .saving _ | .leaving .. => e.goTo (.failing error.typeName)
  | .abandoning .. | .unknown => e.goTo .closing
  | .flushing => e.goTo .ended
  | _ => e

/-- `CancelledError`: the call awaited, once started, stays in flight. -/
def interrupted (e : Execution) (started : Bool) : Option Execution :=
  let left := { e with inFlight := e.inFlight ++ (if started then e.awaited.toList else []) }
  match e.phase with
  | .ended => none
  | .starting | .closing | .flushing => some (left.goTo .ended)
  | .unknown | .failing _ | .abandoning .. => some (left.goTo .closing)
  | _ => some { left with cancellation := true, phase := .closing }

/-- The heartbeat is gone. -/
def closed (e : Execution) : Execution := e.goTo (if e.traceDirty then .flushing else .ended)

end Execution

/-- The executor over its database; `active` is the map of cancellation latches. -/
structure Worker where
  store : Store
  executions : List Execution := []
  active : List (String × Nat) := []

/-- The repository calls that only the executor makes. -/
def Op.byWorker : Op → Bool
  | .transition .. | .saveTrace .. | .pauseForUnknownToolOutcome .. | .claimNext .. => true
  | _ => false

inductive WorkerAct
  | repository (op : Op)
  | claim (now : Time) (workerId : String) (leaseSeconds : Time)
  | signalCancel (taskId : String)
  | start (c : Nat) (clock : Time)
  | yield (c : Nat) (clock now : Time) (event : RuntimeTurnEvent)
  | check (c : Nat) (clock now : Time)
  | exhaust (c : Nat)
  | raise (c : Nat) (failureCode : Option String)
  | settle (c : Nat)
  | conclude (c : Nat)
  | handle (c : Nat)
  | write (c : Nat) (now clock : Time)
  | close (c : Nat)
  | interrupt (c : Nat) (started : Bool)
  | land (c i : Nat) (now : Time)
  | crash

namespace Worker

def withStore (s : Worker) (store : Store) : Worker := { s with store }

def setExecution (s : Worker) (c : Nat) (e : Execution) : Worker :=
  { s with executions := s.executions.set c e }

/-- `if self._active.get(task_id) is cancellation: self._active.pop(task_id)`. -/
def retired (s : Worker) (c : Nat) (e : Execution) : Worker :=
  { s with active := s.active.filter (fun entry => !(entry.1 == e.task.taskId && entry.2 == c)) }

/-- The execution goes on; at the end of its `finally` its latch goes. -/
def advanced (s : Worker) (c : Nat) (e : Execution) : Worker :=
  if e.phase = .ended then (s.setExecution c e).retired c e else s.setExecution c e

def claim (env : Env) (s : Worker) (now : Time) (workerId : String) (leaseSeconds : Time) :
    Option Worker :=
  match commit (claimNext env now workerId leaseSeconds "") s.store with
  | (.ok (some task), store) =>
    some
      { store, executions := s.executions ++ [{ task := task }],
        active := s.active.filter (fun entry => entry.1 != task.taskId) ++
          [(task.taskId, s.executions.length)] }
  | (.ok none, store) => some (s.withStore store)
  | (.error _, _) => none

/-- `signal_cancel`: the latch of the execution the map holds for the Task is set. -/
def signalCancel (s : Worker) (taskId : String) : Worker :=
  match s.active.lookup taskId with
  | some c =>
    { s with executions := s.executions.modify c (fun e => { e with cancellation := true }) }
  | none => s

def start (s : Worker) (c : Nat) (e : Execution) (clock : Time) : Option Worker :=
  if e.phase = .starting then
    match getTrace s.store e.task.principalId e.task.taskId with
    | .ok trace => some (s.setExecution c (e.started clock trace))
    | .error _ => some (s.setExecution c (e.goTo .ended))
  else none

def check (agents : Agents) (s : Worker) (c : Nat) (e : Execution) (clock now : Time) :
    Option Worker :=
  match e.phase with
  | .checking event =>
    match getTask s.store e.task.principalId e.task.taskId with
    | .ok current => some (s.setExecution c (e.checked agents clock now event current))
    | .error error => some (s.setExecution c (e.goTo (.failing error.typeName)))
  | _ => none

/-- The runtime or the reading of its event raises; no code for `ToolOutcomeUnknownError`. -/
def raised (s : Worker) (c : Nat) (e : Execution) (failureCode : Option String) : Option Worker :=
  match e.phase with
  | .streaming | .checking _ =>
    some (s.setExecution c (e.goTo (failureCode.elim .unknown .failing)))
  | _ => none

def settle (s : Worker) (c : Nat) (e : Execution) : Option Worker :=
  if e.phase = .settling then
    match getTask s.store e.task.principalId e.task.taskId with
    | .ok current => some (s.setExecution c (e.goTo (.settled current)))
    | .error error => some (s.setExecution c (e.goTo (.failing error.typeName)))
  else none

def handle (s : Worker) (c : Nat) (e : Execution) : Option Worker :=
  match e.phase with
  | .failing failureCode =>
    match getTask s.store e.task.principalId e.task.taskId with
    | .ok current => some (s.setExecution c (e.handled failureCode current))
    | .error _ => some (s.setExecution c (e.goTo .closing))
  | _ => none

def write (env : Env) (s : Worker) (c : Nat) (e : Execution) (now clock : Time) : Option Worker :=
  match e.awaited with
  | some w =>
    match (w.op e.task now).call env s.store with
    | (.ok _, store) => some ((s.withStore store).advanced c (e.wrote clock))
    | (.error error, _) => some (s.advanced c (e.refused error))
  | none => none

/-- A call in flight runs; nobody is told its result. -/
def land (env : Env) (s : Worker) (c i : Nat) (e : Execution) (now : Time) : Option Worker :=
  match e.inFlight[i]? with
  | some w =>
    some ((s.withStore ((w.op e.task now).call env s.store).2).setExecution c
      { e with inFlight := e.inFlight.eraseIdx i })
  | none => none

def crash (s : Worker) : Worker :=
  { s with
    executions := s.executions.map (fun e => { e with phase := .ended, inFlight := [] })
    active := [] }

def withExecution (s : Worker) (c : Nat) (f : Execution → Option Worker) : Option Worker :=
  (s.executions[c]?).bind f

def step (env : Env) (agents : Agents) (s : Worker) : WorkerAct → Option Worker
  | .repository op =>
    if op.byWorker then none
    else (Tasks.step env s.store op).map s.withStore
  | .claim now workerId leaseSeconds => s.claim env now workerId leaseSeconds
  | .signalCancel taskId => some (s.signalCancel taskId)
  | .start c clock => s.withExecution c (fun e => s.start c e clock)
  | .yield c clock now event => s.withExecution c (fun e =>
    if e.phase = .streaming then some (s.setExecution c (e.yielded agents clock now event))
    else none)
  | .check c clock now => s.withExecution c (fun e => s.check agents c e clock now)
  | .exhaust c => s.withExecution c (fun e =>
    if e.phase = .streaming then some (s.setExecution c (e.goTo .settling)) else none)
  | .raise c failureCode => s.withExecution c (fun e => s.raised c e failureCode)
  | .settle c => s.withExecution c (s.settle c)
  | .conclude c => s.withExecution c (fun e =>
    match e.phase with
    | .settled current => some (s.setExecution c (e.concluded agents current))
    | _ => none)
  | .handle c => s.withExecution c (s.handle c)
  | .write c now clock => s.withExecution c (fun e => s.write env c e now clock)
  | .close c => s.withExecution c (fun e =>
    if e.phase = .closing then some (s.advanced c e.closed) else none)
  | .interrupt c started => s.withExecution c (fun e => (e.interrupted started).map (s.setExecution c))
  | .land c i now => s.withExecution c (fun e => s.land env c i e now)
  | .crash => some s.crash

end Worker

end Knoa.Tasks
