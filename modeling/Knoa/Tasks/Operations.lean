import Knoa.Library.Transition
import Knoa.Tasks.ToolRepository

/-!
# Runs of the repository

The writing operations as labels, and the store as a partial step function: a
call that raises is refused and leaves the store it found. The deletion of saved Tasks and of their
executions and the compaction of expired traces are not among them.
-/
namespace Knoa.Tasks
open Transaction

inductive Op
  | create (now : Time) (taskIds : Nat → String) (request : CreateRequest)
  | appendEvent (now : Time) (principalId taskId : String) (eventType : TaskEventType)
      (payload : TaskEventPayload)
  | requestCancel (now : Time) (principalId taskId reason : String)
  | requestPause (now : Time) (principalId taskId reason : String)
  | resume (now : Time) (principalId taskId reason : String) (acknowledge : Bool)
  | transition (now : Time) (principalId taskId : String) (target : TaskState)
      (metadata : TransitionMetadata)
  | claimNext (now : Time) (workerId : String) (leaseSeconds : Time) (principalId : String)
  | activateStaged (now : Time) (principalId taskId : String)
  | renewLease (now : Time) (principalId taskId workerId : String) (leaseSeconds : Time)
  | recoverExpiredLeases (now : Time)
  | recoverInterrupted (now : Time)
  | annotateApprovalReview (principalId approvalId reason : String)
  | beginToolStep (now : Time) (principalId taskId : String) (request : ToolStepRequest)
  | finishToolStep (now : Time) (principalId taskId toolStepId : String)
      (state : TaskToolStepState) (result : JsonText)
  | pauseForUnknownToolOutcome (now : Time) (principalId taskId reason : String)
  | requestApproval (now : Time) (approvalIds : Nat → String) (principalId taskId : String)
      (request : ApprovalRequest)
  | resolveApproval (now : Time) (principalId approvalId : String) (approved : Bool)
      (resumeState : TaskState) (resolvedBy : String)
  | saveTrace (now : Time) (principalId taskId : String) (entries : List TaskTraceEntry)
      (finalOutput : String)

/-- The error of a call, or nothing, with the store the call leaves. -/
def outcome {α : Type} (result : Except TaskError α × Store) : Except TaskError Unit × Store :=
  (result.1.map (fun _ => ⟨⟩), result.2)

def Op.call (env : Env) (op : Op) (s : Store) : Except TaskError Unit × Store :=
  match op with
  | .create now taskIds request => outcome (Tasks.create env now taskIds request s)
  | .appendEvent now principalId taskId eventType payload =>
    outcome (commit (appendTaskEvent env now principalId taskId eventType payload) s)
  | .requestCancel now principalId taskId reason =>
    outcome (commit (Tasks.requestCancel env now principalId taskId reason) s)
  | .requestPause now principalId taskId reason =>
    outcome (commit (Tasks.requestPause env now principalId taskId reason) s)
  | .resume now principalId taskId reason acknowledge =>
    outcome (commit (Tasks.resume env now principalId taskId reason acknowledge) s)
  | .transition now principalId taskId target metadata =>
    outcome (commit (Tasks.transition env now principalId taskId target metadata) s)
  | .claimNext now workerId leaseSeconds principalId =>
    outcome (commit (Tasks.claimNext env now workerId leaseSeconds principalId) s)
  | .activateStaged now principalId taskId =>
    outcome (commit (Tasks.activateStaged now principalId taskId) s)
  | .renewLease now principalId taskId workerId leaseSeconds =>
    outcome (commit (Tasks.renewLease now principalId taskId workerId leaseSeconds) s)
  | .recoverExpiredLeases now => outcome (commit (Tasks.recoverExpiredLeases env now) s)
  | .recoverInterrupted now => outcome (commit (Tasks.recoverInterrupted env now) s)
  | .annotateApprovalReview principalId approvalId reason =>
    outcome (commit (Tasks.annotateApprovalReview env principalId approvalId reason) s)
  | .beginToolStep now principalId taskId request =>
    outcome (commit (Tasks.beginToolStep now principalId taskId request) s)
  | .finishToolStep now principalId taskId toolStepId state result =>
    outcome (commit (Tasks.finishToolStep now principalId taskId toolStepId state result) s)
  | .pauseForUnknownToolOutcome now principalId taskId reason =>
    outcome (commit (Tasks.pauseForUnknownToolOutcome env now principalId taskId reason) s)
  | .requestApproval now approvalIds principalId taskId request =>
    outcome (Tasks.requestApproval env now approvalIds principalId taskId request s)
  | .resolveApproval now principalId approvalId approved resumeState resolvedBy =>
    outcome (commit
      (Tasks.resolveApproval env now principalId approvalId approved resumeState resolvedBy) s)
  | .saveTrace now principalId taskId entries finalOutput =>
    outcome (commit (Tasks.saveTrace env now principalId taskId entries finalOutput) s)

def step (env : Env) (s : Store) (op : Op) : Option Store :=
  match op.call env s with
  | (.ok _, s') => some s'
  | (.error _, _) => none

variable {e : TaskError}

theorem outcome_error {α : Type} {result : Except TaskError α × Store}
    (h : (outcome result).1 = .error e) : result.1 = .error e := by
  obtain ⟨value, s'⟩ := result
  cases value with
  | error e' =>
    cases h
    rfl
  | ok a => cases h

variable {s' : Store}

theorem outcome_ok {α : Type} {result : Except TaskError α × Store}
    (h : outcome result = (.ok ⟨⟩, s')) : ∃ a, result = (.ok a, s') := by
  obtain ⟨value, t⟩ := result
  cases value with
  | error e => simp [outcome, Except.map] at h
  | ok a =>
    cases h
    exact ⟨a, rfl⟩

variable {env : Env} {s : Store}

theorem create_error {now : Time} {taskIds : Nat → String} {request : CreateRequest}
    (h : (Tasks.create env now taskIds request s).1 = .error e) :
    (Tasks.create env now taskIds request s).2 = s := by
  unfold Tasks.create at h ⊢
  split
  · rfl
  · rename_i normalized
    rw [normalized] at h
    exact retrying_error h

theorem requestApproval_error {now : Time} {approvalIds : Nat → String}
    {principalId taskId : String} {request : ApprovalRequest}
    (h : (Tasks.requestApproval env now approvalIds principalId taskId request s).1 = .error e) :
    (Tasks.requestApproval env now approvalIds principalId taskId request s).2 = s := by
  unfold Tasks.requestApproval at h ⊢
  split
  · rfl
  · rename_i normalized
    rw [normalized] at h
    exact retrying_error h

theorem outcome_kept {α : Type} {result : Except TaskError α × Store}
    (kept : ∀ e, result.1 = .error e → result.2 = s) (h : (outcome result).1 = .error e) :
    (outcome result).2 = s :=
  kept e (outcome_error h)

variable {op : Op}

theorem call_error (h : (op.call env s).1 = .error e) : (op.call env s).2 = s := by
  cases op with
  | create => exact outcome_kept (fun _ => create_error) h
  | requestApproval => exact outcome_kept (fun _ => requestApproval_error) h
  | _ => exact outcome_kept (fun _ => commit_error) h

theorem step_eq_some (h : step env s op = some s') : op.call env s = (.ok ⟨⟩, s') := by
  unfold step at h
  split at h <;> cases h
  rename_i value t called
  exact called

theorem step_of_outcome {α : Type} {result : Except TaskError α × Store} {a : α}
    (called : op.call env s = outcome result) (returned : result = (.ok a, s')) :
    Tasks.step env s op = some s' := by
  unfold Tasks.step
  rw [called, returned]
  rfl

theorem step_of_error {α : Type} {result : Except TaskError α × Store}
    (called : op.call env s = outcome result) (raised : result = (.error e, s')) :
    Tasks.step env s op = none := by
  unfold Tasks.step
  rw [called, raised]
  rfl

theorem next_eq_call (env : Env) (s : Store) (op : Op) :
    Transition.next (step env) s op = (op.call env s).2 := by
  unfold Transition.next step
  split
  · rename_i called
    rw [called]
    rfl
  · rename_i called
    rw [called]
    have raised := call_error (s := s) (by rw [called])
    rw [called] at raised
    exact raised.symm

section Sample

/-- A small repository to run calls on: one session, no saved definition, and
an identity that keeps its text. -/
def sampleEnv : Env where
  maxActiveTasks := 8
  maxActiveTasksPerPrincipal := 8
  traceRetentionSeconds := 90 * 24 * 60 * 60
  digest text := text
  eventBytes _ := 0
  traceBytes _ := 0

def sampleSessions : Relational.Table SessionRow.sessionHandle :=
  .single { sessionHandle := "s", principalId := "p", agentId := "a" }

def sampleStore : Store := .initial sampleSessions .empty .empty

def sampleRequest (taskId : String) : CreateRequest where
  scope := { principalId := "p", sessionHandle := "s" }
  clientRequestId := taskId
  goal := "goal"

def sampleCreate (taskId : String) : Op := .create 0 (fun _ => taskId) (sampleRequest taskId)

end Sample

end Knoa.Tasks
