import Knoa.Tasks.AttemptEnds

/-!
# Attempt fencing

What `_execute` persists is applied while the attempt it was claimed for is the Task's
current one, as long as no other party ends the attempt under it.
-/
namespace Knoa.Tasks
open Relational Transaction
open Transition (accepted)

section Executions

def ExecutionPhase.undecided : ExecutionPhase → Bool
  | .announcing .. | .saving _ | .leaving .. | .unknown | .abandoning .. | .flushing => false
  | .settled current => current.state.isTerminal || current.state == .paused
  | _ => true

/-- An execution that writes nothing before it reads the Task again. -/
def Execution.idle (e : Execution) : Prop :=
  e.inFlight = [] ∧ (e.phase = .ended ∨ e.traceDirty = false ∧ e.phase.undecided = true)

def ExecutionPhase.aims : ExecutionPhase → Prop
  | .leaving target _ | .abandoning target _ => target ∈ executorTargets
  | _ => True

/-- What a step of `_execute` keeps of its execution. -/
structure Steps (e e' : Execution) : Prop where
  task : e'.task = e.task
  inFlight : e'.inFlight = e.inFlight
  aims : e'.phase.aims

variable {e : Execution} {agents : Agents} {clock now : Time} {event : RuntimeTurnEvent}
  {current : TaskRecord}

theorem Execution.idle.unawaited (h : e.idle) : e.awaited = none := by
  obtain ⟨-, ended | ⟨-, undecided⟩⟩ := h
  · simp [Execution.awaited, ended]
  · cases phase : e.phase <;> simp_all [Execution.awaited, ExecutionPhase.undecided]

theorem steps_goTo {phase : ExecutionPhase} (aims : phase.aims) : Steps e (e.goTo phase) :=
  ⟨rfl, rfl, aims⟩

theorem steps_followed {entered : Execution} (task : entered.task = e.task)
    (inFlight : entered.inFlight = e.inFlight) : Steps e (entered.followed clock event) := by
  refine ⟨?_, ?_, ?_⟩
  · cases event <;> exact task
  · cases event <;> exact inFlight
  · unfold Execution.followed Execution.goTo
    dsimp only
    split <;> trivial

theorem steps_took : Steps e (e.took agents clock now event) := by
  have entered : ∀ entry : Option TaskTraceEntry,
      (entry.elim e e.noted).task = e.task ∧ (entry.elim e e.noted).inFlight = e.inFlight := by
    intro entry
    cases entry <;> exact ⟨rfl, rfl⟩
  obtain ⟨task, inFlight⟩ := entered (traceEntry agents now event)
  unfold Execution.took
  dsimp only
  split
  · split
    · split
      · exact steps_followed task inFlight
      · exact ⟨task, inFlight, trivial⟩
    · exact steps_followed task inFlight
  · exact steps_followed task inFlight

theorem steps_checked : Steps e (e.checked agents clock now event current) := by
  unfold Execution.checked
  split
  · exact ⟨rfl, rfl, trivial⟩
  · exact steps_took

theorem steps_yielded : Steps e (e.yielded agents clock now event) := by
  unfold Execution.yielded
  split
  · exact steps_goTo trivial
  · split
    · exact ⟨rfl, rfl, trivial⟩
    · exact steps_took

theorem steps_concluded : Steps e (e.concluded agents current) := by
  unfold Execution.concluded
  repeat' split
  all_goals exact steps_goTo (by simp [ExecutionPhase.aims, executorTargets])

theorem steps_handled {failureCode : String} : Steps e (e.handled failureCode current) := by
  unfold Execution.handled
  repeat' split
  all_goals exact steps_goTo (by simp [ExecutionPhase.aims, executorTargets])

theorem steps_wrote (aims : e.phase.aims) : Steps e (e.wrote clock) := by
  unfold Execution.wrote
  split
  · exact steps_followed rfl rfl
  · exact ⟨rfl, rfl, trivial⟩
  · exact steps_goTo trivial
  · exact steps_goTo trivial
  · exact steps_goTo trivial
  · exact steps_goTo trivial
  · exact ⟨rfl, rfl, aims⟩

theorem steps_refused (aims : e.phase.aims) {error : TaskError} : Steps e (e.refused error) := by
  unfold Execution.refused
  split
  all_goals first
    | exact steps_goTo trivial
    | exact ⟨rfl, rfl, aims⟩

theorem steps_closed : Steps e e.closed := by
  unfold Execution.closed
  split <;> exact steps_goTo trivial

end Executions

section Invariant

variable {env : Env} {s s' : Store} {op : Op} {e e' : Execution} {executions : List Execution}
  {c : Nat}

/-- An execution is fenced in a store: its attempt is the current one and runs, or
the execution is idle. -/
structure Tracked (s : Store) (e : Execution) : Prop where
  aims : e.phase.aims
  sent : ∀ target metadata, TaskWrite.state target metadata ∈ e.inFlight → target ∈ executorTargets
  claimed : Claimed s e.task
  held : Current s e.task ∨ e.idle

theorem Tracked.kept (h : Tracked s e) (refines : Refines s op s')
    (attempts : Everywhere AttemptsSound s)
    (ends : Current s e.task → EndsAttempt s e.task.taskId op → e.idle) : Tracked s' e := by
  refine ⟨h.aims, h.sent, refines.claimed h.claimed, ?_⟩
  rcases h.held with current | idle
  · by_cases ended : EndsAttempt s e.task.taskId op
    · exact Or.inr (ends current ended)
    · exact Or.inl (refines.current attempts ended current)
  · exact Or.inr idle

theorem Tracked.steps (h : Tracked s e) (steps : Steps e e')
    (idle : ¬ Current s e.task → e.idle → e'.idle) : Tracked s e' := by
  refine ⟨steps.aims, ?_, steps.task ▸ h.claimed, ?_⟩
  · rw [steps.inFlight]
    exact h.sent
  · rw [steps.task]
    by_cases current : Current s e.task
    · exact Or.inl current
    · exact Or.inr (idle current (h.held.resolve_left current))

/-- What the repository keeps under the calls of an executor and its clients. -/
structure Ready (s : Store) : Prop where
  sound : Sound s
  exclusive : Exclusive s
  normal : NormalTasks s

theorem Ready.kept (h : Ready s) (target : op.byExecutor) (taken : step env s op = some s') :
    Ready s' where
  sound := h.sound.kept taken
  exclusive := h.exclusive.kept h.sound target taken
  normal := (step_refines h.sound.rooted taken).normalTasks h.normal

structure Fences (s : Store) (executions : List Execution) : Prop where
  ready : Ready s
  tracked : ∀ (c : Nat) (e : Execution), executions[c]? = some e → Tracked s e
  apart : ∀ (c d : Nat) (a b : Execution), executions[c]? = some a → executions[d]? = some b →
    a.task.taskId = b.task.taskId → a.task.attemptCount = b.task.attemptCount → c = d

section
variable (h : Fences s executions)
include h

theorem Fences.set (ready : Ready s')
    (found : executions[c]? = some e) (task : e'.task = e.task) (tracked : Tracked s' e')
    (others : ∀ (d : Nat) (b : Execution), d ≠ c → executions[d]? = some b → Tracked s' b) :
    Fences s' (executions.set c e') := by
  have before : ∀ (d : Nat) (b : Execution), (executions.set c e')[d]? = some b →
      d = c ∧ b = e' ∨ d ≠ c ∧ executions[d]? = some b := by
    intro d b here
    rw [List.getElem?_set] at here
    by_cases same : c = d
    · rw [if_pos same] at here
      split at here
      · exact Or.inl ⟨same.symm, (Option.some.inj here).symm⟩
      · cases here
    · rw [if_neg same] at here
      exact Or.inr ⟨Ne.symm same, here⟩
  have task_before : ∀ (d : Nat) (b : Execution), (executions.set c e')[d]? = some b →
      ∃ b', executions[d]? = some b' ∧ b.task = b'.task := by
    intro d b here
    rcases before d b here with ⟨rfl, rfl⟩ | ⟨-, earlier⟩
    · exact ⟨e, found, task⟩
    · exact ⟨b, earlier, rfl⟩
  refine ⟨ready, ?_, ?_⟩
  · intro d b here
    rcases before d b here with ⟨rfl, rfl⟩ | ⟨other, earlier⟩
    · exact tracked
    · exact others d b other earlier
  · intro d f a b at_d at_f
    obtain ⟨a', before_d, task_a⟩ := task_before d a at_d
    obtain ⟨b', before_f, task_b⟩ := task_before f b at_f
    rw [task_a, task_b]
    exact h.apart d f a' b' before_d before_f

theorem Fences.steps (found : executions[c]? = some e)
    (steps : Steps e e') (idle : ¬ Current s e.task → e.idle → e'.idle) :
    Fences s (executions.set c e') :=
  h.set h.ready found steps.task ((h.tracked c e found).steps steps idle)
    (fun d b _ earlier => h.tracked d b earlier)

theorem Fences.kept (target : op.byExecutor) (taken : step env s op = some s')
    (ends : ∀ (c : Nat) (e : Execution), executions[c]? = some e → Current s e.task →
      EndsAttempt s e.task.taskId op → e.idle) : Fences s' executions := by
  have refines := step_refines h.ready.sound.rooted taken
  refine ⟨h.ready.kept target taken, ?_, h.apart⟩
  intro c e found
  exact (h.tracked c e found).kept refines h.ready.exclusive.attempts (ends c e found)

theorem Fences.current_unique {d : Nat} {a b : Execution}
    (at_c : executions[c]? = some a) (at_d : executions[d]? = some b)
    (same : a.task.taskId = b.task.taskId) (current_a : Current s a.task)
    (current_b : Current s b.task) : c = d := by
  obtain ⟨v, seen, runs⟩ := current_iff.mp current_a
  obtain ⟨w, seen', runs'⟩ := current_iff.mp current_b
  rw [← same, seen, Option.some.injEq] at seen'
  subst seen'
  exact h.apart c d a b at_c at_d same (runs.current.symm.trans runs'.current)

end

theorem byExecutor_of_byWorker (h : op.byWorker = false) : op.byExecutor := by
  cases op <;> first | exact True.intro | cases h

variable {task : TaskRecord} {now : Time} {w : TaskWrite}

theorem endsAttempt_write {taskId : String} (h : EndsAttempt s taskId (w.op task now)) :
    w.leaves = true ∧ strip task.taskId = taskId := by
  cases w with
  | artifact | trace => exact h.elim
  | state | unknown => exact ⟨rfl, h⟩

theorem byExecutor_write
    (aims : ∀ target metadata, w = .state target metadata → target ∈ executorTargets) :
    (w.op task now).byExecutor := by
  cases w with
  | state target metadata => exact aims target metadata rfl
  | _ => trivial

/-- A write of the current attempt's execution, which is idle after a write that
takes the Task out of RUNNING. -/
theorem Fences.wrote (h : Fences s executions) (found : executions[c]? = some e)
    (aims : ∀ target metadata, w = .state target metadata → target ∈ executorTargets)
    (current : Current s e.task) (taken : step env s (w.op e.task now) = some s')
    (task : e'.task = e.task) (aims' : e'.phase.aims)
    (sent : ∀ target metadata, TaskWrite.state target metadata ∈ e'.inFlight →
      target ∈ executorTargets)
    (idle : w.leaves = true → e'.idle) : Fences s' (executions.set c e') := by
  have refines := step_refines h.ready.sound.rooted taken
  have attempts := h.ready.exclusive.attempts
  have claimed := (h.tracked c e found).claimed
  refine h.set (h.ready.kept (byExecutor_write aims) taken) found task ⟨aims', sent, ?_, ?_⟩ ?_
  · rw [task]
    exact refines.claimed claimed
  · rw [task]
    by_cases leaves : w.leaves = true
    · exact Or.inr (idle leaves)
    · exact Or.inl (refines.current attempts
        (fun ends => leaves (endsAttempt_write ends).1) current)
  · intro d b other earlier
    apply (h.tracked d b earlier).kept refines attempts
    intro running ends
    have same : e.task.taskId = b.task.taskId := claimed.1.symm.trans (endsAttempt_write ends).2
    exact absurd (h.current_unique found earlier same current running) (Ne.symm other)

theorem Fences.claimed (h : Fences s executions) {workerId : String} {leaseSeconds : Time}
    (claim : claimNext env now workerId leaseSeconds "" s = .ok (some task, s')) :
    Fences s' (executions ++ [{ task := task }]) := by
  have taken : step env s (.claimNext now workerId leaseSeconds "") = some s' := by
    simp only [step, Op.call, commit_ok_iff.mpr claim, outcome, Except.map]
  obtain ⟨current, claimed, v, seen, queued, count⟩ := claimNext_claimed h.ready.normal claim
  have target : (Op.claimNext now workerId leaseSeconds "").byExecutor := True.intro
  have others := h.kept target taken (fun _ _ _ _ ends => ends.elim)
  have older : ∀ (c : Nat) (e : Execution), executions[c]? = some e →
      e.task.taskId = task.taskId → e.task.attemptCount < task.attemptCount := by
    intro c e found same
    obtain ⟨-, w, seen', bound⟩ := (h.tracked c e found).claimed
    rw [same, seen, Option.some.injEq] at seen'
    subst seen'
    omega
  refine ⟨others.ready, ?_, ?_⟩
  · intro c e found
    rcases List.mem_concat.mp (List.mem_of_getElem? found) with before | here
    · obtain ⟨d, earlier⟩ := List.mem_iff_getElem?.mp before
      exact others.tracked d e earlier
    · rw [here]
      exact ⟨trivial, (by intro _ _ sent; cases sent), claimed, Or.inl current⟩
  · have entry : ∀ (c : Nat) (e : Execution),
        (executions ++ [({ task := task } : Execution)])[c]? = some e →
          executions[c]? = some e ∨ c = executions.length ∧ e.task = task := by
      intro c e found
      rw [List.getElem?_append] at found
      split at found
      · exact Or.inl found
      · rw [List.getElem?_singleton] at found
        split at found <;> cases found
        exact Or.inr ⟨by omega, rfl⟩
    intro c d a b at_c at_d same attempt
    rcases entry c a at_c with old | ⟨last, new⟩
    · rcases entry d b at_d with old' | ⟨-, new'⟩
      · exact h.apart c d a b old old' same attempt
      · rw [new'] at same attempt
        exact absurd attempt (older c a old same).ne
    · rcases entry d b at_d with old' | ⟨last', -⟩
      · rw [new] at same attempt
        exact absurd attempt.symm (older d b old' same.symm).ne
      · rw [last, last']

end Invariant

section Runs

variable {env : Env} {agents : Agents}

/-- The write a step makes, for the execution that makes it. -/
def Worker.written (s : Worker) : WorkerAct → Option (Execution × TaskWrite × Time)
  | .write c now _ => (s.executions[c]?).bind (fun e => e.awaited.map (fun w => (e, w, now)))
  | .land c i now => (s.executions[c]?).bind (fun e => (e.inFlight[i]?).map (fun w => (e, w, now)))
  | _ => none

/-- What a step of an executor writes is applied while its attempt is the Task's
current one, and runs. -/
def Fenced (env : Env) (s : Worker) (act : WorkerAct) : Prop :=
  ∀ call ∈ s.written act, (step env s.store (call.2.1.op call.1.task call.2.2)).isSome = true →
    Current s.store call.1.task

def FindsStopped (s : Worker) (e : Execution) (stops : TaskRecord → Prop) : Prop :=
  Current s.store e.task ∨
    ∀ current ∈ (getTask s.store e.task.principalId e.task.taskId).toOption, stops current

/-- No attempt ends under an executor that is writing, has decided to write or has
an unsaved trace, and the executor of an ended attempt stops where it next looks. -/
def KeepsFence (s : Worker) : WorkerAct → Prop
  | .repository op => ∀ e ∈ s.executions, Current s.store e.task →
      EndsAttempt s.store e.task.taskId op → e.idle
  | .yield c clock _ event => ∀ e ∈ s.executions[c]?, Current s.store e.task ∨
      e.cancellation = true ∨ event.isDelta = false ∨ 1 ≤ clock - e.lastStateCheck
  | .check c _ _ => ∀ e ∈ s.executions[c]?, FindsStopped s e (fun current =>
    current.state.isTerminal = true ∨ current.cancelRequested = true ∨
      current.phase = "pause_requested")
  | .raise c failureCode => ∀ e ∈ s.executions[c]?, Current s.store e.task ∨ failureCode ≠ none
  | .settle c => ∀ e ∈ s.executions[c]?, FindsStopped s e (fun current =>
    current.state.isTerminal = true ∨ current.state = .paused)
  | .handle c => ∀ e ∈ s.executions[c]?, FindsStopped s e (fun current =>
    current.state.isTerminal = true ∨
      current.cancelRequested = false ∧ current.state = .waitingApproval)
  | .write c _ _ => ∀ e ∈ s.executions[c]?, ∀ w ∈ e.awaited, w.leaves = true →
      e.traceDirty = false ∧ e.inFlight = []
  | .land c i _ => ∀ e ∈ s.executions[c]?, ∀ w ∈ e.inFlight[i]?, w.leaves = true →
      { e with inFlight := e.inFlight.eraseIdx i }.idle
  | _ => True

@[simp] theorem Worker.advanced_store (s : Worker) (c : Nat) (e : Execution) :
    (s.advanced c e).store = s.store := by
  unfold Worker.advanced
  split <;> rfl

@[simp] theorem Worker.advanced_executions (s : Worker) (c : Nat) (e : Execution) :
    (s.advanced c e).executions = s.executions.set c e := by
  unfold Worker.advanced
  split <;> rfl

variable {s s' : Worker} {c : Nat}

theorem Worker.withExecution_some {f : Execution → Option Worker}
    (h : s.withExecution c f = some s') : ∃ e, s.executions[c]? = some e ∧ f e = some s' :=
  Option.bind_eq_some_iff.mp h

variable {e : Execution}

theorem Tracked.current_of_written {s : Store} (h : Tracked s e) (busy : ¬ e.idle) :
    Current s e.task :=
  h.held.resolve_right busy

theorem fenced_of_fences (h : Fences s.store s.executions) (act : WorkerAct) :
    Fenced env s act := by
  intro call written _
  cases act with
  | write c now clock =>
    obtain ⟨e, found, awaits⟩ := Option.bind_eq_some_iff.mp written
    obtain ⟨w, awaited, rfl⟩ := Option.map_eq_some_iff.mp awaits
    apply (h.tracked c e found).current_of_written
    intro idle
    rw [idle.unawaited] at awaited
    cases awaited
  | land c i now =>
    obtain ⟨e, found, flies⟩ := Option.bind_eq_some_iff.mp written
    obtain ⟨w, sent, rfl⟩ := Option.map_eq_some_iff.mp flies
    apply (h.tracked c e found).current_of_written
    intro idle
    rw [idle.1] at sent
    cases sent
  | _ => cases written

theorem Worker.signalCancel_fences (h : Fences s.store s.executions) (taskId : String) :
    Fences (s.signalCancel taskId).store (s.signalCancel taskId).executions := by
  unfold Worker.signalCancel
  split
  · rename_i c listed
    cases found : s.executions[c]? with
    | none =>
      rw [List.modify_eq_self]
      · exact h
      · exact List.getElem?_eq_none_iff.mp found
    | some e =>
      have same : s.executions.modify c (fun e => { e with cancellation := true }) =
          s.executions.set c { e with cancellation := true } := by
        rw [List.modify_eq_set_getElem?, found]
        rfl
      rw [same]
      exact h.steps found ⟨rfl, rfl, (h.tracked c e found).aims⟩ (fun _ idle => idle)
  · exact h

theorem Worker.claim_fences {now : Time} {workerId : String} {leaseSeconds : Time}
    (h : Fences s.store s.executions) (taken : s.claim env now workerId leaseSeconds = some s') :
    Fences s'.store s'.executions := by
  unfold Worker.claim at taken
  split at taken
  · rename_i task store claim
    cases taken
    exact h.claimed (commit_ok_iff.mp claim)
  · rename_i store claim
    cases taken
    have target : (Op.claimNext now workerId leaseSeconds "").byExecutor := True.intro
    have accepted : Tasks.step env s.store (.claimNext now workerId leaseSeconds "") =
        some store := by
      simp only [Tasks.step, Op.call, claim, outcome, Except.map]
    exact h.kept target accepted (fun _ _ _ _ ends => ends.elim)
  · cases taken

theorem awaited_aims {target : TaskState} {metadata : TransitionMetadata} (aims : e.phase.aims)
    (awaited : e.awaited = some (.state target metadata)) : target ∈ executorTargets := by
  unfold Execution.awaited at awaited
  split at awaited <;> rename_i phase <;> cases awaited <;> rw [phase] at aims <;> exact aims

theorem wrote_idle {w : TaskWrite} {clock : Time} (awaited : e.awaited = some w)
    (leaves : w.leaves = true) (saved : e.traceDirty = false) (quiet : e.inFlight = []) :
    (e.wrote clock).idle := by
  have closing : (e.goTo .closing).idle := ⟨quiet, Or.inr ⟨saved, rfl⟩⟩
  unfold Execution.awaited at awaited
  unfold Execution.wrote
  split at awaited <;> rename_i phase <;> cases awaited
  · cases leaves
  · cases leaves
  · cases leaves
  · rw [phase]
    exact closing
  · rw [phase]
    exact closing
  · rw [phase]
    exact closing

theorem Worker.land_fences {i : Nat} {now : Time} (h : Fences s.store s.executions)
    (found : s.executions[c]? = some e)
    (clean : ∀ w ∈ e.inFlight[i]?, w.leaves = true →
      { e with inFlight := e.inFlight.eraseIdx i }.idle)
    (taken : s.land env c i e now = some s') : Fences s'.store s'.executions := by
  have tracked := h.tracked c e found
  unfold Worker.land at taken
  split at taken <;> cases taken
  rename_i w sent
  have busy : ¬ e.idle := by
    intro idle
    rw [idle.1] at sent
    cases sent
  have current := tracked.current_of_written busy
  have left : ∀ target metadata,
      TaskWrite.state target metadata ∈ e.inFlight.eraseIdx i → target ∈ executorTargets :=
    fun target metadata member => tracked.sent target metadata (List.mem_of_mem_eraseIdx member)
  have result := next_eq_call env s.store (w.op e.task now)
  cases accepted : Tasks.step env s.store (w.op e.task now) with
  | none =>
    rw [← result, Transition.next_of_none accepted]
    exact h.set h.ready found rfl ⟨tracked.aims, left, tracked.claimed, Or.inl current⟩
      (fun d b _ earlier => h.tracked d b earlier)
  | some store =>
    rw [← result, Transition.next_of_some accepted]
    refine h.wrote found ?_ current accepted rfl tracked.aims left (clean w sent)
    rintro target metadata rfl
    exact tracked.sent target metadata (List.mem_of_getElem? sent)

theorem Worker.write_fences {now clock : Time} (h : Fences s.store s.executions)
    (found : s.executions[c]? = some e)
    (clean : ∀ w ∈ e.awaited, w.leaves = true → e.traceDirty = false ∧ e.inFlight = [])
    (taken : s.write env c e now clock = some s') : Fences s'.store s'.executions := by
  have tracked := h.tracked c e found
  unfold Worker.write at taken
  split at taken
  · rename_i w awaited
    have busy : ¬ e.idle := by
      intro idle
      rw [idle.unawaited] at awaited
      cases awaited
    have current := tracked.current_of_written busy
    split at taken
    · rename_i store called
      cases taken
      have accepted : Tasks.step env s.store (w.op e.task now) = some store := by
        simp only [Tasks.step, called]
      have after : Steps e (e.wrote clock) := steps_wrote tracked.aims
      simp only [advanced_store, advanced_executions]
      refine h.wrote found ?_ current accepted after.task after.aims ?_ ?_
      · rintro target metadata rfl
        exact awaited_aims tracked.aims awaited
      · rw [after.inFlight]
        exact tracked.sent
      · intro leaves
        obtain ⟨saved, quiet⟩ := clean w awaited leaves
        exact wrote_idle awaited leaves saved quiet
    · cases taken
      simp only [advanced_store, advanced_executions]
      exact h.steps found (steps_refused tracked.aims) (fun superseded => absurd current superseded)
  · cases taken

end Runs

section Steps

variable {env : Env} {agents : Agents} {s s' : Worker} {c : Nat} {e : Execution}
  {clock now : Time}

theorem FindsStopped.found {stops : TaskRecord → Prop} {current : TaskRecord}
    (h : FindsStopped s e stops) (superseded : ¬ Current s.store e.task)
    (read : getTask s.store e.task.principalId e.task.taskId = .ok current) : stops current := by
  apply h.resolve_left superseded current
  rw [read]
  rfl

theorem Worker.start_fences (h : Fences s.store s.executions) (found : s.executions[c]? = some e)
    (taken : s.start c e clock = some s') : Fences s'.store s'.executions := by
  unfold Worker.start at taken
  split at taken
  · rename_i starting
    split at taken <;> cases taken
    · refine h.steps found ⟨rfl, rfl, True.intro⟩ ?_
      rintro - ⟨quiet, ended | ⟨saved, -⟩⟩
      · rw [starting] at ended
        cases ended
      · exact ⟨quiet, Or.inr ⟨saved, rfl⟩⟩
    · exact h.steps found (steps_goTo True.intro) (fun _ idle => ⟨idle.1, Or.inl rfl⟩)
  · cases taken

theorem Execution.idle.goTo {phase : ExecutionPhase} (idle : e.idle) (live : e.phase ≠ .ended)
    (undecided : phase.undecided = true) : (e.goTo phase).idle :=
  ⟨idle.1, Or.inr ⟨(idle.2.resolve_left live).1, undecided⟩⟩

section
variable (h : Fences s.store s.executions)
include h

theorem Worker.yield_fences {event : RuntimeTurnEvent} (found : s.executions[c]? = some e)
    (clean : Current s.store e.task ∨ e.cancellation = true ∨ event.isDelta = false ∨
      1 ≤ clock - e.lastStateCheck) (streaming : e.phase = .streaming) :
    Fences s.store (s.executions.set c (e.yielded agents clock now event)) := by
  apply h.steps found steps_yielded
  intro superseded idle
  have live : e.phase ≠ .ended := by simp [streaming]
  unfold Execution.yielded
  split
  · exact idle.goTo live rfl
  · rename_i running
    rw [if_pos ((clean.resolve_left superseded).resolve_left running)]
    exact ⟨idle.1, Or.inr ⟨(idle.2.resolve_left live).1, rfl⟩⟩

theorem Worker.check_fences (found : s.executions[c]? = some e)
    (clean : FindsStopped s e (fun current => current.state.isTerminal = true ∨
      current.cancelRequested = true ∨ current.phase = "pause_requested"))
    (taken : s.check agents c e clock now = some s') : Fences s'.store s'.executions := by
  unfold Worker.check at taken
  split at taken
  · rename_i event checking
    have live : e.phase ≠ .ended := by simp [checking]
    split at taken <;> cases taken
    · rename_i current read
      apply h.steps found steps_checked
      intro superseded idle
      unfold Execution.checked
      rw [if_pos (clean.found superseded read)]
      exact ⟨idle.1, Or.inr ⟨(idle.2.resolve_left live).1, rfl⟩⟩
    · exact h.steps found (steps_goTo True.intro) (fun _ idle => idle.goTo live rfl)
  · cases taken

theorem Worker.raised_fences {failureCode : Option String}
    (found : s.executions[c]? = some e) (clean : Current s.store e.task ∨ failureCode ≠ none)
    (taken : s.raised c e failureCode = some s') : Fences s'.store s'.executions := by
  have known : ∀ live : e.phase ≠ .ended,
      Fences s.store (s.executions.set c (e.goTo (failureCode.elim .unknown .failing))) := by
    intro live
    apply h.steps found
    · cases failureCode <;> exact steps_goTo True.intro
    · intro superseded idle
      obtain ⟨code, rfl⟩ := Option.ne_none_iff_exists'.mp (clean.resolve_left superseded)
      exact idle.goTo live rfl
  unfold Worker.raised at taken
  split at taken
  · rename_i streaming
    cases taken
    exact known (by simp [streaming])
  · rename_i checking
    cases taken
    exact known (by simp [checking])
  · cases taken

theorem Worker.settle_fences (found : s.executions[c]? = some e)
    (clean : FindsStopped s e (fun current =>
      current.state.isTerminal = true ∨ current.state = .paused))
    (taken : s.settle c e = some s') : Fences s'.store s'.executions := by
  unfold Worker.settle at taken
  split at taken
  · rename_i settling
    have live : e.phase ≠ .ended := by simp [settling]
    split at taken <;> cases taken
    · rename_i current read
      have aims : (ExecutionPhase.settled current).aims := True.intro
      apply h.steps found (steps_goTo aims)
      intro superseded idle
      apply idle.goTo live
      simpa [ExecutionPhase.undecided] using clean.found superseded read
    · exact h.steps found (steps_goTo True.intro) (fun _ idle => idle.goTo live rfl)
  · cases taken

theorem Worker.conclude_fences {current : TaskRecord}
    (found : s.executions[c]? = some e) (settled : e.phase = .settled current) :
    Fences s.store (s.executions.set c (e.concluded agents current)) := by
  apply h.steps found steps_concluded
  rintro - idle
  have live : e.phase ≠ .ended := by simp [settled]
  have closing : (e.goTo .closing).idle := idle.goTo live rfl
  have stopped := (idle.2.resolve_left live).2
  simp only [settled, ExecutionPhase.undecided, Bool.or_eq_true, beq_iff_eq] at stopped
  unfold Execution.concluded
  rcases stopped with terminal | paused
  · rw [if_pos terminal]
    exact closing
  · rw [if_pos paused]
    split <;> exact closing

theorem Worker.handle_fences (found : s.executions[c]? = some e)
    (clean : FindsStopped s e (fun current => current.state.isTerminal = true ∨
      current.cancelRequested = false ∧ current.state = .waitingApproval))
    (taken : s.handle c e = some s') : Fences s'.store s'.executions := by
  unfold Worker.handle at taken
  split at taken
  · rename_i failureCode failing
    have live : e.phase ≠ .ended := by simp [failing]
    split at taken <;> cases taken
    · rename_i current read
      apply h.steps found steps_handled
      intro superseded idle
      have closing : (e.goTo .closing).idle := idle.goTo live rfl
      unfold Execution.handled
      rcases clean.found superseded read with terminal | ⟨uncancelled, waiting⟩
      · rw [if_pos terminal]
        exact closing
      · split
        · exact closing
        · simpa [uncancelled, waiting] using closing
    · exact h.steps found (steps_goTo True.intro) (fun _ idle => idle.goTo live rfl)
  · cases taken

theorem Worker.close_fences (found : s.executions[c]? = some e) (closing : e.phase = .closing) :
    Fences s.store (s.executions.set c e.closed) := by
  apply h.steps found steps_closed
  rintro - ⟨quiet, ended | ⟨saved, -⟩⟩
  · rw [closing] at ended
    cases ended
  · unfold Execution.closed
    rw [if_neg (by simp [saved])]
    exact ⟨quiet, Or.inl rfl⟩

end

theorem Execution.interrupted_some {e' : Execution} {started : Bool}
    (h : e.interrupted started = some e') : e'.task = e.task ∧ e'.phase.aims ∧ (e.idle → e'.idle) ∧
      ∀ w ∈ e'.inFlight, w ∈ e.inFlight ∨ e.awaited = some w := by
  have sent : ∀ w ∈ e.inFlight ++ (if started then e.awaited.toList else []),
      w ∈ e.inFlight ∨ e.awaited = some w := by
    intro w member
    rcases List.mem_append.mp member with old | new
    · exact Or.inl old
    · split at new
      · exact Or.inr (Option.mem_toList.mp new)
      · cases new
  have quiet : e.idle → e.inFlight ++ (if started then e.awaited.toList else []) = [] := by
    intro idle
    rw [idle.1, idle.unawaited]
    cases started <;> rfl
  have saved : e.idle → e.phase ≠ .ended → e.traceDirty = false :=
    fun idle live => (idle.2.resolve_left live).1
  unfold Execution.interrupted at h
  generalize e.inFlight ++ (if started then e.awaited.toList else []) = flying at h sent quiet
  split at h <;> rename_i phase <;> cases h
  all_goals refine ⟨rfl, True.intro, fun idle => ⟨quiet idle, ?_⟩, sent⟩
  all_goals first
    | exact Or.inl rfl
    | exact Or.inr ⟨saved idle (by simp_all), rfl⟩

theorem Worker.interrupt_fences {e' : Execution} {started : Bool}
    (h : Fences s.store s.executions) (found : s.executions[c]? = some e)
    (taken : e.interrupted started = some e') : Fences s.store (s.executions.set c e') := by
  obtain ⟨task, aims, idle, sent⟩ := Execution.interrupted_some taken
  have tracked := h.tracked c e found
  refine h.set h.ready found task ⟨aims, ?_, task ▸ tracked.claimed, ?_⟩
    (fun d b _ earlier => h.tracked d b earlier)
  · intro target metadata member
    rcases sent _ member with old | new
    · exact tracked.sent target metadata old
    · exact awaited_aims tracked.aims new
  · rw [task]
    exact tracked.held.imp_right idle

theorem Worker.crash_fences (h : Fences s.store s.executions) :
    Fences s.crash.store s.crash.executions := by
  have before : ∀ (d : Nat) (b : Execution), s.crash.executions[d]? = some b →
      ∃ b', s.executions[d]? = some b' ∧ { b' with phase := .ended, inFlight := [] } = b := by
    intro d b here
    rw [Worker.crash, List.getElem?_map, Option.map_eq_some_iff] at here
    exact here
  refine ⟨h.ready, ?_, ?_⟩
  · intro d b here
    obtain ⟨b', earlier, rfl⟩ := before d b here
    exact ⟨True.intro, nofun, (h.tracked d b' earlier).claimed, Or.inr ⟨rfl, Or.inl rfl⟩⟩
  · intro d f a b at_d at_f same attempt
    obtain ⟨a', before_d, rfl⟩ := before d a at_d
    obtain ⟨b', before_f, rfl⟩ := before f b at_f
    exact h.apart d f a' b' before_d before_f same attempt

theorem Worker.step_fences {act : WorkerAct} (h : Fences s.store s.executions)
    (clean : KeepsFence s act) (taken : s.step env agents act = some s') :
    Fences s'.store s'.executions := by
  cases act with
  | repository op =>
    simp only [Worker.step] at taken
    split at taken
    · cases taken
    · rename_i others
      obtain ⟨store, accepted, rfl⟩ := Option.map_eq_some_iff.mp taken
      exact h.kept (byExecutor_of_byWorker (Bool.eq_false_of_not_eq_true others)) accepted
        (fun c e found => clean e (List.mem_of_getElem? found))
  | claim now workerId leaseSeconds => exact Worker.claim_fences h taken
  | signalCancel taskId =>
    cases taken
    exact Worker.signalCancel_fences h taskId
  | start c clock =>
    obtain ⟨e, found, started⟩ := Worker.withExecution_some taken
    exact Worker.start_fences h found started
  | yield c clock now event =>
    obtain ⟨e, found, yielded⟩ := Worker.withExecution_some taken
    split at yielded <;> cases yielded
    rename_i streaming
    exact Worker.yield_fences h found (clean e found) streaming
  | check c clock now =>
    obtain ⟨e, found, checked⟩ := Worker.withExecution_some taken
    exact Worker.check_fences h found (clean e found) checked
  | exhaust c =>
    obtain ⟨e, found, exhausted⟩ := Worker.withExecution_some taken
    split at exhausted <;> cases exhausted
    rename_i streaming
    exact h.steps found (steps_goTo True.intro) (fun _ idle => idle.goTo (by simp [streaming]) rfl)
  | raise c failureCode =>
    obtain ⟨e, found, raised⟩ := Worker.withExecution_some taken
    exact Worker.raised_fences h found (clean e found) raised
  | settle c =>
    obtain ⟨e, found, settled⟩ := Worker.withExecution_some taken
    exact Worker.settle_fences h found (clean e found) settled
  | conclude c =>
    obtain ⟨e, found, concluded⟩ := Worker.withExecution_some taken
    split at concluded <;> cases concluded
    rename_i current settled
    exact Worker.conclude_fences h found settled
  | handle c =>
    obtain ⟨e, found, handled⟩ := Worker.withExecution_some taken
    exact Worker.handle_fences h found (clean e found) handled
  | write c now clock =>
    obtain ⟨e, found, wrote⟩ := Worker.withExecution_some taken
    exact Worker.write_fences h found (clean e found) wrote
  | close c =>
    obtain ⟨e, found, closes⟩ := Worker.withExecution_some taken
    split at closes <;> cases closes
    rename_i closing
    simp only [Worker.advanced_store, Worker.advanced_executions]
    exact Worker.close_fences h found closing
  | interrupt c started =>
    obtain ⟨e, found, stopped⟩ := Worker.withExecution_some taken
    obtain ⟨e', interrupted, rfl⟩ := Option.map_eq_some_iff.mp stopped
    exact Worker.interrupt_fences h found interrupted
  | land c i now =>
    obtain ⟨e, found, landed⟩ := Worker.withExecution_some taken
    exact Worker.land_fences h found (clean e found) landed
  | crash =>
    cases taken
    exact Worker.crash_fences h

end Steps

instance (s : Store) (task : TaskRecord) : Decidable (Current s task) := by
  unfold Current
  infer_instance

instance (s : Store) (taskId : String) (op : Op) : Decidable (EndsAttempt s taskId op) := by
  apply op.casesOn (motive := fun op => Decidable (EndsAttempt s taskId op)) <;> intros <;>
    unfold EndsAttempt <;> infer_instance

instance (e : Execution) : Decidable e.idle := by
  unfold Execution.idle
  infer_instance

instance (env : Env) (s : Worker) (act : WorkerAct) : Decidable (Fenced env s act) := by
  unfold Fenced
  infer_instance

instance (s : Worker) (act : WorkerAct) : Decidable (KeepsFence s act) := by
  cases act <;> unfold KeepsFence <;> try unfold FindsStopped
  all_goals infer_instance

theorem initial_fences (sessions : Table SessionRow.sessionHandle)
    (definitions : Table DefinitionRow.taskId) (executions : Table ExecutionRow.executionId) :
    Fences (Store.initial sessions definitions executions) [] where
  ready :=
    { sound := initial_sound sessions definitions executions
      exclusive := initial_exclusive sessions definitions executions
      normal := by
        intro taskId v seen
        cases seen }
  tracked := by
    intro c e found
    cases found
  apart := by
    intro c d a b found
    cases found

theorem attempts_fenced (env : Env) (agents : Agents)
    (sessions : Table SessionRow.sessionHandle) (definitions : Table DefinitionRow.taskId)
    (executions : Table ExecutionRow.executionId) (acts : List WorkerAct)
    (clean : ∀ taken ∈ accepted (Worker.step env agents)
      { store := Store.initial sessions definitions executions } acts, KeepsFence taken.1 taken.2) :
    ∀ taken ∈ accepted (Worker.step env agents)
      { store := Store.initial sessions definitions executions } acts,
      Fenced env taken.1 taken.2 := by
  have kept : ∀ s act s', Fences s.store s.executions → KeepsFence s act →
      Worker.step env agents s act = some s' → Fences s'.store s'.executions :=
    fun _ _ _ safe keeps taken => Worker.step_fences safe keeps taken
  exact Transition.accepted_of_clean kept
    (fun _ act _ safe _ _ => fenced_of_fences safe act)
    (initial_fences sessions definitions executions) clean

section Sample

def sampleAgents : Agents where
  artifactRef _ := none
  toolResult _ _ _ := .emptyObject
  notice _ := ""

def sampleClaimed : List WorkerAct := [.repository (sampleCreate "t"), .claim 0 "w" 60, .start 0 0]

def sampleRequested : WorkerAct :=
  .repository (.requestApproval 1 (fun _ => "a") "p" "t"
    { toolStepId := "k", toolCallId := "c", toolName := "write", arguments := .emptyObject })

/-- The first executor reads that its Task is paused. The Task is resumed, claimed and finished by
a second one, and the first ends beside it. -/
def supersededTurn : List WorkerAct :=
  sampleClaimed ++
    [sampleRequested, .repository (.requestPause 2 "p" "t" ""), .exhaust 0, .settle 0,
      .repository (.resume 3 "p" "t" "" false), .claim 4 "w" 60, .start 1 4, .conclude 0,
      .yield 1 5 5 (.turnFinished { status := .completed, finalOutput := "done" }), .check 1 5 5,
      .write 1 6 6, .close 0, .exhaust 1, .settle 1, .conclude 1, .write 1 7 7, .close 1]

theorem attempts_fenced_superseded :
    Transition.Along (fun taken => Fenced sampleEnv taken.1 taken.2)
      (accepted (Worker.step sampleEnv sampleAgents) { store := sampleStore } supersededTurn) :=
  attempts_fenced sampleEnv sampleAgents sampleSessions .empty .empty supersededTurn
    (by decide +kernel)

/-- The Task is paused while it waits for an approval, resumed and claimed again
before the first executor gets to its last steps. -/
def claimedAgain : List WorkerAct :=
  sampleClaimed ++
    [sampleRequested, .repository (.requestPause 2 "p" "t" ""), .signalCancel "t",
      .repository (.resume 3 "p" "t" "" false), .claim 4 "w" 60,
      .exhaust 0, .settle 0, .conclude 0, .write 0 5 5]

theorem superseded_executor_cancels_new_attempt :
    ¬ ∀ taken ∈ accepted (Worker.step sampleEnv sampleAgents) { store := sampleStore } claimedAgain,
      Fenced sampleEnv taken.1 taken.2 := by
  decide +kernel

end Sample

end Knoa.Tasks
