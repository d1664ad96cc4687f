import Knoa.Tasks.Exclusivity
import Knoa.Tasks.ToolStepSafety

/-!
# Restart recovery

After `recover_interrupted` no Task runs and no tool step commits, a Task that waited for an
approval still does, and a second recovery only warns again. The recovery is one that succeeds, of
a store that no deletion or compaction has gone through.
-/
namespace Knoa.Tasks
open Relational (Table)
open Transition

/-- A Task before and after a recovery. -/
structure Recovered (now : Time) (v v' : TaskView) : Prop where
  steps : v'.steps = quarantine now v.steps
  approvals : v'.approvals = v.approvals
  idle : v.row.state.isActive = false → v'.row = v.row ∧ v'.events = v.events ∧ v'.attempts = v.attempts
  waits : v.row.state = .waitingApproval →
    v'.row.state = .waitingApproval ∧ v'.row.control = v.row.control.unleased
  paused : v.row.state = .running → v'.row.state = .paused ∧
    v'.row.control = { v.row.control.unleased with phase := restartPhase { v with steps := v'.steps } }
  attempts : v.row.state.isActive = true →
    ∃ code, v'.attempts = finishRunning .interrupted now code v.attempts

structure Quiet (v : TaskView) : Prop where
  state : v.row.state ≠ .running
  steps : ∀ step ∈ v.steps, step.state ≠ .committing
  unleased : v.row.state.isActive = true → v.row.control.unleased = v.row.control
  attempts : v.row.state.isActive = true → noneRunning v.attempts

/-- Two views of a Task that differ in its warnings only. -/
structure SameButWarned (v v' : TaskView) : Prop where
  state : v'.row.state = v.row.state
  control : v'.row.control = v.row.control
  attempts : v'.attempts = v.attempts
  steps : v'.steps = v.steps
  approvals : v'.approvals = v.approvals

section Views

variable {s s' : Store} {env : Env} {now : Time} {v v' : TaskView} {taskId : String}

theorem map_spared {ρ : Type} {rows : List ρ} {p : ρ → Prop} [DecidablePred p] {f : ρ → ρ}
    (spared : ∀ a ∈ rows, ¬ p a) : rows.map (fun row => if p row then f row else row) = rows := by
  induction rows with
  | nil => rfl
  | cons row rows ih =>
    simp only [List.map_cons, if_neg (spared row List.mem_cons_self)]
    exact congrArg _ (ih fun a member => spared a (List.mem_cons_of_mem _ member))

theorem Move.recovered (move : Move s (.recoverInterrupted now) v v') : Recovered now v v' := by
  cases move with
  | touch _ _ touched => exact touched.elim
  | note _ _ noted => exact noted.elim
  | restart idle =>
    refine ⟨rfl, rfl, fun _ => ⟨rfl, rfl, rfl⟩, ?_, ?_, fun active => ?_⟩
    · intro waits
      simp [waits, TaskState.isActive] at idle
    · intro runs
      simp [runs, TaskState.isActive] at idle
    · simp [active] at idle
  | restartWaiting waiting row control =>
    refine ⟨rfl, rfl, ?_, fun _ => ⟨row.state, control⟩, ?_, fun _ => ⟨_, rfl⟩⟩ <;>
      simp [waiting, TaskState.isActive]
  | restartRunning running row control =>
    refine ⟨rfl, rfl, ?_, ?_, fun _ => ⟨row.state, control⟩, fun _ => ⟨_, rfl⟩⟩ <;>
      simp [running, TaskState.isActive]

theorem Recovered.quiet (h : Recovered now v v') : Quiet v' := by
  have steps : ∀ step ∈ v'.steps, step.state ≠ .committing := by
    rw [h.steps]
    exact quarantine_settled _ _
  have attempts (active : v.row.state.isActive = true) : noneRunning v'.attempts := by
    obtain ⟨code, attempts⟩ := h.attempts active
    rw [attempts]
    exact finishRunning_none (by decide) _ _ _
  cases state : v.row.state with
  | running =>
    obtain ⟨paused, -⟩ := h.paused state
    refine ⟨?_, steps, ?_, ?_⟩ <;> simp [paused, TaskState.isActive]
  | waitingApproval =>
    obtain ⟨waits, control⟩ := h.waits state
    refine ⟨?_, steps, fun _ => ?_, fun _ => attempts (by rw [state]; rfl)⟩
    · simp [waits]
    · rw [control]
      rfl
  | _ =>
    obtain ⟨row, -, -⟩ := h.idle (by rw [state]; rfl)
    refine ⟨?_, steps, ?_, ?_⟩ <;> simp [row, state, TaskState.isActive]

theorem Recovered.again (h : Recovered now v v') (quiet : Quiet v) : SameButWarned v v' := by
  have steps := h.steps.trans (map_spared quiet.steps)
  cases state : v.row.state with
  | running => exact absurd state quiet.state
  | waitingApproval =>
    have active : v.row.state.isActive = true := by rw [state]; rfl
    obtain ⟨waits, control⟩ := h.waits state
    obtain ⟨code, attempts⟩ := h.attempts active
    rw [finishRunning, map_spared (quiet.attempts active)] at attempts
    exact ⟨waits.trans state.symm, control.trans (quiet.unleased active), attempts, steps, h.approvals⟩
  | _ =>
    obtain ⟨row, -, attempts⟩ := h.idle (by rw [state]; rfl)
    exact ⟨congrArg _ row, congrArg _ row, attempts, steps, h.approvals⟩

theorem recovery_recovers (taken : step env s (.recoverInterrupted now) = some s')
    (seen : s.view taskId = some v) : ∃ v', s'.view taskId = some v' ∧ Recovered now v v' := by
  obtain ⟨events, returned⟩ := commit_returned (step_eq_some taken)
  obtain ⟨v', after, move⟩ := recoverInterrupted_moves returned seen
  exact ⟨v', after, move.recovered⟩

end Views

theorem restart_recovers (env : Env) (sessions : Table SessionRow.sessionHandle)
    (definitions : Table DefinitionRow.taskId) (executions : Table ExecutionRow.executionId)
    (ops : List Op) (now : Time) (s' : Store)
    (taken : step env (final (step env) (.initial sessions definitions executions) ops)
      (.recoverInterrupted now) = some s') :
    let s := final (step env) (.initial sessions definitions executions) ops
    (∀ taskId, s.view taskId = none → s'.view taskId = none) ∧
      (∀ taskId v, s.view taskId = some v →
        ∃ v', s'.view taskId = some v' ∧ Recovered now v v' ∧ Quiet v') ∧
      ∀ later s'', step env s' (.recoverInterrupted later) = some s'' →
        ∀ taskId v', s'.view taskId = some v' →
          ∃ v'', s''.view taskId = some v'' ∧ SameButWarned v' v'' := by
  intro s
  have sound : Sound s := final_sound sessions definitions executions ops
  have unborn : ∀ taskId, s.view taskId = none → s'.view taskId = none := by
    intro taskId unseen
    cases (step_refines sound.rooted taken).changed taskId with
    | same slice => exact (view_of_slice slice).trans unseen
    | moved before =>
      rw [before] at unseen
      cases unseen
    | created _ _ _ _ _ _ _ _ requested =>
      obtain ⟨_, _, created, -⟩ := requested
      cases created
  refine ⟨unborn, ?_, ?_⟩
  · intro taskId v seen
    obtain ⟨v', after, recovered⟩ := recovery_recovers taken seen
    exact ⟨v', after, recovered, recovered.quiet⟩
  · intro later s'' again taskId v' seen'
    cases seen : s.view taskId with
    | none =>
      rw [unborn taskId seen] at seen'
      cases seen'
    | some v =>
      obtain ⟨_, after, recovered⟩ := recovery_recovers taken seen
      cases after.symm.trans seen'
      obtain ⟨v'', after', recovered'⟩ := recovery_recovers again seen'
      exact ⟨v'', after', recovered'.again recovered.quiet⟩

theorem restart_recovers_running :
    let s := final (step sampleEnv) sampleStore [sampleCreate "t", .claimNext 0 "w" 60 ""]
    ∃ s', step sampleEnv s (.recoverInterrupted 1) = some s' ∧ ∀ taskId v,
      s.view taskId = some v → ∃ v', s'.view taskId = some v' ∧ Recovered 1 v v' ∧ Quiet v' := by
  intro s
  have accepted : (step sampleEnv s (.recoverInterrupted 1)).isSome := by decide
  obtain ⟨s', taken⟩ := Option.isSome_iff_exists.mp accepted
  exact ⟨s', taken, (restart_recovers sampleEnv sampleSessions .empty .empty _ 1 s' taken).2.1⟩

end Knoa.Tasks
