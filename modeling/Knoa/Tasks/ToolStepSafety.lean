import Knoa.Tasks.Invariants

/-!
# Tool steps across the exits from RUNNING

Restart recovery and `pause_for_unknown_tool_outcome` quarantine the committing steps
of the Task they pause; three other exits from RUNNING do not look at them.
-/
namespace Knoa.Tasks
open Relational (Table)
open Transition (trace accepted)

def StepsSafe (s : Store) : Prop :=
  ∀ step ∈ s.steps.rows, step.state = .committing →
    ∃ task ∈ s.tasks.rows, task.taskId = step.taskId ∧ task.state = .running

instance (s : Store) : Decidable (StepsSafe s) := by
  unfold StepsSafe
  infer_instance

def NoCommit (s : Store) (taskId : String) : Prop :=
  ∀ step ∈ s.stepsOf taskId, step.state ≠ .committing

/-- The calls that leave RUNNING without a look at the steps find none committing. -/
def LeavesNoCommit (s : Store) : Op → Prop
  | .transition _ _ taskId _ _ => NoCommit s (strip taskId)
  | .recoverExpiredLeases now =>
    ∀ row ∈ s.tasks.rows, leaseExpired now row = true → NoCommit s row.taskId
  | .requestApproval _ _ _ taskId request =>
    existingApproval s (strip taskId) (strip request.toolStepId) = none → NoCommit s (strip taskId)
  | _ => True

def CommitsWhileRunning (v : TaskView) : Prop :=
  ∀ step ∈ v.steps, step.state = .committing → v.row.state = .running

variable {s : Store}

theorem stepsSafe_iff (rooted : Rooted s) : StepsSafe s ↔ Everywhere CommitsWhileRunning s := by
  constructor
  · intro safe taskId v seen step member committing
    rw [view_steps seen] at member
    obtain ⟨present, owner⟩ := mem_stepsOf.mp member
    obtain ⟨task, known, key, running⟩ := safe step present committing
    have found := Table.lookup_of_mem known
    rw [key, owner, (view_eq_some_iff.mp seen).1, Option.some.injEq] at found
    rw [found]
    exact running
  · intro everywhere step present committing
    have member : step ∈ s.stepsOf step.taskId := mem_stepsOf.mpr ⟨present, rfl⟩
    cases seen : s.view step.taskId with
    | none =>
      have empty : s.stepsOf step.taskId = [] := congrArg TaskSlice.steps (rooted _ seen)
      rw [empty] at member
      cases member
    | some v =>
      have running := everywhere _ v seen step (by rwa [view_steps seen]) committing
      exact ⟨v.row, view_mem seen, view_taskId seen, running⟩

theorem quarantine_settled (now : Time) (steps : List ToolStepRow) :
    ∀ step ∈ quarantine now steps, step.state ≠ .committing := by
  intro step member
  obtain ⟨row, -, rfl⟩ := List.mem_map.mp member
  split
  · simp
  · assumption

variable {taskId : String}

theorem noCommit_view {v : TaskView} (seen : s.view taskId = some v) (none : NoCommit s taskId) :
    ∀ step ∈ v.steps, step.state ≠ .committing := by
  rw [view_steps seen]
  exact none

namespace CommitsWhileRunning

variable {v v' : TaskView}

theorem stopped (h : CommitsWhileRunning v) (state : v.row.state ≠ .running) :
    ∀ step ∈ v.steps, step.state ≠ .committing :=
  fun step member committing => state (h step member committing)

theorem of_none (none : ∀ step ∈ v'.steps, step.state ≠ .committing) : CommitsWhileRunning v' :=
  fun step member committing => absurd committing (none step member)

theorem of_running (running : v'.row.state = .running) : CommitsWhileRunning v' :=
  fun _ _ _ => running

end CommitsWhileRunning

theorem Move.commitsWhileRunning {op : Op} {v v' : TaskView} (move : Move s op v v')
    (seen : s.view taskId = some v) (owned : StepsOwned v) (clean : LeavesNoCommit s op)
    (h : CommitsWhileRunning v) : CommitsWhileRunning v' := by
  have key := view_taskId seen
  cases move with
  | touch _ row | append _ row =>
    exact fun step member committing => row.state.trans (h step member committing)
  | note _ row | claim _ _ _ _ _ row => exact .of_running row.state
  | beginStep running => exact .of_running running
  | annotate | saveTrace => exact h
  | cancel stopped _ _ =>
    refine .of_none (h.stopped ?_)
    rcases stopped with state | state <;> rw [state] <;> decide
  | cancelWaiting waiting | pauseWaiting waiting | resolve waiting | resolveQueued waiting =>
    exact .of_none (h.stopped (by rw [waiting]; decide))
  | pause queued => exact .of_none (h.stopped (by rw [queued]; decide))
  | resume paused => exact .of_none (h.stopped (by rw [paused]; decide))
  | restart | restartWaiting | restartRunning => exact .of_none (quarantine_settled _ _)
  | transit _ named =>
    have settled : NoCommit s taskId := by
      rw [← key, named]
      exact clean
    have none := noCommit_view seen settled
    exact .of_none none
  | expire _ expired =>
    have known := view_mem seen
    have none := noCommit_view seen (key ▸ clean v.row known expired)
    exact .of_none none
  | ask _ named fresh =>
    have settled : NoCommit s taskId := by
      rw [← key, named]
      exact clean fresh
    have none := noCommit_view seen settled
    exact .of_none none
  | unknown =>
    refine .of_none ?_
    intro step member
    obtain ⟨row, present, rfl⟩ := List.mem_map.mp member
    split
    · simp
    · rename_i unmarked
      exact fun committing => unmarked ⟨owned row present, committing⟩
  | finishStep =>
    intro step member committing
    obtain ⟨row, present, rfl⟩ := List.mem_map.mp member
    split at committing
    · rename_i terminal _
      rcases terminal with rfl | rfl <;> cases committing
    · exact h row present committing

section Exits

variable {env : Env} {s s' : Store}

variable {now : Time}

theorem transition_strands {principalId : String} {target : TaskState}
    {metadata : TransitionMetadata}
    (taken : step env s (.transition now principalId taskId target metadata) = some s')
    (before : Everywhere CommitsWhileRunning s) (after : Everywhere CommitsWhileRunning s') :
    NoCommit s (strip taskId) := by
  obtain ⟨result, returned⟩ := commit_returned (step_eq_some taken)
  obtain ⟨v, seen, allowed, writes⟩ := transition_effect returned
  intro step member committing
  rw [← view_steps seen] at member
  have running := before _ v seen step member committing
  have still : target = .running := after _ _ (writes.view_some seen) step member committing
  rw [running, still] at allowed
  exact absurd allowed (by decide)

theorem recoverExpiredLeases_strands (taken : step env s (.recoverExpiredLeases now) = some s')
    (after : Everywhere CommitsWhileRunning s') :
    ∀ row ∈ s.tasks.rows, leaseExpired now row = true → NoCommit s row.taskId := by
  obtain ⟨result, returned⟩ := commit_returned (step_eq_some taken)
  intro row known expired step member committing
  have writes := recoverExpiredLeases_effect returned
  obtain ⟨v, seen, rfl⟩ := view_of_mem known
  obtain ⟨v', now_seen, payload, row', change, -, rfl⟩ :=
    writes.here _ (mem_selectTasks.mpr ⟨known, expired⟩) v seen
  rw [← view_steps seen] at member
  have still := after _ _ now_seen step member committing
  rw [change.state] at still
  cases still

theorem requestApproval_strands {approvalIds : Nat → String} {principalId : String}
    {request : ApprovalRequest}
    (taken : step env s (.requestApproval now approvalIds principalId taskId request) = some s')
    (after : Everywhere CommitsWhileRunning s')
    (fresh : existingApproval s (strip taskId) (strip request.toolStepId) = none) :
    NoCommit s (strip taskId) := by
  obtain ⟨result, returned⟩ := outcome_ok (step_eq_some taken)
  obtain ⟨fields, normal, found | opened⟩ := requestApproval_ok returned
  · rw [normalizeApproval_ok normal, fresh] at found
    cases found.1
  · obtain ⟨approvalId, task, -, -, owned, once⟩ := opened
    obtain ⟨v, seen, -, -, writes⟩ := openApproval_effect owned once
    rw [normalizeApproval_ok normal] at seen writes
    intro step member committing
    rw [← view_steps seen] at member
    have still := after _ _ (writes.view_some seen) step member committing
    cases still

theorem step_safe_iff {op : Op} (sound : Sound s) (safe : StepsSafe s)
    (taken : step env s op = some s') : StepsSafe s' ↔ LeavesNoCommit s op := by
  have refines := step_refines sound.rooted taken
  rw [stepsSafe_iff sound.rooted] at safe
  rw [stepsSafe_iff (refines.rooted sound.rooted)]
  constructor
  · intro after
    cases op with
    | transition => exact transition_strands taken safe after
    | recoverExpiredLeases => exact recoverExpiredLeases_strands taken after
    | requestApproval => exact requestApproval_strands taken after
    | _ => exact True.intro
  · intro clean taskId v' seen
    cases refines.changed taskId with
    | same slice => exact safe taskId v' (by rw [← view_of_slice slice, seen])
    | moved before after move =>
      rw [after] at seen
      cases seen
      exact move.commitsWhileRunning before (sound.stepsOwned _ _ before) clean (safe _ _ before)
    | created _ _ _ _ _ after =>
      rw [after] at seen
      cases seen
      intro step member
      cases member

end Exits

theorem committing_only_while_running_iff (env : Env)
    (sessions : Table SessionRow.sessionHandle) (definitions : Table DefinitionRow.taskId)
    (executions : Table ExecutionRow.executionId) (ops : List Op) :
    (∀ s ∈ trace (step env) (Store.initial sessions definitions executions) ops, StepsSafe s) ↔
      ∀ taken ∈ accepted (step env) (Store.initial sessions definitions executions) ops,
        LeavesNoCommit taken.1 taken.2 := by
  have kept : ∀ s op s', Sound s → step env s op = some s' → Sound s' :=
    fun _ _ _ sound taken => sound.kept taken
  have exact_step : ∀ s op s', True → Sound s → StepsSafe s → step env s op = some s' →
      (StepsSafe s' ↔ LeavesNoCommit s op) :=
    fun _ _ _ _ sound safe taken => step_safe_iff sound safe taken
  have start : StepsSafe (Store.initial sessions definitions executions) := by
    intro step member
    cases member
  exact Transition.trace_safe_iff kept exact_step (initial_sound sessions definitions executions)
    start (fun _ _ => True.intro)

def leaseLostDuringCommit : List Op :=
  [sampleCreate "t", .claimNext 0 "w" 60 "", .beginToolStep 1 "p" "t"
      { toolStepId := "k", toolCallId := "c", toolName := "write", arguments := .emptyObject
        effect := "local_write", risk := "low" }, .recoverExpiredLeases 100]

theorem lease_expiry_strands_commit :
    ¬ ∀ s ∈ trace (step sampleEnv) sampleStore leaseLostDuringCommit, StepsSafe s := by
  intro along
  have last := along _ (Transition.mem_trace_final _ _)
  revert last
  decide +kernel

end Knoa.Tasks
