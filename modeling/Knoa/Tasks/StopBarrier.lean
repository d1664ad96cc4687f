import Knoa.Tasks.Invariants

/-!
# Stop requests

`begin_tool_step` and `request_approval` ask only whether the Task is RUNNING, so
whether a stop request is a barrier is up to their callers.
-/
namespace Knoa.Tasks
open Relational Transition

/-- The attempts, by Task and ordinal, that were asked to stop while they ran. -/
def noteStop (s : Store) (op : Op) (_ : Store) (stopped : List (String × Nat)) :
    List (String × Nat) :=
  match op with
  | .requestCancel _ _ named _ | .requestPause _ _ named _ =>
    stopped ++ (s.tasks.rows.filter (fun row =>
      row.taskId == strip named && row.state == .running)).map
        (fun row => (row.taskId, row.attemptCount))
  | _ => stopped

def stopStep (env : Env) :
    Store × List (String × Nat) → Op → Option (Store × List (String × Nat)) :=
  recording (step env) noteStop

def stopping (s : Store × List (String × Nat)) : List TaskRow :=
  s.1.tasks.rows.filter (fun row =>
    row.state == .running && s.2.contains (row.taskId, row.attemptCount))

def OnlySettled (steps steps' : List ToolStepRow) : Prop :=
  ∀ step' ∈ steps', ∃ step ∈ steps, step' = step ∨
    step.state = .committing ∧ step'.toolStepId = step.toolStepId ∧ step'.state ≠ .committing

def Op.isTransition : Op → Bool
  | .transition .. => true
  | _ => false

/-- An attempt that was asked to stop only settles the steps it has begun and leaves
RUNNING, for an approval wait under no call but a generic transition. -/
def WindsDown (env : Env) (s : Store × List (String × Nat)) (op : Op) : Prop :=
  ∀ row ∈ stopping s,
    OnlySettled (s.1.stepsOf row.taskId) ((next (stopStep env) s op).1.stepsOf row.taskId) ∧
    ∀ row' ∈ (next (stopStep env) s op).1.tasks.rows, row'.taskId = row.taskId →
      row'.attemptCount = row.attemptCount ∧
        (row'.state = .waitingApproval → op.isTransition = true)

/-- A Task that was asked to stop is given no tool step and no approval request under
an id that it does not have yet. -/
def HeedsStop (s : Store × List (String × Nat)) (op : Op) : Prop :=
  match op with
  | .beginToolStep _ principalId named request =>
    (∃ row ∈ stopping s, row.taskId = strip named) →
      (ownedStep s.1 (strip principalId) (strip named) (strip request.toolStepId)).isSome = true
  | .requestApproval _ _ _ named request =>
    (∃ row ∈ stopping s, row.taskId = strip named) →
      (existingApproval s.1 (strip named) (strip request.toolStepId)).isSome = true
  | _ => True

instance (steps steps' : List ToolStepRow) : Decidable (OnlySettled steps steps') := by
  unfold OnlySettled
  infer_instance

instance (env : Env) (s : Store × List (String × Nat)) (op : Op) : Decidable (WindsDown env s op) := by
  unfold WindsDown
  infer_instance

instance (s : Store × List (String × Nat)) (op : Op) : Decidable (HeedsStop s op) := by
  apply op.casesOn (motive := fun op => Decidable (HeedsStop s op)) <;> intros <;>
    dsimp only [HeedsStop] <;> infer_instance

section Views

variable {s s' : Store} {op : Op} {v v' : TaskView}

theorem OnlySettled.refl (steps : List ToolStepRow) : OnlySettled steps steps :=
  fun step member => ⟨step, member, Or.inl rfl⟩

theorem OnlySettled.map {f : ToolStepRow → ToolStepRow} {steps : List ToolStepRow}
    (settles : ∀ step ∈ steps, f step = step ∨
      step.state = .committing ∧ (f step).toolStepId = step.toolStepId ∧
        (f step).state ≠ .committing) : OnlySettled steps (steps.map f) := by
  intro step' member
  obtain ⟨step, before, rfl⟩ := List.mem_map.mp member
  exact ⟨step, before, settles step before⟩

theorem quarantine_onlySettled (now : Time) (steps : List ToolStepRow) :
    OnlySettled steps (quarantine now steps) := by
  apply OnlySettled.map
  intro step _
  by_cases committing : step.state = .committing
  · rw [if_pos committing]
    exact Or.inr ⟨committing, rfl, by simp⟩
  · rw [if_neg committing]
    exact Or.inl rfl

theorem Move.windsDown (move : Move s op v v') (running : v.row.state = .running)
    (unbegun : ∀ now principalId named request, op ≠ .beginToolStep now principalId named request)
    (unasked : ∀ now approvalIds principalId named request,
      op = .requestApproval now approvalIds principalId named request →
        v.row.taskId = strip named →
          existingApproval s (strip named) (strip request.toolStepId) ≠ none) :
    OnlySettled v.steps v'.steps ∧ v'.row.attemptCount = v.row.attemptCount ∧
      (v'.row.state = .waitingApproval → op.isTransition = true) := by
  have unqueued : v.row.state ≠ .queued := by simp [running]
  have unpaused : v.row.state ≠ .paused := by simp [running]
  have unwaiting : v.row.state ≠ .waitingApproval := by simp [running]
  have same := OnlySettled.refl v.steps
  have restarted := fun now => quarantine_onlySettled now v.steps
  cases move with
  | touch _ row | append _ row =>
    exact ⟨same, row.attemptCount, fun waits => absurd (row.state.symm.trans waits) unwaiting⟩
  | note _ row | cancel _ _ row | expire _ _ row =>
    exact ⟨same, row.attemptCount, fun waits => absurd (row.state.symm.trans waits) (by simp)⟩
  | cancelWaiting waiting | pauseWaiting waiting | restartWaiting waiting | resolve waiting
  | resolveQueued waiting => exact absurd waiting unwaiting
  | pause queued | claim queued => exact absurd queued unqueued
  | resume paused => exact absurd paused unpaused
  | transit _ _ _ row => exact ⟨same, row.attemptCount, fun _ => rfl⟩
  | restart => exact ⟨restarted _, rfl, fun waits => absurd waits unwaiting⟩
  | restartRunning _ row =>
    exact ⟨restarted _, row.attemptCount,
      fun waits => absurd (row.state.symm.trans waits) (by simp)⟩
  | annotate | saveTrace => exact ⟨same, rfl, fun waits => absurd waits unwaiting⟩
  | beginStep => exact absurd rfl (unbegun _ _ _ _)
  | finishStep terminal =>
    refine ⟨OnlySettled.map ?_, rfl, fun waits => absurd waits unwaiting⟩
    intro step _
    split
    · rename_i named
      refine Or.inr ⟨named.2, rfl, ?_⟩
      rcases terminal with rfl | rfl <;> simp
    · exact Or.inl rfl
  | unknown _ row =>
    refine ⟨OnlySettled.map ?_, row.attemptCount,
      fun waits => absurd (row.state.symm.trans waits) (by simp)⟩
    intro step _
    split
    · rename_i mine
      exact Or.inr ⟨mine.2, rfl, by simp⟩
    · exact Or.inl rfl
  | ask _ named fresh => exact absurd fresh (unasked _ _ _ _ _ rfl named)

end Views

section Steps

variable {env : Env} {s s' : Store × List (String × Nat)} {op : Op}

variable {row : TaskRow}

theorem mem_stopping (h : row ∈ stopping s) :
    ∃ v, s.1.view row.taskId = some v ∧ v.row = row ∧ row.state = .running := by
  obtain ⟨listed, asked⟩ := List.mem_filter.mp h
  rw [Bool.and_eq_true, beq_iff_eq] at asked
  obtain ⟨v, seen, rfl⟩ := view_of_mem listed
  exact ⟨v, seen, rfl, asked.1⟩

variable {now : Time} {principalId named : String}

theorem begin_heeds {request : ToolStepRequest}
    (taken : stopStep env s (.beginToolStep now principalId named request) = some s')
    (down : WindsDown env s (.beginToolStep now principalId named request)) :
    HeedsStop s (.beginToolStep now principalId named request) := by
  rintro ⟨row, asked, names⟩
  obtain ⟨result, returned⟩ := commit_returned (step_eq_some (recording_eq_some_iff.mp taken).1)
  rcases beginToolStep_effect returned with ⟨existing, known, -⟩ |
    ⟨v, new, -, seen, -, -, committing, unstored, writes⟩
  · rw [known]
    rfl
  · have settled := (down row asked).1
    rw [Transition.next_of_some taken, names] at settled
    have listed : new ∈ s'.1.stepsOf (strip named) := by
      rw [← view_steps (writes.view_some seen)]
      exact List.mem_concat_self
    obtain ⟨old, before, rfl | ⟨-, -, isOver⟩⟩ := settled new listed
    · exact absurd (mem_stepsOf.mp before).1 unstored
    · exact absurd committing isOver

theorem ask_heeds {approvalIds : Nat → String} {request : ApprovalRequest}
    (taken : stopStep env s (.requestApproval now approvalIds principalId named request) = some s')
    (down : WindsDown env s (.requestApproval now approvalIds principalId named request)) :
    HeedsStop s (.requestApproval now approvalIds principalId named request) := by
  rintro ⟨row, asked, names⟩
  obtain ⟨result, returned⟩ := outcome_ok (step_eq_some (recording_eq_some_iff.mp taken).1)
  obtain ⟨fields, normal, ⟨existing, -, -⟩ | ⟨approvalId, task, -, -, owned, once⟩⟩ :=
    requestApproval_ok returned
  · rw [normalizeApproval_ok normal] at existing
    rw [existing]
    rfl
  · obtain ⟨v, seen, -, -, writes⟩ := openApproval_effect owned once
    have after := writes.view_some seen
    have waits := (down row asked).2
    rw [Transition.next_of_some taken] at waits
    have stored := view_mem after
    have key := view_taskId after
    rw [normalizeApproval_ok normal, ← names] at key
    cases (waits _ stored key).2 rfl

theorem windsDown_same (asked : row ∈ stopping s)
    (slice : s'.1.slice row.taskId = s.1.slice row.taskId) :
    OnlySettled (s.1.stepsOf row.taskId) (s'.1.stepsOf row.taskId) ∧
      ∀ row' ∈ s'.1.tasks.rows, row'.taskId = row.taskId →
        row'.attemptCount = row.attemptCount ∧
          (row'.state = .waitingApproval → op.isTransition = true) := by
  obtain ⟨v, seen, rfl, running⟩ := mem_stopping asked
  have steps : s'.1.stepsOf v.row.taskId = s.1.stepsOf v.row.taskId :=
    congrArg TaskSlice.steps slice
  rw [steps]
  refine ⟨OnlySettled.refl _, ?_⟩
  intro row' stored key
  have found := Table.lookup_of_mem stored
  rw [key, (view_eq_some_iff.mp ((view_of_slice slice).trans seen)).1, Option.some.injEq] at found
  rw [← found]
  exact ⟨rfl, fun waits => by rw [running] at waits; cases waits⟩

theorem windsDown_moved {v v' : TaskView} (before : s.1.view row.taskId = some v)
    (after : s'.1.view row.taskId = some v')
    (winds : OnlySettled v.steps v'.steps ∧ v'.row.attemptCount = v.row.attemptCount ∧
      (v'.row.state = .waitingApproval → op.isTransition = true)) :
    OnlySettled (s.1.stepsOf row.taskId) (s'.1.stepsOf row.taskId) ∧
      ∀ row' ∈ s'.1.tasks.rows, row'.taskId = row.taskId →
        row'.attemptCount = v.row.attemptCount ∧
          (row'.state = .waitingApproval → op.isTransition = true) := by
  rw [← view_steps before, ← view_steps after]
  refine ⟨winds.1, ?_⟩
  intro row' stored key
  have found := Table.lookup_of_mem stored
  rw [key, (view_eq_some_iff.mp after).1, Option.some.injEq] at found
  rw [← found]
  exact winds.2

theorem begin_windsDown {request : ToolStepRequest}
    (taken : stopStep env s (.beginToolStep now principalId named request) = some s')
    (heeds : HeedsStop s (.beginToolStep now principalId named request)) :
    WindsDown env s (.beginToolStep now principalId named request) := by
  intro row asked
  rw [Transition.next_of_some taken]
  obtain ⟨result, returned⟩ := commit_returned (step_eq_some (recording_eq_some_iff.mp taken).1)
  rcases beginToolStep_effect returned with ⟨_, -, same⟩ | ⟨_, _, fresh, -, -, -, -, -, writes⟩
  · exact windsDown_same asked (by rw [same])
  · refine windsDown_same asked (writes.frame row.taskId ?_)
    intro names
    have known := heeds ⟨row, asked, names⟩
    rw [fresh] at known
    cases known

theorem windsDown_iff (sound : Sound s.1) (taken : stopStep env s op = some s') :
    WindsDown env s op ↔ HeedsStop s op := by
  constructor
  · intro down
    cases op with
    | beginToolStep => exact begin_heeds taken down
    | requestApproval => exact ask_heeds taken down
    | _ => trivial
  · intro heeds
    by_cases begun : ∃ now principalId named request,
        op = .beginToolStep now principalId named request
    · obtain ⟨now, principalId, named, request, rfl⟩ := begun
      exact begin_windsDown taken heeds
    · intro row asked
      obtain ⟨accepted, -⟩ := recording_eq_some_iff.mp taken
      rw [Transition.next_of_some taken]
      cases (step_refines sound.rooted accepted).changed row.taskId with
      | same slice => exact windsDown_same asked slice
      | created absent =>
        obtain ⟨v, seen, -⟩ := mem_stopping asked
        rw [seen] at absent
        cases absent
      | moved before after move =>
        obtain ⟨v, seen, rfl, running⟩ := mem_stopping asked
        rw [seen, Option.some.injEq] at before
        subst before
        refine windsDown_moved seen after (move.windsDown running ?_ ?_)
        · rintro now principalId named request rfl
          exact begun ⟨now, principalId, named, request, rfl⟩
        · rintro now approvalIds principalId named request rfl names fresh
          have known := heeds ⟨v.row, asked, names⟩
          rw [fresh] at known
          cases known

end Steps

section Runs

theorem stop_requests_bar_iff (env : Env) (sessions : Table SessionRow.sessionHandle)
    (definitions : Table DefinitionRow.taskId) (executions : Table ExecutionRow.executionId)
    (ops : List Op) :
    (∀ taken ∈ accepted (stopStep env) (Store.initial sessions definitions executions, []) ops,
        WindsDown env taken.1 taken.2) ↔
      ∀ taken ∈ accepted (stopStep env) (Store.initial sessions definitions executions, []) ops,
        HeedsStop taken.1 taken.2 := by
  have start : Sound (Store.initial sessions definitions executions) :=
    initial_sound sessions definitions executions
  have kept : ∀ (s : Store × List (String × Nat)) op s', Sound s.1 →
      stopStep env s op = some s' → Sound s'.1 :=
    fun _ _ _ sound taken => sound.kept (recording_eq_some_iff.mp taken).1
  refine forall₂_congr ?_
  intro taken member
  obtain ⟨reached, s', accepted⟩ := Transition.accepted_mem_trace member
  exact windsDown_iff (Transition.trace_invariant kept start ops _ reached) accepted

end Runs

section Sample

def sampleToolStep : ToolStepRequest := ⟨"step", "call", "tool", .emptyObject, "local_write", "low"⟩

/-- A cancellation lands between the last check of the tool pipeline and its commit. -/
def cancelledBeforeCommit : List Op :=
  [sampleCreate "t", .claimNext 0 "w" 60 "", .requestCancel 1 "p" "t" "",
    .beginToolStep 2 "p" "t" sampleToolStep]

theorem cancelled_attempt_commits_tool :
    ¬ ∀ taken ∈ accepted (stopStep sampleEnv) (sampleStore, []) cancelledBeforeCommit,
      WindsDown sampleEnv taken.1 taken.2 := by
  decide +kernel

example :
    ¬ ∀ taken ∈ accepted (stopStep sampleEnv) (sampleStore, [])
        [sampleCreate "t", .claimNext 0 "w" 60 "", .requestPause 1 "p" "t" "",
          .requestApproval 2 (fun _ => "a") "p" "t" ⟨"step", "call", "tool", .emptyObject, "", none⟩],
      WindsDown sampleEnv taken.1 taken.2 := by
  decide +kernel

end Sample

end Knoa.Tasks
