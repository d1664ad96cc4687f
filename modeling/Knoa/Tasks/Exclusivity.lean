import Knoa.Tasks.Invariants

/-!
# Attempt and session exclusivity

At most one attempt of a Task runs, and at most one Task of a session is active,
as long as `transition` is only given the targets the executor gives it.
-/
namespace Knoa.Tasks
open Relational (Table)
open Transition (final)

def executorTargets : List TaskState := [.paused, .completed, .failed, .cancelled]

def Op.byExecutor : Op → Prop
  | .transition _ _ _ target _ => target ∈ executorTargets
  | _ => True

theorem executorTargets_stopped {target : TaskState} (h : target ∈ executorTargets) :
    target.isActive = false ∧ target ≠ .queued := by
  cases target <;> simp_all [executorTargets, TaskState.isActive]

def noneRunning (attempts : List AttemptRow) : Prop := ∀ a ∈ attempts, a.state ≠ .running

theorem finishRunning_ordinals (state : TaskAttemptState) (now : Time) (failureCode : String)
    (attempts : List AttemptRow) :
    (finishRunning state now failureCode attempts).map AttemptRow.ordinal =
      attempts.map AttemptRow.ordinal := by
  unfold finishRunning
  rw [List.map_map]
  apply List.map_congr_left
  intro row _
  simp only [Function.comp]
  split <;> rfl

variable {state : TaskAttemptState}

theorem finishRunning_none (ended : state ≠ .running) (now : Time) (failureCode : String)
    (attempts : List AttemptRow) : noneRunning (finishRunning state now failureCode attempts) := by
  intro a member
  obtain ⟨row, -, rfl⟩ := List.mem_map.mp member
  split
  · exact ended
  · assumption

theorem attemptStateFor_ended {target : TaskState} (h : attemptStateFor target = some state) :
    state ≠ .running := by
  cases target <;> cases h <;> decide

structure AttemptsSound (v : TaskView) : Prop where
  ordinals : v.attempts.map AttemptRow.ordinal = List.range' 1 v.row.attemptCount
  single : (v.attempts.filter (fun a => a.state == .running)).length ≤ 1
  stopped : v.row.state.isActive = false → noneRunning v.attempts

theorem filter_running_eq_nil {attempts : List AttemptRow} (h : noneRunning attempts) :
    attempts.filter (fun a => a.state == .running) = [] := by
  rw [List.filter_eq_nil_iff]
  intro a member
  simpa using h a member

namespace AttemptsSound

variable {v v' : TaskView}

theorem keep (h : AttemptsSound v) (attempts : v'.attempts = v.attempts)
    (count : v'.row.attemptCount = v.row.attemptCount)
    (active : v'.row.state.isActive = false → v.row.state.isActive = false) : AttemptsSound v' where
  ordinals := by rw [attempts, count]; exact h.ordinals
  single := by rw [attempts]; exact h.single
  stopped still := by rw [attempts]; exact h.stopped (active still)

theorem finish (h : AttemptsSound v) {now : Time} {failureCode : String} (ended : state ≠ .running)
    (attempts : v'.attempts = finishRunning state now failureCode v.attempts)
    (count : v'.row.attemptCount = v.row.attemptCount) : AttemptsSound v' := by
  have none := finishRunning_none ended now failureCode v.attempts
  refine ⟨?_, ?_, ?_⟩
  · rw [attempts, count, finishRunning_ordinals]
    exact h.ordinals
  · rw [attempts, filter_running_eq_nil none]
    exact Nat.zero_le 1
  · intro _
    rw [attempts]
    exact none

end AttemptsSound

theorem RowChange.count {row row' : TaskRow} {state : TaskState} {events : Nat}
    (h : RowChange row row' state events 0) : row'.attemptCount = row.attemptCount :=
  h.attemptCount

variable {s : Store} {op : Op} {v v' : TaskView}

theorem Move.attemptsSound (move : Move s op v v') (target : op.byExecutor) (h : AttemptsSound v) :
    AttemptsSound v' := by
  cases move with
  | touch _ row | append _ row => exact h.keep rfl row.count (by simp [row.state])
  | note running row | ask _ _ _ _ row | resolve _ _ _ _ row =>
    exact h.keep rfl row.count (by simp [row.state, TaskState.isActive])
  | restart | annotate | beginStep | finishStep | saveTrace => exact h.keep rfl rfl id
  | cancel stopped _ row =>
    refine h.keep rfl row.count (fun _ => ?_)
    rcases stopped with state | state <;> rw [state] <;> rfl
  | pause queued row => exact h.keep rfl row.count (fun _ => by rw [queued]; rfl)
  | resume paused row => exact h.keep rfl row.count (fun _ => by rw [paused]; rfl)
  | cancelWaiting _ _ _ row | pauseWaiting _ _ row | expire _ _ row | restartWaiting _ row
  | restartRunning _ row | unknown _ row | resolveQueued _ _ _ _ row =>
    exact h.finish (by decide) rfl row.count
  | transit allowed named names row control =>
    rename_i now _ _ aim metadata _ _
    cases state : attemptStateFor aim with
    | some ending =>
      have attempts : finishRunningFor aim metadata.failureCode now v.attempts =
          finishRunning ending now (attemptFailureCode aim metadata.failureCode) v.attempts := by
        simp only [finishRunningFor, state]
      exact h.finish (attemptStateFor_ended state) attempts row.count
    | none => cases aim <;> simp_all [attemptStateFor, Op.byExecutor, executorTargets]
  | claim queued _ _ ordinal running row =>
    have none := h.stopped (by rw [queued]; rfl)
    refine ⟨?_, ?_, ?_⟩
    · rw [List.map_append, h.ordinals, row.attemptCount, List.range'_1_concat,
        List.map_singleton, ordinal, Nat.add_comm 1]
    · rw [List.filter_append, filter_running_eq_nil none]
      exact List.length_filter_le _ _
    · intro still
      rw [row.state] at still
      cases still

theorem Move.becomes_active (move : Move s op v v') (target : op.byExecutor)
    (active : v'.row.state.isActive = true) : v.row.state.isActive = true ∨
      ∃ now workerId leaseSeconds principalId principal,
        op = .claimNext now workerId leaseSeconds principalId ∧
        normalizeClaimPrincipal principalId = .ok principal ∧
        nextClaim s principal = some v.row := by
  cases move with
  | claim _ asked next _ _ _ => exact Or.inr ⟨_, _, _, _, _, rfl, asked, next⟩
  | touch _ row | append _ row => exact Or.inl (row.state ▸ active)
  | note running _ | ask running => exact Or.inl (by rw [running]; rfl)
  | restart | annotate | beginStep | finishStep | saveTrace => exact Or.inl active
  | restartWaiting waiting _ | resolve waiting => exact Or.inl (by rw [waiting]; rfl)
  | cancel _ _ row | cancelWaiting _ _ _ row | pause _ row | pauseWaiting _ _ row | resume _ row
  | expire _ _ row | restartRunning _ row | unknown _ row | resolveQueued _ _ _ _ row =>
    rw [row.state] at active; cases active
  | transit _ _ _ row =>
    rw [row.state, (executorTargets_stopped target).1] at active
    cases active

/-- At most one Task of a session is running or waiting. -/
def SessionsExclusive (s : Store) : Prop :=
  ∀ a b v w, s.view a = some v → s.view b = some w → v.row.state.isActive = true →
    w.row.state.isActive = true → v.row.sessionHandle = w.row.sessionHandle → a = b

variable {s' : Store}

theorem Refines.active_before (refines : Refines s op s') (target : op.byExecutor) {taskId : String}
    (seen : s'.view taskId = some v') (active : v'.row.state.isActive = true) :
    ∃ v, s.view taskId = some v ∧ v.row.sessionHandle = v'.row.sessionHandle ∧
      (v.row.state.isActive = true ∨
        ∃ now workerId leaseSeconds principalId principal,
          op = .claimNext now workerId leaseSeconds principalId ∧
          normalizeClaimPrincipal principalId = .ok principal ∧
          nextClaim s principal = some v.row) := by
  cases refines.changed taskId with
  | same slice => exact ⟨v', by rw [← view_of_slice slice, seen], rfl, Or.inl active⟩
  | moved before after move =>
    rw [after] at seen
    cases seen
    exact ⟨_, before, (identity_session move.identity).symm, move.becomes_active target active⟩
  | created _ _ _ _ change after =>
    rw [after] at seen
    cases seen
    rw [change.state] at active
    cases active

theorem sessionIdle_inactive {taskId sessionHandle : String}
    (idle : sessionIdle s sessionHandle = true) (seen : s.view taskId = some v)
    (same : v.row.sessionHandle = sessionHandle) : v.row.state.isActive = false := by
  have member := view_mem seen
  unfold sessionIdle at idle
  simp only [Bool.not_eq_true', List.any_eq_false, Bool.and_eq_true, beq_iff_eq, not_and,
    Bool.not_eq_true] at idle
  exact idle v.row member same

theorem Refines.sessionsExclusive (refines : Refines s op s') (target : op.byExecutor)
    (h : SessionsExclusive s) : SessionsExclusive s' := by
  intro a b v' w' seen_a seen_b active_a active_b same
  obtain ⟨v, before_a, session_a, cause_a⟩ := refines.active_before target seen_a active_a
  obtain ⟨w, before_b, session_b, cause_b⟩ := refines.active_before target seen_b active_b
  have together : v.row.sessionHandle = w.row.sessionHandle := by
    rw [session_a, session_b, same]
  -- a session one Task of which is claimed had no active Task
  have claimed_alone : ∀ {x y : String} {p q : TaskView} {principal : String},
      s.view x = some p → s.view y = some q → p.row.sessionHandle = q.row.sessionHandle →
      nextClaim s principal = some p.row → q.row.state.isActive = true → False := by
    intro x y p q principal _ seen_y session next active
    have idle := (claimable_queued (nextClaim_some next).2).2
    rw [sessionIdle_inactive idle seen_y session.symm] at active
    cases active
  rcases cause_a with active | ⟨now, worker, lease, asker, principal, rfl, asked, next⟩
  · rcases cause_b with active' | ⟨_, _, _, _, principal, rfl, asked, next⟩
    · exact h a b v w before_a before_b active active' together
    · exact (claimed_alone before_b before_a together.symm next active).elim
  · rcases cause_b with active' | ⟨_, _, _, _, principal', claim, asked', next'⟩
    · exact (claimed_alone before_a before_b together next active').elim
    · cases claim
      rw [asked, Except.ok.injEq] at asked'
      subst asked'
      rw [next, Option.some.injEq] at next'
      rw [← view_taskId before_a, ← view_taskId before_b, next']

structure Exclusive (s : Store) : Prop where
  attempts : Everywhere AttemptsSound s
  sessions : SessionsExclusive s

theorem Exclusive.kept {env : Env} (h : Exclusive s) (sound : Sound s) (target : op.byExecutor)
    (taken : step env s op = some s') : Exclusive s' := by
  have refines := step_refines sound.rooted taken
  refine ⟨?_, refines.sessionsExclusive target h.sessions⟩
  apply refines.everywhere _ (fun _ _ move => move.attemptsSound target) h.attempts
  intro now row row' unclaimed _ change
  refine ⟨?_, by simp [bornView], ?_⟩
  · rw [bornView, change.attemptCount, unclaimed]
    rfl
  · intro _ _ member
    cases member

theorem final_exclusive {env : Env} (sound : Sound s) (h : Exclusive s) {ops : List Op}
    (targets : ∀ op ∈ ops, op.byExecutor) : Exclusive (final (step env) s ops) := by
  have kept : ∀ t op t', Sound t ∧ Exclusive t → op.byExecutor → step env t op = some t' →
      Sound t' ∧ Exclusive t' := by
    intro t op t' ready target taken
    exact ⟨ready.1.kept taken, ready.2.kept ready.1 target taken⟩
  exact (Transition.final_safe_of_allowed kept ⟨sound, h⟩ targets).2

theorem initial_exclusive (sessions : Table SessionRow.sessionHandle)
    (definitions : Table DefinitionRow.taskId) (executions : Table ExecutionRow.executionId) :
    Exclusive (Store.initial sessions definitions executions) where
  attempts := initial_everywhere sessions definitions executions AttemptsSound
  sessions := by
    intro a b v w seen
    cases seen

/-- The attempts of every Task, and the active Tasks of every session, as the
tables hold them. -/
structure ExclusiveRows (s : Store) : Prop where
  ordinals : ∀ row ∈ s.tasks.rows,
    (s.attemptsOf row.taskId).map AttemptRow.ordinal = List.range' 1 row.attemptCount
  single : ∀ row ∈ s.tasks.rows,
    ((s.attemptsOf row.taskId).filter (fun a => a.state == .running)).length ≤ 1
  stopped : ∀ row ∈ s.tasks.rows, row.state.isActive = false →
    ∀ a ∈ s.attemptsOf row.taskId, a.state ≠ .running
  sessions : ∀ a ∈ s.tasks.rows, ∀ b ∈ s.tasks.rows, a.state.isActive = true →
    b.state.isActive = true → a.sessionHandle = b.sessionHandle → a = b

theorem Exclusive.rows (h : Exclusive s) : ExclusiveRows s := by
  have attempts : ∀ row ∈ s.tasks.rows, ∃ v, v.row = row ∧ s.view row.taskId = some v ∧
      v.attempts = s.attemptsOf row.taskId ∧ AttemptsSound v := by
    intro row member
    obtain ⟨v, seen, rfl⟩ := view_of_mem member
    exact ⟨v, rfl, seen, view_attempts seen, h.attempts _ v seen⟩
  refine ⟨?_, ?_, ?_, ?_⟩
  · intro row member
    obtain ⟨v, rfl, -, same, sound⟩ := attempts row member
    rw [← same]
    exact sound.ordinals
  · intro row member
    obtain ⟨v, rfl, -, same, sound⟩ := attempts row member
    rw [← same]
    exact sound.single
  · intro row member still
    obtain ⟨v, rfl, -, same, sound⟩ := attempts row member
    rw [← same]
    exact sound.stopped still
  · intro a member_a b member_b active_a active_b same
    obtain ⟨v, rfl, seen_a, -, -⟩ := attempts a member_a
    obtain ⟨w, rfl, seen_b, -, -⟩ := attempts b member_b
    have key := h.sessions _ _ v w seen_a seen_b active_a active_b same
    exact Table.mem_unique member_a member_b key

theorem attempts_and_sessions_exclusive (env : Env) (sessions : Table SessionRow.sessionHandle)
    (definitions : Table DefinitionRow.taskId) (executions : Table ExecutionRow.executionId)
    (ops : List Op) (targets : ∀ op ∈ ops, op.byExecutor) :
    ExclusiveRows (final (step env) (Store.initial sessions definitions executions) ops) :=
  (final_exclusive (initial_sound sessions definitions executions)
    (initial_exclusive sessions definitions executions) targets).rows

/-- A run of two workers: the second finds the session busy. -/
theorem attempts_and_sessions_exclusive_two_workers :
    ExclusiveRows (final (step sampleEnv) sampleStore
      [sampleCreate "t", sampleCreate "u", .claimNext 1 "w" 60 "", .claimNext 2 "x" 60 "",
        .transition 3 "p" "t" .completed { finalSummary := "done" }]) :=
  attempts_and_sessions_exclusive sampleEnv sampleSessions .empty .empty _
    (by simp [Op.byExecutor, executorTargets, sampleCreate])

end Knoa.Tasks
