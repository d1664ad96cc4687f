import Knoa.Tasks.Executor
import Knoa.Tasks.Exclusivity
import Knoa.Tasks.ApprovalRows

/-!
# Attempts that end under their executors

The writes of `_execute` name the Task and not the attempt, so what ends an attempt
while its executor is still at work opens the next attempt to the old executor.
-/
namespace Knoa.Tasks
open Relational Transaction

def Current (s : Store) (task : TaskRecord) : Prop :=
  (∃ row ∈ s.tasks.rows, row.taskId = task.taskId ∧ row.attemptCount = task.attemptCount) ∧
    ∃ attempt ∈ s.attempts.rows, attempt.taskId = task.taskId ∧
      attempt.ordinal = task.attemptCount ∧ attempt.state = .running

def EndsAttempt (s : Store) (taskId : String) : Op → Prop
  | .requestCancel _ _ named _ | .requestPause _ _ named _ =>
    strip named = taskId ∧ TaskWaiting s taskId
  | .transition _ _ named _ _ | .pauseForUnknownToolOutcome _ _ named _ => strip named = taskId
  | .resolveApproval _ _ approvalId _ resumeState _ => resumeState = .queued ∧
      ∃ row ∈ s.approvals.rows, row.approvalId = strip approvalId ∧ row.taskId = taskId ∧
        row.state = .pending
  | .recoverExpiredLeases now =>
    ∃ row ∈ s.tasks.rows, row.taskId = taskId ∧ leaseExpired now row = true
  | .recoverInterrupted _ => ∃ row ∈ s.tasks.rows, row.taskId = taskId ∧ row.state.isActive = true
  | _ => False

section Attempts

variable {s s' : Store} {op : Op} {taskId : String} {v v' : TaskView} {ordinal : Nat}

/-- Attempt `ordinal` of the Task is its current one, and runs. -/
structure Runs (ordinal : Nat) (v : TaskView) : Prop where
  current : v.row.attemptCount = ordinal
  running : ∃ attempt ∈ v.attempts, attempt.ordinal = ordinal ∧ attempt.state = .running

variable {task : TaskRecord}

theorem current_iff :
    Current s task ↔ ∃ v, s.view task.taskId = some v ∧ Runs task.attemptCount v := by
  constructor
  · rintro ⟨⟨row, member, names, count⟩, attempt, listed, owner, running⟩
    obtain ⟨v, seen, rfl⟩ := view_of_mem member
    rw [names] at seen
    refine ⟨v, seen, count, attempt, ?_, running⟩
    rw [view_attempts seen]
    exact mem_attemptsOf.mpr ⟨listed, owner⟩
  · rintro ⟨v, seen, count, attempt, known, running⟩
    rw [view_attempts seen] at known
    obtain ⟨listed, owner⟩ := mem_attemptsOf.mp known
    exact ⟨⟨v.row, view_mem seen, view_taskId seen, count⟩, attempt, listed, owner, running⟩

theorem Runs.keep (h : Runs ordinal v) (attempts : v'.attempts = v.attempts)
    (count : v'.row.attemptCount = v.row.attemptCount) : Runs ordinal v' where
  current := count.trans h.current
  running := by
    rw [attempts]
    exact h.running

theorem Move.runs (move : Move s op v v') (seen : s.view taskId = some v) (sound : AttemptsSound v)
    (ends : ¬ EndsAttempt s taskId op) (h : Runs ordinal v) : Runs ordinal v' := by
  have member : v.row ∈ s.tasks.rows := view_mem seen
  have key := view_taskId seen
  cases move with
  | touch _ row | append _ row | note _ row | cancel _ _ row | pause _ row | resume _ row
  | ask _ _ _ _ row | resolve _ _ _ _ row => exact h.keep rfl row.count
  | restart | annotate | beginStep | finishStep | saveTrace => exact h.keep rfl rfl
  | cancelWaiting waiting named | pauseWaiting waiting named =>
    exact absurd ⟨named.symm.trans key, v.row, member, key, waiting⟩ ends
  | transit _ named | unknown _ _ named => exact absurd (named.symm.trans key) ends
  | expire _ expired => exact absurd ⟨v.row, member, key, expired⟩ ends
  | restartWaiting waiting => exact absurd ⟨v.row, member, key, by rw [waiting]; rfl⟩ ends
  | restartRunning running => exact absurd ⟨v.row, member, key, by rw [running]; rfl⟩ ends
  | resolveQueued _ known pending named =>
    rw [view_approvals seen] at known
    obtain ⟨listed, owner⟩ := mem_approvalsOf.mp known
    exact absurd ⟨rfl, _, listed, named, owner, pending⟩ ends
  | claim queued =>
    obtain ⟨attempt, known, -, running⟩ := h.running
    exact absurd running (sound.stopped (by rw [queued]; rfl) attempt known)

theorem Refines.current (refines : Refines s op s') (attempts : Everywhere AttemptsSound s)
    (ends : ¬ EndsAttempt s task.taskId op) (h : Current s task) : Current s' task := by
  obtain ⟨v, seen, runs⟩ := current_iff.mp h
  rw [current_iff]
  cases refines.changed task.taskId with
  | same slice => exact ⟨v, (view_of_slice slice).trans seen, runs⟩
  | moved before after move =>
    rw [seen] at before
    cases before
    exact ⟨_, after, move.runs seen (attempts _ v seen) ends runs⟩
  | created absent =>
    rw [seen] at absent
    cases absent

theorem Move.attemptCount_le (move : Move s op v v') : v.row.attemptCount ≤ v'.row.attemptCount := by
  cases move with
  | touch _ row | append _ row | note _ row | cancel _ _ row | cancelWaiting _ _ _ row
  | pause _ row | pauseWaiting _ _ row | resume _ row | transit _ _ _ row | expire _ _ row
  | restartWaiting _ row | restartRunning _ row | unknown _ row | ask _ _ _ _ row
  | resolve _ _ _ _ row | resolveQueued _ _ _ _ row => exact row.count.ge
  | claim _ _ _ _ _ row => exact row.attemptCount ▸ Nat.le_add_right _ _
  | restart | annotate | beginStep | finishStep | saveTrace => exact Nat.le_refl _

def Claimed (s : Store) (task : TaskRecord) : Prop :=
  strip task.taskId = task.taskId ∧
    ∃ v, s.view task.taskId = some v ∧ task.attemptCount ≤ v.row.attemptCount

theorem Refines.claimed (refines : Refines s op s') (h : Claimed s task) : Claimed s' task := by
  obtain ⟨trimmed, v, seen, count⟩ := h
  refine ⟨trimmed, ?_⟩
  cases refines.changed task.taskId with
  | same slice => exact ⟨v, (view_of_slice slice).trans seen, count⟩
  | moved before after move =>
    rw [seen] at before
    cases before
    exact ⟨_, after, count.trans move.attemptCount_le⟩
  | created absent =>
    rw [seen] at absent
    cases absent

def NormalTasks (s : Store) : Prop := ∀ taskId v, s.view taskId = some v → strip taskId = taskId

theorem Refines.normalTasks (refines : Refines s op s') (h : NormalTasks s) : NormalTasks s' := by
  intro taskId v seen
  cases refines.changed taskId with
  | same slice => exact h taskId v ((view_of_slice slice).symm.trans seen)
  | moved before => exact h taskId _ before
  | created _ _ _ _ _ _ trimmed => exact trimmed

theorem claimNext_claimed {env : Env} {now : Time} {workerId : String} {leaseSeconds : Time}
    {principalId : String} (normal : NormalTasks s)
    (h : claimNext env now workerId leaseSeconds principalId s = .ok (some task, s')) :
    Current s' task ∧ Claimed s' task ∧
      ∃ v, s.view task.taskId = some v ∧ v.row.state = .queued ∧
        task.attemptCount = v.row.attemptCount + 1 := by
  obtain ⟨principal, v, attempt, payload, -, next, seen, change, -, ordinal, running, writes⟩ :=
    claimNext_effect h
  have queued := (claimable_queued (nextClaim_some next).2).1
  have key : task.taskId = v.row.taskId := identity_taskId change.identity
  have count : task.attemptCount = v.row.attemptCount + 1 := change.attemptCount
  have after := writes.view_some seen
  rw [← key] at after seen
  refine ⟨current_iff.mpr ⟨_, after, rfl, attempt, ?_, ?_, running⟩, ⟨?_, _, after, ?_⟩,
    v, seen, queued, count⟩
  · exact List.mem_concat_self
  · rw [ordinal, count]
  · exact normal _ v seen
  · exact Nat.le_refl _

end Attempts

end Knoa.Tasks
