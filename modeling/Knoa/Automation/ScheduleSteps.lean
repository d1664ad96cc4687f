import Knoa.Automation.Schedules

/-!
# The steps of the schedules

`ScheduleTaken` says for every call what it finds and what it writes.
-/
namespace Knoa.Automation
open Knoa.Tasks (SessionRow Time strip)
open Relational Transaction

variable {env : ScheduleEnv} {s s' : ScheduleStore env.zones} {op : ScheduleOp env.zones}
  {now : Time}

/-- A claim of `record`, which fires at `due`, has stored `row`. -/
structure Fires (env : ScheduleEnv) (s : ScheduleStore env.zones) (now : Time)
    (record : ScheduleRow env.zones) (due : Time) (following : Option Time) (row : OccurrenceRow)
    (occurrences : Table OccurrenceRow.occurrenceId) : Prop where
  idle : nextOccurrence env now s = none
  first : nextSchedule env now s = some record
  fires : record.nextFireAt = some due
  later : nextFireAt env.zones record.spec.toScheduleSpecFields (max now due) = .ok following
  schedule : row.scheduleId = record.scheduleId
  ordinal : row.ordinal = record.fireCount + 1
  id : row.occurrenceId = occurrenceId env record.scheduleId (record.fireCount + 1)
  scheduledFor : row.scheduledFor = due
  claimed : row.state = .claimed
  attempt : row.attemptCount = 1
  lease : ∃ leaseSeconds, 1 ≤ leaseSeconds ∧ row.leaseExpiresAt = some (now + leaseSeconds)
  free : ∀ other ∈ s.occurrences.rows,
    ¬(other.scheduleId = row.scheduleId ∧ other.ordinal = row.ordinal)
  inserted : s.occurrences.insert row = some occurrences

def ScheduleOp.FindsNothing (env : ScheduleEnv) (s : ScheduleStore env.zones) :
    ScheduleOp env.zones → Prop
  | .claimDue now _ _ => nextOccurrence env now s = none ∧ nextSchedule env now s = none
  | _ => True

/-- What a call that returns may have done. -/
inductive ScheduleTaken (env : ScheduleEnv) (s : ScheduleStore env.zones) :
    ScheduleOp env.zones → ScheduleStore env.zones → Prop
  | same {op : ScheduleOp env.zones} (nothing : op.FindsNothing env s) : ScheduleTaken env s op s
  | created {now : Time} {scheduleIds : Nat → String} {request : ScheduleRequest env.zones}
      {row : ScheduleRow env.zones} {due : Time}
      {schedules : Table (@ScheduleRow.scheduleId env.zones)}
      (active : row.state = .active) (unfired : row.fireCount = 0) (next : row.nextFireAt = some due)
      (found : nextFireAt env.zones row.spec.toScheduleSpecFields now = .ok (some due))
      (inserted : s.schedules.insert row = some schedules) :
      ScheduleTaken env s (.create now scheduleIds request) { s with schedules }
  | paused {now : Time} {principalId named scheduleId : String} {current : ScheduleRow env.zones}
      (found : s.schedules.lookup scheduleId = some current) (active : current.state = .active) :
      ScheduleTaken env s (.pause now principalId named) (s.updateSchedule scheduleId (fun row =>
        { row with state := .paused, updatedAt := now }))
  | resumed {now : Time} {principalId named scheduleId : String} {current : ScheduleRow env.zones}
      {due : Option Time} (found : s.schedules.lookup scheduleId = some current)
      (paused : current.state = .paused)
      (next : nextFireAt env.zones current.spec.toScheduleSpecFields now = .ok due)
      (stripped : scheduleId = strip named) :
      ScheduleTaken env s (.resume now principalId named) (s.updateSchedule scheduleId (fun row =>
        { row with
          state := if due = none then .completed else .active, nextFireAt := due,
          updatedAt := now }))
  | buried {now : Time} {workerId : String} {leaseSeconds : Time} {existing : OccurrenceRow}
      (first : nextOccurrence env now s = some existing) (claimed : existing.state = .claimed)
      (exhausted : env.maxDeliveryAttempts ≤ existing.attemptCount) :
      ScheduleTaken env s (.claimDue now workerId leaseSeconds)
        (s.updateOccurrence existing.occurrenceId (fun row =>
          { row with
            state := .dead, leaseOwner := "", leaseExpiresAt := none,
            failureCode := "delivery_lease_exhausted", updatedAt := now }))
  | reclaimed {now : Time} {workerId worker : String} {leaseSeconds : Time}
      {existing : OccurrenceRow} (first : nextOccurrence env now s = some existing)
      (left : ¬(existing.state = .claimed ∧ env.maxDeliveryAttempts ≤ existing.attemptCount))
      (leased : 1 ≤ leaseSeconds) :
      ScheduleTaken env s (.claimDue now workerId leaseSeconds)
        (s.updateOccurrence existing.occurrenceId (fun row =>
          { row with
            state := .claimed, attemptCount := row.attemptCount + 1, nextAttemptAt := none,
            leaseOwner := worker, leaseExpiresAt := some (now + leaseSeconds), updatedAt := now }))
  | fired {now : Time} {workerId : String} {leaseSeconds : Time} {record : ScheduleRow env.zones}
      {due : Time} {following : Option Time} {row : OccurrenceRow}
      {occurrences : Table OccurrenceRow.occurrenceId}
      (fires : Fires env s now record due following row occurrences) :
      ScheduleTaken env s (.claimDue now workerId leaseSeconds)
        ({ s with occurrences }.updateSchedule record.scheduleId (fun schedule =>
          { schedule with
            state := if following = none then .completed else .active, nextFireAt := following,
            lastFireAt := some due, fireCount := record.fireCount + 1, updatedAt := now }))
  | delivered {now : Time} {named taskId occurrence task : String} {current : OccurrenceRow}
      (found : s.occurrences.lookup occurrence = some current) (claimed : current.state = .claimed) :
      ScheduleTaken env s (.markTaskCreated now named taskId)
        (s.updateOccurrence occurrence (fun row =>
          { row with
            state := .taskCreated, taskId := task, leaseOwner := "", leaseExpiresAt := none,
            failureCode := "", updatedAt := now }))
  | failed {now : Time} {named failureCode occurrence failure : String} {current : OccurrenceRow}
      (found : s.occurrences.lookup occurrence = some current) (claimed : current.state = .claimed) :
      ScheduleTaken env s (.markDeliveryFailed now named failureCode)
        (s.updateOccurrence occurrence (fun row =>
          { row with
            state := if env.maxDeliveryAttempts ≤ current.attemptCount then .dead else .retryWait
            nextAttemptAt :=
              if env.maxDeliveryAttempts ≤ current.attemptCount then none
              else some (now + env.retryBaseSeconds * 2 ^ (current.attemptCount - 1))
            leaseOwner := ""
            leaseExpiresAt := none
            failureCode := failure
            updatedAt := now }))

section Calls

variable {principalId scheduleId : String}

theorem ownedSchedule_ok {row : ScheduleRow env.zones}
    (h : s.ownedSchedule principalId scheduleId = .ok row) :
    s.schedules.lookup scheduleId = some row := by
  have read := orRaise_ok_iff.mp h
  exact (Option.filter_eq_some_iff.mp read).1

theorem create_taken {scheduleIds : Nat → String} {request : ScheduleRequest env.zones}
    {result : ScheduleRow env.zones × Bool}
    (h : create env now scheduleIds request s = (.ok result, s')) :
    ScheduleTaken env s (.create now scheduleIds request) s' := by
  unfold create at h
  dsimp only at h
  split at h
  · cases h
  · rename_i requestId goal due checked
    obtain ⟨_, -, _, -, _, -, checked⟩ := of_bind₃ checked
    obtain ⟨next, found, due', given, checked⟩ := of_bind₂ checked
    cases checked
    obtain rfl := orRaise_ok_iff.mp given
    obtain ⟨body, member, once⟩ := retrying_ok h
    obtain ⟨i, -, rfl⟩ := List.mem_map.mp member
    obtain ⟨scheduleId, -, _, -, once⟩ := of_bind₂ once
    split at once
    · obtain ⟨_, -, once⟩ := of_bind once
      cases once
      exact .same trivial
    · obtain ⟨schedules, inserted, once⟩ := of_bind once
      cases once
      exact .created rfl rfl rfl found (orRaise_ok_iff.mp inserted)

theorem pause_taken {result : ScheduleRow env.zones}
    (h : pause env now principalId scheduleId s = .ok (result, s')) :
    ScheduleTaken env s (.pause now principalId scheduleId) s' := by
  obtain ⟨_, -, _, -, current, owned, h⟩ := of_bind₃ h
  split at h
  · cases h
    exact .same trivial
  · cases h
  · rename_i active
    obtain ⟨_, -, h⟩ := of_bind h
    cases h
    exact .paused (ownedSchedule_ok owned) active

theorem resume_taken {result : ScheduleRow env.zones}
    (h : resume env now principalId scheduleId s = .ok (result, s')) :
    ScheduleTaken env s (.resume now principalId scheduleId) s' := by
  obtain ⟨_, -, _, named, current, owned, h⟩ := of_bind₃ h
  split at h
  · cases h
    exact .same trivial
  · cases h
  · rename_i paused
    obtain ⟨due, next, _, -, h⟩ := of_bind₂ h
    cases h
    exact .resumed (ownedSchedule_ok owned) paused next (identifier_ok_iff.mp named).1

/-- `UNIQUE(schedule_id, ordinal)`. -/
theorem insertOccurrence_ok {row : OccurrenceRow} {occurrences : Table OccurrenceRow.occurrenceId}
    (h : s.insertOccurrence row = some occurrences) : (∀ other ∈ s.occurrences.rows,
      ¬(other.scheduleId = row.scheduleId ∧ other.ordinal = row.ordinal)) ∧
      s.occurrences.insert row = some occurrences := by
  unfold ScheduleStore.insertOccurrence at h
  split at h
  · cases h
  · rename_i apart
    refine ⟨?_, h⟩
    intro other member same
    apply apart
    rw [List.any_eq_true]
    exact ⟨other, member, by simp [same.1, same.2]⟩

theorem claimDue_taken {workerId : String} {leaseSeconds : Time} {result : Option OccurrenceRow}
    (h : claimDue env now workerId leaseSeconds s = .ok (result, s')) :
    ScheduleTaken env s (.claimDue now workerId leaseSeconds) s' := by
  obtain ⟨worker, -, _, leased, h⟩ := of_bind₂ h
  rw [require_ok_iff] at leased
  split at h
  · rename_i existing first
    split at h
    · rename_i exhausted
      cases h
      exact .buried first exhausted.1 exhausted.2
    · rename_i left
      obtain ⟨_, -, h⟩ := of_bind h
      cases h
      exact .reclaimed first left leased.1
  · rename_i idle
    split at h
    · rename_i none_due
      cases h
      exact .same ⟨idle, none_due⟩
    · rename_i record first
      obtain ⟨due, given, following, found, occurrences, inserted, _, -, h⟩ := of_bind₄ h
      cases h
      obtain ⟨free, inserted⟩ := insertOccurrence_ok (orRaise_ok_iff.mp inserted)
      exact .fired ⟨idle, first, orRaise_ok_iff.mp given, found, rfl, rfl, rfl, rfl, rfl, rfl,
        ⟨leaseSeconds, leased.1, rfl⟩, free, inserted⟩

theorem markTaskCreated_taken {occurrence taskId : String} {result : OccurrenceRow}
    (h : markTaskCreated env now occurrence taskId s = .ok (result, s')) :
    ScheduleTaken env s (.markTaskCreated now occurrence taskId) s' := by
  obtain ⟨named, -, task, -, current, read, h⟩ := of_bind₃ h
  split at h
  · obtain ⟨_, -, h⟩ := of_bind h
    cases h
    exact .same trivial
  · obtain ⟨_, claimed, _, -, h⟩ := of_bind₂ h
    cases h
    exact .delivered (orRaise_ok_iff.mp read) (require_ok_iff.mp claimed)

theorem markDeliveryFailed_taken {occurrence failureCode : String} {result : OccurrenceRow}
    (h : markDeliveryFailed env now occurrence failureCode s = .ok (result, s')) :
    ScheduleTaken env s (.markDeliveryFailed now occurrence failureCode) s' := by
  obtain ⟨named, -, failure, -, current, read, h⟩ := of_bind₃ h
  obtain ⟨_, claimed, _, -, h⟩ := of_bind₂ h
  cases h
  exact .failed (orRaise_ok_iff.mp read) (require_ok_iff.mp claimed)

theorem outcome_ok {α : Type} {result : Except AutomationError α × ScheduleStore env.zones}
    (h : ScheduleOp.outcome result = (.ok ⟨⟩, s')) : ∃ a, result = (.ok a, s') := by
  obtain ⟨returned, store⟩ := result
  cases returned with
  | error e => cases h
  | ok a =>
    cases h
    exact ⟨a, rfl⟩

/-- One case for each call; the ledger is proved from it. -/
theorem schedule_step_taken (h : s.step env op = some s') : ScheduleTaken env s op s' := by
  unfold ScheduleStore.step at h
  split at h
  · rename_i x store called
    obtain rfl := Option.some.inj h
    cases x
    cases op with
    | create now scheduleIds request =>
      obtain ⟨result, made⟩ := outcome_ok called
      exact create_taken made
    | pause now principalId scheduleId =>
      obtain ⟨result, made⟩ := outcome_ok called
      exact pause_taken (commit_ok_iff.mp made)
    | resume now principalId scheduleId =>
      obtain ⟨result, made⟩ := outcome_ok called
      exact resume_taken (commit_ok_iff.mp made)
    | claimDue now workerId leaseSeconds =>
      obtain ⟨result, made⟩ := outcome_ok called
      exact claimDue_taken (commit_ok_iff.mp made)
    | markTaskCreated now occurrence taskId =>
      obtain ⟨result, made⟩ := outcome_ok called
      exact markTaskCreated_taken (commit_ok_iff.mp made)
    | markDeliveryFailed now occurrence failureCode =>
      obtain ⟨result, made⟩ := outcome_ok called
      exact markDeliveryFailed_taken (commit_ok_iff.mp made)
  · cases h

end Calls

end Knoa.Automation
