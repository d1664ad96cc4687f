import Knoa.Automation.Triggers
import Knoa.Automation.ScheduleSteps

/-!
# The steps of the triggers

`TriggerTaken` says for every call what it finds, what it writes, and which deliveries
failed with it.
-/
namespace Knoa.Automation
open Knoa.Tasks Relational Transaction

/-- The events that a call counts as failed deliveries: a claim counts one whose lease has run out. -/
def TriggerOp.failures (s : TriggerStore) : TriggerOp → List String
  | .claimNext now _ _ =>
    match nextEvent now s with
    | some row => if row.state = .claimed then [row.triggerEventId] else []
    | none => []
  | .markDeliveryFailed _ event _ => [strip event]
  | _ => []

/-- What a call that returns may have done, with the deliveries that it counts as failed. -/
inductive TriggerTaken (env : TriggerEnv) (s : TriggerStore) : List String → TriggerStore → Prop
  | same : TriggerTaken env s [] s
  | created {row : TriggerRow} {triggers : Table TriggerRow.triggerId} (empty : row.eventCount = 0)
      (unseen : row.lastEventAt = none) (inserted : s.triggers.insert row = some triggers) :
      TriggerTaken env s [] { s with triggers }
  | pausedSet {now : Time} {triggerId : String} {target : TriggerState} :
      TriggerTaken env s [] (s.updateTrigger triggerId (fun row =>
        { row with state := target, updatedAt := now }))
  | received {now : Time} {trigger : TriggerRow} {externalId payload : String}
      {events : Table TriggerEventRow.triggerEventId}
      (found : s.triggers.lookup trigger.triggerId = some trigger)
      (new : s.eventOf trigger.triggerId externalId = none)
      (inserted : s.events.insert (newEvent env now trigger externalId payload .received "") =
        some events) :
      TriggerTaken env s [] ({ s with events }.updateTrigger trigger.triggerId
        (fun trigger =>
          { trigger with
            eventCount := trigger.eventCount + 1, lastEventAt := some now, updatedAt := now }))
  | baselined {now : Time} {trigger : TriggerRow} {items : List (String × String)}
      {inserted : Nat} {stored : TriggerStore}
      (found : s.triggers.lookup trigger.triggerId = some trigger)
      (unseen : trigger.lastEventAt = none)
      (listed : baselineItems env now trigger items s = .ok (inserted, stored)) :
      TriggerTaken env s [] (stored.updateTrigger trigger.triggerId (fun trigger =>
        { trigger with lastEventAt := some now, updatedAt := now }))
  | buried {now : Time} {row : TriggerEventRow} (first : nextEvent now s = some row)
      (claimed : row.state = .claimed) :
      TriggerTaken env s [row.triggerEventId] (s.updateEvent row.triggerEventId (fun row =>
        { row with
          state := .dead, leaseOwner := "", leaseExpiresAt := none,
          failureCode := "delivery_lease_exhausted", updatedAt := now }))
  | claimed {now leaseSeconds : Time} {worker : String} {row : TriggerEventRow}
      (first : nextEvent now s = some row)
      (left : ¬(row.state = .claimed ∧ env.maxDeliveryAttempts ≤ row.attemptCount)) :
      TriggerTaken env s (if row.state = .claimed then [row.triggerEventId] else [])
        (s.updateEvent row.triggerEventId (fun row =>
          { row with
            state := .claimed, attemptCount := row.attemptCount + 1, nextAttemptAt := none,
            leaseOwner := worker, leaseExpiresAt := some (now + leaseSeconds), updatedAt := now }))
  | delivered {now : Time} {event task : String} {current : TriggerEventRow}
      (found : s.events.lookup event = some current) (claimed : current.state = .claimed) :
      TriggerTaken env s [] (s.updateEvent event (fun row =>
        { row with
          state := .taskCreated, taskId := task, leaseOwner := "", leaseExpiresAt := none,
          failureCode := "", updatedAt := now }))
  | failed {now : Time} {event failure : String} {current : TriggerEventRow}
      (found : s.events.lookup event = some current) (claimed : current.state = .claimed) :
      TriggerTaken env s [event] (s.updateEvent event (fun row =>
        { row with
          state := if env.maxDeliveryAttempts ≤ current.attemptCount then .dead else .retryWait
          nextAttemptAt :=
            if env.maxDeliveryAttempts ≤ current.attemptCount then none
            else some (now + env.retryBaseSeconds * 2 ^ (current.attemptCount - 1))
          leaseOwner := ""
          leaseExpiresAt := none
          failureCode := failure
          updatedAt := now }))
  | deferred {now : Time} {event reason : String} {current : TriggerEventRow}
      (found : s.events.lookup event = some current) (claimed : current.state = .claimed) :
      TriggerTaken env s [] (s.updateEvent event (fun row =>
        { row with
          state := .retryWait, attemptCount := row.attemptCount - 1,
          nextAttemptAt := some (now + env.retryBaseSeconds), leaseOwner := "",
          leaseExpiresAt := none, failureCode := reason, updatedAt := now }))

section Calls

variable {env : TriggerEnv} {s s' : TriggerStore} {op : TriggerOp} {now : Time}

variable {principalId triggerId : String}

theorem ownedTrigger_ok {row : TriggerRow} (h : s.ownedTrigger principalId triggerId = .ok row) :
    s.triggers.lookup triggerId = some row ∧ row.triggerId = triggerId := by
  have read := (Option.filter_eq_some_iff.mp (orRaise_ok_iff.mp h)).1
  exact ⟨read, Table.lookup_key read⟩

/-- `UNIQUE(trigger_id, external_event_id)`. -/
theorem insertEvent_ok {row : TriggerEventRow} {events : Table TriggerEventRow.triggerEventId}
    (h : s.insertEvent row = some events) :
    s.eventOf row.triggerId row.externalEventId = none ∧ s.events.insert row = some events := by
  unfold TriggerStore.insertEvent at h
  split at h
  · cases h
  · rename_i absent
    exact ⟨by simpa using absent, h⟩

theorem createTrigger_taken {triggerIds : Nat → String} {request : TriggerRequest}
    {result : TriggerRow × Bool}
    (h : createTrigger now triggerIds request s = (.ok result, s')) : TriggerTaken env s [] s' := by
  unfold createTrigger at h
  dsimp only at h
  split at h
  · cases h
  · obtain ⟨body, member, once⟩ := retrying_ok h
    obtain ⟨i, -, rfl⟩ := List.mem_map.mp member
    obtain ⟨triggerId, -, _, -, once⟩ := of_bind₂ once
    split at once
    · obtain ⟨_, -, once⟩ := of_bind once
      cases once
      exact .same
    · obtain ⟨triggers, inserted, once⟩ := of_bind once
      cases once
      exact .created rfl rfl (orRaise_ok_iff.mp inserted)

theorem setPaused_taken {paused : Bool} {result : TriggerRow}
    (h : setPaused now principalId triggerId paused s = .ok (result, s')) :
    TriggerTaken env s [] s' := by
  obtain ⟨_, -, _, -, current, -, h⟩ := of_bind₃ h
  generalize (if paused = true then TriggerState.paused else .active) = target at h
  split at h
  · cases h
    exact .same
  · obtain ⟨_, -, h⟩ := of_bind h
    cases h
    exact .pausedSet

theorem receive_taken {externalEventId payload : String} {result : TriggerEventRow × Bool}
    (h : receive env now principalId triggerId externalEventId payload s = .ok (result, s')) :
    TriggerTaken env s [] s' := by
  obtain ⟨_, -, named, -, externalId, -, h⟩ := of_bind₃ h
  obtain ⟨payload, -, trigger, owned, h⟩ := of_bind₂ h
  obtain ⟨found, rfl⟩ := ownedTrigger_ok owned
  obtain ⟨_, -, h⟩ := of_bind h
  split at h
  · obtain ⟨_, -, h⟩ := of_bind h
    cases h
    exact .same
  · obtain ⟨events, inserted, _, -, h⟩ := of_bind₂ h
    cases h
    obtain ⟨new, inserted⟩ := insertEvent_ok (orRaise_ok_iff.mp inserted)
    exact .received found new inserted

theorem baseline_taken {items : List (String × String)} {result : Nat}
    (h : baseline env now principalId triggerId items s = .ok (result, s')) :
    TriggerTaken env s [] s' := by
  obtain ⟨_, -, named, -, items, -, trigger, owned, h⟩ := of_bind₄ h
  obtain ⟨found, rfl⟩ := ownedTrigger_ok owned
  obtain ⟨_, -, h⟩ := of_bind h
  split at h
  · cases h
    exact .same
  · rename_i unseen
    obtain ⟨⟨inserted, stored⟩, listed, h⟩ := of_bind h
    cases h
    exact .baselined found (Decidable.not_not.mp unseen) listed

theorem claimNext_taken {workerId : String} {leaseSeconds : Time} {result : Option TriggerEventRow}
    (h : claimNext env now workerId leaseSeconds s = .ok (result, s')) :
    TriggerTaken env s ((TriggerOp.claimNext now workerId leaseSeconds).failures s) s' := by
  obtain ⟨worker, -, _, -, h⟩ := of_bind₂ h
  cases first : nextEvent now s with
  | none =>
    rw [first] at h
    cases h
    simp only [TriggerOp.failures, first]
    exact .same
  | some row =>
    rw [first] at h
    simp only [TriggerOp.failures, first]
    dsimp only at h
    split at h
    · rename_i exhausted
      cases h
      rw [if_pos exhausted.1]
      exact .buried first exhausted.1
    · rename_i left
      obtain ⟨_, -, h⟩ := of_bind h
      cases h
      exact .claimed first left

variable {event : String} {result : TriggerEventRow}

theorem markEventTaskCreated_taken {taskId : String}
    (h : markEventTaskCreated now event taskId s = .ok (result, s')) :
    TriggerTaken env s [] s' := by
  obtain ⟨named, -, task, -, current, read, h⟩ := of_bind₃ h
  split at h
  · obtain ⟨_, -, h⟩ := of_bind h
    cases h
    exact .same
  · obtain ⟨_, claimed, _, -, h⟩ := of_bind₂ h
    cases h
    exact .delivered (orRaise_ok_iff.mp read) (require_ok_iff.mp claimed)

theorem markEventDeliveryFailed_taken {failureCode : String}
    (h : markEventDeliveryFailed env now event failureCode s = .ok (result, s')) :
    TriggerTaken env s [strip event] s' := by
  obtain ⟨named, given, failure, -, current, read, h⟩ := of_bind₃ h
  obtain ⟨_, claimed, _, -, h⟩ := of_bind₂ h
  cases h
  obtain ⟨rfl, -⟩ := identifier_ok_iff.mp given
  exact .failed (orRaise_ok_iff.mp read) (require_ok_iff.mp claimed)

theorem deferDelivery_taken {reason : String}
    (h : deferDelivery env now event reason s = .ok (result, s')) : TriggerTaken env s [] s' := by
  obtain ⟨named, -, text, -, current, read, h⟩ := of_bind₃ h
  obtain ⟨_, claimed, _, -, h⟩ := of_bind₂ h
  cases h
  exact .deferred (orRaise_ok_iff.mp read) (require_ok_iff.mp claimed)

theorem trigger_outcome_some {α : Type} {result : Except AutomationError α × TriggerStore}
    (h : TriggerOp.outcome result = some s') : ∃ a, result = (.ok a, s') := by
  obtain ⟨returned, store⟩ := result
  cases returned with
  | error e => cases h
  | ok a =>
    cases h
    exact ⟨a, rfl⟩

/-- One case for each call; the invariants of the inbox are proved from it. -/
theorem trigger_step_taken (h : s.step env op = some s') :
    TriggerTaken env s (op.failures s) s' := by
  cases op with
  | create now triggerIds request =>
    obtain ⟨result, made⟩ := trigger_outcome_some h
    exact createTrigger_taken made
  | setPaused now principalId triggerId paused =>
    obtain ⟨result, made⟩ := trigger_outcome_some h
    exact setPaused_taken (commit_ok_iff.mp made)
  | receive now principalId triggerId externalEventId payload =>
    obtain ⟨result, made⟩ := trigger_outcome_some h
    exact receive_taken (commit_ok_iff.mp made)
  | baseline now principalId triggerId items =>
    obtain ⟨result, made⟩ := trigger_outcome_some h
    exact baseline_taken (commit_ok_iff.mp made)
  | claimNext now workerId leaseSeconds =>
    obtain ⟨result, made⟩ := trigger_outcome_some h
    exact claimNext_taken (commit_ok_iff.mp made)
  | markTaskCreated now event taskId =>
    obtain ⟨result, made⟩ := trigger_outcome_some h
    exact markEventTaskCreated_taken (commit_ok_iff.mp made)
  | markDeliveryFailed now event failureCode =>
    obtain ⟨result, made⟩ := trigger_outcome_some h
    exact markEventDeliveryFailed_taken (commit_ok_iff.mp made)
  | deferDelivery now event reason =>
    obtain ⟨result, made⟩ := trigger_outcome_some h
    exact deferDelivery_taken (commit_ok_iff.mp made)

end Calls

end Knoa.Automation
