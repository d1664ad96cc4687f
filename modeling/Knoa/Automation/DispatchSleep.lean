import Knoa.Automation.TriggerInbox

/-!
# How long the dispatchers sleep

`seconds_until_next_dispatch` of the two repositories, against what their claims find. The
times are exact rationals, so the sum of the clock and the delay is too.
-/
namespace Knoa.Automation
open Knoa.Tasks (Time)
open Relational Transaction

/-- `max(0.0, MIN(due_at) - clock)`, where there is a minimum. -/
def secondsUntil (now : Time) (deadlines : List Time) : Option Time :=
  deadlines.min?.map fun due => max 0 (due - now)

def ScheduleStore.deadlines {zones : Zones} (s : ScheduleStore zones) : List Time :=
  (s.schedules.rows.filter (·.state == .active)).filterMap (·.nextFireAt) ++
    (s.occurrences.rows.filter (·.state == .retryWait)).filterMap (·.nextAttemptAt) ++
    (s.occurrences.rows.filter (·.state == .claimed)).filterMap (·.leaseExpiresAt)

def ScheduleStore.secondsUntilNextDispatch {zones : Zones} (now : Time) (s : ScheduleStore zones) :
    Option Time :=
  secondsUntil now s.deadlines

def TriggerEventRow.deadline (now : Time) (row : TriggerEventRow) : Option Time :=
  match row.state with
  | .received => some now
  | .retryWait => row.nextAttemptAt
  | .claimed => row.leaseExpiresAt
  | _ => none

def TriggerStore.deadlines (now : Time) (s : TriggerStore) : List Time :=
  (s.events.rows.filter fun row => (s.triggers.lookup row.triggerId).any
    (fun trigger => trigger.state == .active)).filterMap (·.deadline now)

def TriggerStore.secondsUntilNextDispatch (now : Time) (s : TriggerStore) : Option Time :=
  secondsUntil now (s.deadlines now)

/-- A claim of any worker is idle exactly until the sleep is over. -/
def ExactSleep (now : Time) (sleep : Option Time) (idle : Time → String → Time → Prop) : Prop :=
  (∀ delay ∈ sleep, 0 ≤ delay) ∧ ∀ later workerId worker leaseSeconds, now ≤ later →
    identifier workerId "worker_id" 128 = .ok worker → 1 ≤ leaseSeconds ∧ leaseSeconds ≤ 3600 →
      (idle later workerId leaseSeconds ↔ ∀ delay ∈ sleep, later < now + delay)

theorem secondsUntil_exact {now : Time} {deadlines : List Time} {idle : Time → String → Time → Prop}
    (exactly : ∀ later workerId worker leaseSeconds, now ≤ later →
      identifier workerId "worker_id" 128 = .ok worker → 1 ≤ leaseSeconds ∧ leaseSeconds ≤ 3600 →
        (idle later workerId leaseSeconds ↔ ∀ due ∈ deadlines, ¬ due ≤ later)) :
    ExactSleep now (secondsUntil now deadlines) idle := by
  refine ⟨?_, ?_⟩
  · intro delay slept
    obtain ⟨due, -, rfl⟩ := Option.map_eq_some_iff.mp slept
    exact le_max_left _ _
  · intro later workerId worker leaseSeconds after named leased
    rw [exactly later workerId worker leaseSeconds after named leased]
    unfold secondsUntil
    cases first : deadlines.min? with
    | none =>
      obtain rfl := List.min?_eq_none_iff.mp first
      simp
    | some due =>
      obtain ⟨listed, least⟩ := List.min?_eq_some_iff.mp first
      have waits : later < now + max 0 (due - now) ↔ later < due := by
        rcases le_total now due with ahead | past
        · rw [max_eq_right (by linarith)]
          constructor <;> intro <;> linarith
        · rw [max_eq_left (by linarith)]
          constructor <;> intro <;> linarith
      simp only [Option.map_some, Option.mem_some_iff, forall_eq', waits, not_le]
      exact ⟨fun all => all due listed, fun before other member => before.trans_le (least other member)⟩

theorem first_mem {α : Type} {r : α → α → Prop} [DecidableRel r] {p : α → Bool} {rows : List α}
    {row : α} (h : ((rows.filter p).insertionSort r).head? = some row) : row ∈ rows :=
  List.mem_of_mem_filter ((List.mem_insertionSort r).mp (List.mem_of_mem_head? h))

theorem first_none {α : Type} {r : α → α → Prop} [DecidableRel r] {p : α → Bool} {rows : List α} :
    ((rows.filter p).insertionSort r).head? = none ↔ ∀ row ∈ rows, ¬ p row = true := by
  rw [List.head?_eq_none_iff, ← List.length_eq_zero_iff, List.length_insertionSort,
    List.length_eq_zero_iff, List.filter_eq_nil_iff]

section Schedules

variable {env : ScheduleEnv} {s : ScheduleStore env.zones} {now leaseSeconds : Time}
  {workerId worker : String}

theorem claimDue_idle (named : identifier workerId "worker_id" 128 = .ok worker)
    (leased : 1 ≤ leaseSeconds ∧ leaseSeconds ≤ 3600) :
    claimDue env now workerId leaseSeconds s = .ok (none, s) ↔
      nextOccurrence env now s = none ∧ nextSchedule env now s = none := by
  unfold claimDue
  rw [named, ok_bind, require_of leased, ok_bind]
  cases first : nextOccurrence env now s with
  | some existing =>
    simp only [reduceCtorEq, false_and, iff_false]
    intro idle
    split at idle
    · rename_i exhausted
      have same := congrArg (·.occurrences.lookup existing.occurrenceId)
        (Prod.mk.inj (Except.ok.inj idle)).2
      dsimp only [ScheduleStore.updateOccurrence] at same
      rw [Table.lookup_update, Table.lookup_of_mem (first_mem first)] at same
      have dead := congrArg (Option.map OccurrenceRow.state) same
      simp [exhausted.1] at dead
    · obtain ⟨_, -, idle⟩ := of_bind idle
      cases idle
  | none =>
    cases schedule : nextSchedule env now s with
    | none => exact iff_of_true rfl ⟨rfl, rfl⟩
    | some record =>
      simp only [reduceCtorEq, and_false, iff_false]
      intro idle
      obtain ⟨_, -, _, -, _, -, _, -, idle⟩ := of_bind₄ idle
      cases idle

theorem schedule_sleep_exact (env : ScheduleEnv) (s : ScheduleStore env.zones) (now : Time) :
    ExactSleep now (s.secondsUntilNextDispatch now) fun later workerId leaseSeconds =>
      claimDue env later workerId leaseSeconds s = .ok (none, s) := by
  refine secondsUntil_exact fun later workerId worker leaseSeconds _ named leased => ?_
  rw [claimDue_idle named leased, nextOccurrence, nextSchedule, first_none, first_none]
  simp only [ScheduleStore.deadlines, List.mem_append, List.mem_filterMap, List.mem_filter,
    OccurrenceRow.due, ScheduleRow.due, Bool.or_eq_true, Bool.and_eq_true, beq_iff_eq,
    Option.any_eq_true, decide_eq_true_eq]
  constructor
  · rintro ⟨occurrences, schedules⟩ due ((⟨row, ⟨member, active⟩, fires⟩ |
      ⟨row, ⟨member, waits⟩, retries⟩) | ⟨row, ⟨member, claimed⟩, expires⟩) past
    · exact schedules row member ⟨active, due, fires, past⟩
    · exact occurrences row member (Or.inl ⟨waits, due, retries, past⟩)
    · exact occurrences row member (Or.inr ⟨claimed, due, expires, past⟩)
  · intro none_due
    refine ⟨?_, ?_⟩
    · rintro row member (⟨waits, due, retries, past⟩ | ⟨claimed, due, expires, past⟩)
      · exact none_due due (Or.inl (Or.inr ⟨row, ⟨member, waits⟩, retries⟩)) past
      · exact none_due due (Or.inr ⟨row, ⟨member, claimed⟩, expires⟩) past
    · rintro row member ⟨active, due, fires, past⟩
      exact none_due due (Or.inl (Or.inl ⟨row, ⟨member, active⟩, fires⟩)) past

end Schedules

section Triggers

variable {env : TriggerEnv} {s : TriggerStore} {now leaseSeconds : Time} {workerId worker : String}

theorem claimNext_idle (named : identifier workerId "worker_id" 128 = .ok worker)
    (leased : 1 ≤ leaseSeconds ∧ leaseSeconds ≤ 3600) :
    claimNext env now workerId leaseSeconds s = .ok (none, s) ↔ nextEvent now s = none := by
  unfold claimNext
  rw [named, ok_bind, require_of leased, ok_bind]
  cases first : nextEvent now s with
  | none => exact iff_of_true rfl rfl
  | some existing =>
    simp only [reduceCtorEq, iff_false]
    intro idle
    split at idle
    · rename_i exhausted
      have same := congrArg (·.events.lookup existing.triggerEventId)
        (Prod.mk.inj (Except.ok.inj idle)).2
      dsimp only [TriggerStore.updateEvent] at same
      rw [Table.lookup_update, Table.lookup_of_mem (first_mem first)] at same
      have dead := congrArg (Option.map TriggerEventRow.state) same
      simp [exhausted.1] at dead
    · obtain ⟨_, -, idle⟩ := of_bind idle
      cases idle

theorem due_iff {later : Time} {row : TriggerEventRow} (after : now ≤ later) :
    row.due later s = true ↔ (s.triggers.lookup row.triggerId).any
      (fun trigger => trigger.state == .active) = true ∧ ∃ due ∈ row.deadline now, due ≤ later := by
  unfold TriggerEventRow.due TriggerEventRow.deadline
  rw [Bool.and_eq_true]
  cases row.state <;> simp [after, Option.any_eq_true]

theorem trigger_sleep_exact (env : TriggerEnv) (s : TriggerStore) (now : Time) :
    ExactSleep now (s.secondsUntilNextDispatch now) fun later workerId leaseSeconds =>
      claimNext env later workerId leaseSeconds s = .ok (none, s) := by
  refine secondsUntil_exact fun later workerId worker leaseSeconds after named leased => ?_
  rw [claimNext_idle named leased, nextEvent, first_none]
  simp only [TriggerStore.deadlines, List.mem_filterMap, List.mem_filter, due_iff after]
  constructor
  · rintro none_due due ⟨row, ⟨member, active⟩, named⟩ past
    exact none_due row member ⟨active, due, named, past⟩
  · rintro none_due row member ⟨active, due, named, past⟩
    exact none_due due ⟨row, ⟨member, active⟩, named⟩ past

end Triggers

end Knoa.Automation
