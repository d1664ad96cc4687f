import Knoa.Automation.OccurrenceLedger

/-!
# Polling at one time

The workers poll as long as something is due. A schedule that cannot say when it fires
next stops every poll that comes to it, and one that rounding leaves where it is stays due.
-/
namespace Knoa.Automation
open Knoa.Tasks Relational Transaction Transition

section Definitions

variable {zones : Zones}

def ScheduleOp.polls (now : Time) : ScheduleOp zones → Prop
  | .claimDue at' _ _ | .markTaskCreated at' _ _ | .markDeliveryFailed at' _ _ => at' = now
  | _ => False

/-- The arguments that `claim_due` accepts. -/
def Admits (workerId : String) (leaseSeconds : Time) : Prop :=
  (strip workerId ≠ "" ∧ (strip workerId).length ≤ 128) ∧ 1 ≤ leaseSeconds ∧ leaseSeconds ≤ 3600

instance (workerId : String) (leaseSeconds : Time) : Decidable (Admits workerId leaseSeconds) := by
  unfold Admits
  infer_instance

def ScheduleOp.claims : ScheduleOp zones → Bool
  | .claimDue _ workerId leaseSeconds => decide (Admits workerId leaseSeconds)
  | _ => false

/-- How much is due. -/
def ScheduleStore.pending {env : ScheduleEnv} (s : ScheduleStore env.zones) (now : Time) : Nat :=
  s.occurrences.rows.countP (OccurrenceRow.due now) + s.schedules.rows.countP (ScheduleRow.due now)

def ScheduleRow.nextId (env : ScheduleEnv) (row : ScheduleRow zones) : String :=
  occurrenceId env row.scheduleId (row.fireCount + 1)

/-- What the first claim of an occurrence fixes. -/
structure Slot where
  occurrenceId : String
  scheduleId : String
  ordinal : Nat
  scheduledFor : Time
  deriving DecidableEq

def OccurrenceRow.slot (row : OccurrenceRow) : Slot :=
  ⟨row.occurrenceId, row.scheduleId, row.ordinal, row.scheduledFor⟩

def ScheduleRow.slot (env : ScheduleEnv) (row : ScheduleRow zones) (due : Time) : Slot :=
  ⟨row.nextId env, row.scheduleId, row.fireCount + 1, due⟩

def ScheduleStore.slots (s : ScheduleStore zones) : List Slot :=
  s.occurrences.rows.map OccurrenceRow.slot

end Definitions

/-- Whatever the workers do at a time, no claim raises, and as many claims as things are
due leave nothing due and an occurrence of every schedule that was. -/
structure Isolated (env : ScheduleEnv) (s : ScheduleStore env.zones) (now : Time) : Prop where
  accepted : ∀ ops : List (ScheduleOp env.zones), (∀ op ∈ ops, op.polls now) →
    ∀ workerId leaseSeconds, Admits workerId leaseSeconds → ∃ result s',
      commit (claimDue env now workerId leaseSeconds) (final (ScheduleStore.step env) s ops) =
        (.ok result, s')
  claimed : ∀ ops : List (ScheduleOp env.zones), (∀ op ∈ ops, op.polls now) →
    s.pending now ≤ ops.countP ScheduleOp.claims →
      let t := final (ScheduleStore.step env) s ops
      t.pending now = 0 ∧ ∀ row ∈ s.schedules.rows, row.due now = true →
        ∃ occurrence ∈ t.occurrences.rows, occurrence.scheduleId = row.scheduleId ∧
          occurrence.ordinal = row.fireCount + 1 ∧ row.nextFireAt = some occurrence.scheduledFor

/-- The interval schedules that are due get ahead of the time. -/
def Steady {env : ScheduleEnv} (s : ScheduleStore env.zones) (now : Time) : Prop :=
  ∀ row ∈ s.schedules.rows, row.due now = true → Advances row.spec.toScheduleSpecFields now

structure Recurring (env : ScheduleEnv) (s : ScheduleStore env.zones) (now : Time) : Prop where
  recurs : ∀ row ∈ s.schedules.rows, row.due now = true →
    Recurs env.zones row.spec.toScheduleSpecFields (max now (row.nextFireAt.getD 0))
  steady : Steady s now
  fresh : ∀ row ∈ s.schedules.rows, row.due now = true →
    ∀ occurrence ∈ s.occurrences.rows, occurrence.occurrenceId ≠ row.nextId env
  apart : ∀ row ∈ s.schedules.rows, row.due now = true → ∀ other ∈ s.schedules.rows,
    other.due now = true → row.nextId env = other.nextId env → row = other

structure Numbered {zones : Zones} (s : ScheduleStore zones) : Prop where
  owned : ∀ occurrence ∈ s.occurrences.rows, ∃ row ∈ s.schedules.rows,
    row.scheduleId = occurrence.scheduleId ∧ occurrence.ordinal ≤ row.fireCount
  positive : ∀ row ∈ s.schedules.rows, ∀ due ∈ row.nextFireAt, 0 ≤ due

section Numbers

variable {env : ScheduleEnv} {s s' : ScheduleStore env.zones} {op : ScheduleOp env.zones}
  {now : Time}

theorem slots_updateOccurrence {occurrenceId : String} {f : OccurrenceRow → OccurrenceRow}
    {keep : ∀ row, (f row).occurrenceId = row.occurrenceId}
    (same : ∀ row, (f row).slot = row.slot) :
    (s.updateOccurrence occurrenceId f keep).slots = s.slots := by
  change (s.occurrences.rows.map _).map _ = _
  rw [List.map_map]
  apply List.map_congr_left
  intro row _
  dsimp only [Function.comp]
  split
  · exact same row
  · rfl

theorem Numbered.of_slots (h : Numbered s) (slots : s'.slots = s.slots)
    (schedules : s'.schedules = s.schedules) : Numbered s' := by
  refine ⟨?_, by rw [schedules]; exact h.positive⟩
  intro occurrence member
  have slot : occurrence.slot ∈ s.slots := slots ▸ List.mem_map_of_mem member
  obtain ⟨other, present, same⟩ := List.mem_map.mp slot
  have scheduled : other.scheduleId = occurrence.scheduleId := congrArg Slot.scheduleId same
  have ordinal : other.ordinal = occurrence.ordinal := congrArg Slot.ordinal same
  rw [← scheduled, ← ordinal, schedules]
  exact h.owned other present

theorem Numbered.updateSchedule (h : Numbered s) {scheduleId : String}
    {f : ScheduleRow env.zones → ScheduleRow env.zones}
    {keep : ∀ row, (f row).scheduleId = row.scheduleId} {current : ScheduleRow env.zones}
    (found : s.schedules.lookup scheduleId = some current)
    (grows : current.fireCount ≤ (f current).fireCount)
    (positive : ∀ due ∈ (f current).nextFireAt, 0 ≤ due) :
    Numbered (s.updateSchedule scheduleId f keep) := by
  have selected : ∀ {row}, row ∈ s.schedules.rows → (row.scheduleId == scheduleId) = true →
      row = current := fun present chosen => Table.mem_unique present (Table.lookup_mem found)
        ((beq_iff_eq.mp chosen).trans (Table.lookup_key found).symm)
  refine ⟨?_, ?_⟩
  · intro occurrence member
    obtain ⟨row, present, names, bound⟩ := h.owned occurrence member
    refine ⟨_, List.mem_map_of_mem present, ?_⟩
    split
    · rename_i chosen
      obtain rfl := selected present chosen
      exact ⟨(keep row).trans names, bound.trans grows⟩
    · exact ⟨names, bound⟩
  · intro row member
    obtain ⟨old, present, rfl⟩ := List.mem_map.mp member
    split
    · rename_i chosen
      obtain rfl := selected present chosen
      exact positive
    · exact h.positive old present

theorem Numbered.insert (h : Numbered s) {row : OccurrenceRow}
    {occurrences : Table OccurrenceRow.occurrenceId}
    (rows : occurrences.rows = s.occurrences.rows ++ [row])
    (owned : ∃ owner ∈ s.schedules.rows, owner.scheduleId = row.scheduleId ∧
      row.ordinal ≤ owner.fireCount) : Numbered { s with occurrences } := by
  refine ⟨?_, h.positive⟩
  intro occurrence member
  rw [rows] at member
  rcases List.mem_concat.mp member with old | new
  · exact h.owned occurrence old
  · rw [new]
    exact owned

theorem Numbered.kept (h : Numbered s) (taken : ScheduleTaken env s op s') : Numbered s' := by
  cases taken with
  | same => exact h
  | @created _ _ _ row due schedules active unfired next found inserted =>
    have rows := Table.insert_rows inserted
    refine ⟨?_, ?_⟩
    · intro occurrence member
      obtain ⟨owner, present, names⟩ := h.owned occurrence member
      refine ⟨owner, ?_, names⟩
      rw [rows]
      exact List.mem_append_left _ present
    · intro other member
      rw [rows] at member
      rcases List.mem_concat.mp member with old | new
      · exact h.positive other old
      · rw [new, next]
        intro time given
        obtain rfl := Option.some.inj given
        exact nextFireAt_nonneg row.spec found
  | @paused _ _ _ _ current found active =>
    exact h.updateSchedule found (le_refl current.fireCount)
      (h.positive current (Table.lookup_mem found))
  | @resumed _ _ _ _ current due found paused next =>
    refine h.updateSchedule found (le_refl current.fireCount) ?_
    intro time given
    exact nextFireAt_nonneg current.spec (next.trans (congrArg Except.ok given))
  | buried | reclaimed | delivered | failed =>
    exact h.of_slots (slots_updateOccurrence (fun _ => rfl)) rfl
  | @fired now _ _ record due following row occurrences fires =>
    obtain ⟨found, -⟩ := nextSchedule_lookup fires.first
    have grown : Numbered (s.updateSchedule record.scheduleId (fun schedule =>
        { schedule with
          state := if following = none then .completed else .active, nextFireAt := following,
          lastFireAt := some due, fireCount := record.fireCount + 1, updatedAt := now })) := by
      refine h.updateSchedule found (Nat.le_succ record.fireCount) ?_
      intro time given
      exact nextFireAt_nonneg record.spec (fires.later.trans (congrArg Except.ok given))
    refine grown.insert (Table.insert_rows fires.inserted) ⟨_,
      List.mem_map_of_mem (Table.lookup_mem found), ?_⟩
    rw [if_pos (beq_self_eq_true _)]
    exact ⟨fires.schedule.symm, fires.ordinal.le⟩

end Numbers

structure Served (env : ScheduleEnv) (now : Time) (s t : ScheduleStore env.zones)
    (row : ScheduleRow env.zones) (due : Time) : Prop where
  given : row.nextFireAt = some due
  recurs : Recurs env.zones row.spec.toScheduleSpecFields (max now due)
  fresh : ∀ slot ∈ s.slots, slot.occurrenceId ≠ row.nextId env
  slot : row.slot env due ∈ t.slots

structure Polled (env : ScheduleEnv) (now : Time) (s t : ScheduleStore env.zones) : Prop where
  earlier : ∀ slot ∈ s.slots, slot ∈ t.slots
  due : ∀ row ∈ t.schedules.rows, row.due now = true → row ∈ s.schedules.rows
  served : ∀ row ∈ s.schedules.rows, row.due now = true →
    row ∈ t.schedules.rows ∨ ∃ due, Served env now s t row due
  ids : ∀ slot ∈ t.slots, slot ∈ s.slots ∨ ∃ row ∈ s.schedules.rows, row.due now = true ∧
    row ∉ t.schedules.rows ∧ slot.occurrenceId = row.nextId env
  apart : ∀ row ∈ s.schedules.rows, row.due now = true → row ∉ t.schedules.rows →
    ∀ other ∈ s.schedules.rows, other.due now = true → other ∉ t.schedules.rows →
      row.nextId env = other.nextId env → row = other

section Polling

variable {env : ScheduleEnv} {now : Time} {s t t' : ScheduleStore env.zones}
  {op : ScheduleOp env.zones}

theorem Polled.refl (env : ScheduleEnv) (now : Time) (s : ScheduleStore env.zones) :
    Polled env now s s where
  earlier _ listed := listed
  due _ member _ := member
  served _ member _ := Or.inl member
  ids _ listed := Or.inl listed
  apart _ member _ gone := absurd member gone

theorem Polled.of_slots (h : Polled env now s t) (slots : t'.slots = t.slots)
    (schedules : t'.schedules = t.schedules) : Polled env now s t' := by
  refine ⟨?_, ?_, ?_, ?_, ?_⟩
  · rw [slots]
    exact h.earlier
  · rw [schedules]
    exact h.due
  · intro row member due
    rw [schedules]
    refine (h.served row member due).imp_right ?_
    rintro ⟨time, served⟩
    exact ⟨time, served.given, served.recurs, served.fresh, slots ▸ served.slot⟩
  · rw [slots, schedules]
    exact h.ids
  · rw [schedules]
    exact h.apart

variable {record : ScheduleRow env.zones} {due : Time}

theorem Fires.ahead {following : Option Time} {row : OccurrenceRow}
    {occurrences : Table OccurrenceRow.occurrenceId}
    (fires : Fires env t now record due following row occurrences)
    (advances : Advances record.spec.toScheduleSpecFields now) {time : Time}
    (next : following = some time) : now < time := by
  have later := fires.later
  rw [max_eq_left fires.due_le, next] at later
  exact nextFireAt_after advances later

theorem Polled.serve (h : Polled env now s t) (present : record ∈ t.schedules.rows)
    (isDue : record.due now = true) (given : record.nextFireAt = some due)
    (recurs : Recurs env.zones record.spec.toScheduleSpecFields (max now due))
    (fresh : ∀ slot ∈ t.slots, slot.occurrenceId ≠ record.nextId env)
    (slots : t'.slots = t.slots ++ [record.slot env due])
    (left : ∀ other ∈ t'.schedules.rows, other.due now = true → other ∈ t.schedules.rows ∧
      other ≠ record)
    (kept : ∀ other ∈ t.schedules.rows, other ≠ record → other ∈ t'.schedules.rows) :
    Polled env now s t' := by
  have gone : ∀ other, other ∉ t'.schedules.rows → other ∉ t.schedules.rows ∨ other = record := by
    intro other absent
    by_cases same : other = record
    · exact Or.inr same
    · exact Or.inl (fun known => absent (kept other known same))
  have grown : ∀ {other time}, Served env now s t other time → Served env now s t' other time := by
    intro other time served
    refine ⟨served.given, served.recurs, served.fresh, ?_⟩
    rw [slots]
    exact List.mem_append_left _ served.slot
  have collides : ∀ other ∈ s.schedules.rows, other.due now = true → other ∉ t.schedules.rows →
      other.nextId env ≠ record.nextId env := by
    intro other member otherDue absent
    rcases h.served other member otherDue with still | ⟨time, served⟩
    · exact absurd still absent
    · exact fresh _ served.slot
  refine ⟨?_, ?_, ?_, ?_, ?_⟩
  · intro slot listed
    rw [slots]
    exact List.mem_append_left _ (h.earlier slot listed)
  · intro other member otherDue
    exact h.due other (left other member otherDue).1 otherDue
  · intro other member otherDue
    rcases h.served other member otherDue with still | ⟨time, served⟩
    · by_cases same : other = record
      · refine Or.inr ⟨due, ?_⟩
        rw [same]
        refine ⟨given, recurs, fun slot listed => fresh slot (h.earlier slot listed), ?_⟩
        rw [slots]
        exact List.mem_concat_self
      · exact Or.inl (kept other still same)
    · exact Or.inr ⟨time, grown served⟩
  · intro slot listed
    rw [slots] at listed
    rcases List.mem_concat.mp listed with old | new
    · refine (h.ids slot old).imp_right ?_
      rintro ⟨other, member, otherDue, absent, same⟩
      exact ⟨other, member, otherDue, fun back => absent (left other back otherDue).1, same⟩
    · refine Or.inr ⟨record, h.due record present isDue, isDue, ?_, ?_⟩
      · intro back
        exact (left record back isDue).2 rfl
      · rw [new]
        rfl
  · intro first member firstDue absent other member' otherDue absent' same
    rcases gone first absent with before | rfl
    · rcases gone other absent' with before' | rfl
      · exact h.apart first member firstDue before other member' otherDue before' same
      · exact absurd same (collides first member firstDue before)
    · rcases gone other absent' with before' | rfl
      · exact absurd same.symm (collides other member' otherDue before')
      · rfl

theorem Polled.fire (h : Polled env now s t) (steady : Steady s now) (numbered : Numbered t) {following : Option Time}
    {row : OccurrenceRow} {occurrences : Table OccurrenceRow.occurrenceId}
    (fires : Fires env t now record due following row occurrences) :
    Polled env now s ({ t with occurrences }.updateSchedule record.scheduleId
      (fun schedule =>
        { schedule with
          state := if following = none then .completed else .active, nextFireAt := following,
          lastFireAt := some due, fireCount := record.fireCount + 1, updatedAt := now })) := by
  obtain ⟨found, isDue⟩ := nextSchedule_lookup fires.first
  have present := Table.lookup_mem found
  have started : 0 ≤ max now due :=
    (numbered.positive record present due fires.fires).trans (le_max_right now due)
  have recurs := (nextFireAt_ok_iff record.spec started).mp ⟨following, fires.later⟩
  refine h.serve present isDue fires.fires recurs ?_ ?_ ?_ ?_
  · intro slot listed same
    obtain ⟨occurrence, member, rfl⟩ := List.mem_map.mp listed
    apply Table.insert_fresh fires.inserted
    rw [fires.id]
    exact List.mem_map.mpr ⟨occurrence, member, same⟩
  · have slot : row.slot = record.slot env due := by
      rw [OccurrenceRow.slot, fires.id, fires.schedule, fires.ordinal, fires.scheduledFor]
      rfl
    change occurrences.rows.map _ = _
    rw [Table.insert_rows fires.inserted, List.map_append, List.map_singleton, slot]
    rfl
  · intro other member otherDue
    obtain ⟨old, known, rfl⟩ := List.mem_map.mp member
    by_cases chosen : (old.scheduleId == record.scheduleId) = true
    · rw [if_pos chosen] at otherDue
      obtain ⟨-, time, next, reached⟩ := ScheduleRow.due_iff.mp otherDue
      have advances := steady record (h.due record present isDue) isDue
      exact absurd (fires.ahead advances next) (not_lt.mpr reached)
    · rw [if_neg chosen]
      exact ⟨known, fun same => chosen (by rw [same]; exact beq_self_eq_true _)⟩
  · intro other known different
    refine List.mem_map.mpr ⟨other, known, if_neg ?_⟩
    intro chosen
    exact different (Table.mem_unique known present (beq_iff_eq.mp chosen))

theorem Polled.kept (h : Polled env now s t) (steady : Steady s now) (numbered : Numbered t)
    (polls : op.polls now) (taken : ScheduleTaken env t op t') : Polled env now s t' := by
  cases taken with
  | same => exact h
  | created | paused | resumed => exact polls.elim
  | buried | reclaimed | delivered | failed =>
    exact h.of_slots (slots_updateOccurrence (fun _ => rfl)) rfl
  | fired fires =>
    cases polls
    exact h.fire steady numbered fires

end Polling

section Pending

variable {env : ScheduleEnv} {now : Time} {s t t' : ScheduleStore env.zones}
  {op : ScheduleOp env.zones}

theorem head_sorted_none {α : Type} {rows : List α} {due : α → Bool} {before : α → α → Prop}
    [DecidableRel before] :
    ((rows.filter due).insertionSort before).head? = none ↔ rows.countP due = 0 := by
  rw [List.head?_eq_none_iff, ← List.length_eq_zero_iff, List.length_insertionSort,
    List.countP_eq_length_filter]

theorem pending_eq_zero_iff :
    t.pending now = 0 ↔ nextOccurrence env now t = none ∧ nextSchedule env now t = none := by
  unfold nextOccurrence nextSchedule
  rw [head_sorted_none, head_sorted_none, ScheduleStore.pending, Nat.add_eq_zero_iff]

theorem pending_updateOccurrence {occurrenceId : String} {f : OccurrenceRow → OccurrenceRow}
    {keep : ∀ row, (f row).occurrenceId = row.occurrenceId} {existing : OccurrenceRow}
    (found : t.occurrences.lookup occurrenceId = some existing)
    (drops : (f existing).due now = false) :
    (t.updateOccurrence occurrenceId f keep).pending now ≤ t.pending now ∧
      (existing.due now = true →
        (t.updateOccurrence occurrenceId f keep).pending now ≤ t.pending now - 1) := by
  have count : (t.updateOccurrence occurrenceId f keep).occurrences.rows.countP
      (OccurrenceRow.due now) + (if existing.due now then 1 else 0) =
        t.occurrences.rows.countP (OccurrenceRow.due now) := by
    refine Table.countP_update keep (Table.lookup_mem found) ?_ drops
    intro other member
    rw [beq_iff_eq, ← Table.lookup_key found]
    exact ⟨Table.mem_unique member (Table.lookup_mem found), fun same => by rw [same]⟩
  have schedules : (t.updateOccurrence occurrenceId f keep).schedules = t.schedules := rfl
  unfold ScheduleStore.pending
  rw [schedules]
  refine ⟨by omega, fun due => ?_⟩
  rw [if_pos due] at count
  omega

theorem notDue_leased {row : OccurrenceRow} {leaseSeconds : Time} (claimed : row.state = .claimed)
    (lease : row.leaseExpiresAt = some (now + leaseSeconds)) (long : 1 ≤ leaseSeconds) :
    row.due now = false := by
  unfold OccurrenceRow.due
  rw [claimed, lease]
  simp only [Option.any_some, decide_eq_false (show ¬ now + leaseSeconds ≤ now by linarith)]
  rfl

theorem notDue_failed {row : OccurrenceRow} {attempts : Nat}
    (ended : row.state = if env.maxDeliveryAttempts ≤ attempts then .dead else .retryWait)
    (next : row.nextAttemptAt = if env.maxDeliveryAttempts ≤ attempts then none
      else some (now + env.retryBaseSeconds * 2 ^ (attempts - 1))) : row.due now = false := by
  unfold OccurrenceRow.due
  rw [ended, next]
  split
  · rfl
  · have positive : 0 < env.retryBaseSeconds * 2 ^ (attempts - 1) := by
      have base := env.base.1
      positivity
    simp only [Option.any_some, decide_eq_false (show
      ¬ now + env.retryBaseSeconds * 2 ^ (attempts - 1) ≤ now by linarith)]
    rfl

theorem pending_fire {record : ScheduleRow env.zones} {due : Time} {following : Option Time}
    {row : OccurrenceRow} {occurrences : Table OccurrenceRow.occurrenceId}
    (fires : Fires env t now record due following row occurrences)
    (advances : Advances record.spec.toScheduleSpecFields now) :
    ScheduleStore.pending ({ t with occurrences }.updateSchedule record.scheduleId
      (fun schedule =>
        { schedule with
          state := if following = none then .completed else .active, nextFireAt := following,
          lastFireAt := some due, fireCount := record.fireCount + 1,
          updatedAt := now })) now + 1 = t.pending now := by
  obtain ⟨found, isDue⟩ := nextSchedule_lookup fires.first
  have leased : row.due now = false := by
    obtain ⟨leaseSeconds, long, lease⟩ := fires.lease
    exact notDue_leased fires.claimed lease long
  have count : (t.schedules.update (fun schedule => schedule.scheduleId == record.scheduleId)
      (fun schedule =>
        { schedule with
          state := if following = none then .completed else .active, nextFireAt := following,
          lastFireAt := some due, fireCount := record.fireCount + 1,
          updatedAt := now }) (fun _ => rfl)).rows.countP (ScheduleRow.due now) +
        (if record.due now then 1 else 0) = t.schedules.rows.countP (ScheduleRow.due now) := by
    refine Table.countP_update (by intro _; rfl) (Table.lookup_mem found) ?_ ?_
    · intro other member
      rw [beq_iff_eq]
      exact ⟨Table.mem_unique member (Table.lookup_mem found), fun same => by rw [same]⟩
    · apply Bool.eq_false_iff.mpr
      intro still
      obtain ⟨-, time, next, reached⟩ := ScheduleRow.due_iff.mp still
      exact absurd (fires.ahead advances next) (not_lt.mpr reached)
  rw [if_pos isDue] at count
  have added : occurrences.rows.countP (OccurrenceRow.due now) =
      t.occurrences.rows.countP (OccurrenceRow.due now) := by
    rw [Table.insert_rows fires.inserted, List.countP_append, List.countP_singleton, leased]
    rfl
  unfold ScheduleStore.pending
  rw [← count, ← added, ← Nat.add_assoc]
  rfl

theorem pending_kept (polled : Polled env now s t) (steady : Steady s now)
    (polls : op.polls now) (taken : ScheduleTaken env t op t') :
    t'.pending now ≤ t.pending now ∧ (op.claims = true → t'.pending now ≤ t.pending now - 1) := by
  cases taken with
  | same nothing =>
    refine ⟨le_refl _, ?_⟩
    intro claims
    cases op with
    | claimDue =>
      cases polls
      have none := pending_eq_zero_iff.mpr nothing
      omega
    | create | pause | resume | markTaskCreated | markDeliveryFailed => cases claims
  | created | paused | resumed => exact polls.elim
  | buried first =>
    cases polls
    obtain ⟨found, due⟩ := nextOccurrence_lookup first
    exact (pending_updateOccurrence found rfl).imp_right (fun drops _ => drops due)
  | @reclaimed at' _ _ leaseSeconds existing first left leased =>
    cases polls
    obtain ⟨found, due⟩ := nextOccurrence_lookup first
    refine (pending_updateOccurrence found ?_).imp_right (fun drops _ => drops due)
    exact notDue_leased rfl rfl leased
  | fired fires =>
    cases polls
    obtain ⟨found, isDue⟩ := nextSchedule_lookup fires.first
    have known := polled.due _ (Table.lookup_mem found) isDue
    have drops := pending_fire fires (steady _ known isDue)
    exact ⟨by omega, fun _ => by omega⟩
  | delivered found => exact (pending_updateOccurrence found rfl).imp_right nofun
  | failed found =>
    cases polls
    refine (pending_updateOccurrence found ?_).imp_right nofun
    exact notDue_failed rfl rfl

end Pending

section Claims

variable {env : ScheduleEnv} {now : Time} {s t : ScheduleStore env.zones} {workerId : String}
  {leaseSeconds : Time}

theorem insertOccurrence_of_fresh {row : OccurrenceRow} (free : ∀ other ∈ t.occurrences.rows,
      ¬(other.scheduleId = row.scheduleId ∧ other.ordinal = row.ordinal))
    (fresh : ∀ other ∈ t.occurrences.rows, other.occurrenceId ≠ row.occurrenceId) :
    ∃ occurrences, t.insertOccurrence row = some occurrences := by
  have absent : t.occurrences.lookup row.occurrenceId = none := by
    apply Table.lookup_eq_none_iff.mpr
    intro listed
    obtain ⟨other, member, same⟩ := List.mem_map.mp listed
    exact fresh other member same
  obtain ⟨occurrences, inserted⟩ := Table.insert_of_lookup_none absent
  refine ⟨occurrences, ?_⟩
  unfold ScheduleStore.insertOccurrence
  rw [if_neg, inserted]
  rw [List.any_eq_true]
  rintro ⟨other, member, same⟩
  rw [Bool.and_eq_true, beq_iff_eq, beq_iff_eq] at same
  exact free other member same

theorem Polled.fresh (h : Polled env now s t) (recurring : Recurring env s now)
    {record : ScheduleRow env.zones} (present : record ∈ t.schedules.rows)
    (isDue : record.due now = true) :
    ∀ other ∈ t.occurrences.rows, other.occurrenceId ≠ record.nextId env := by
  have known := h.due record present isDue
  intro other member same
  rcases h.ids _ (List.mem_map_of_mem member) with old | ⟨row, listed, rowDue, gone, names⟩
  · obtain ⟨earlier, recorded, slot⟩ := List.mem_map.mp old
    have id : earlier.occurrenceId = other.occurrenceId := congrArg Slot.occurrenceId slot
    exact recurring.fresh record known isDue earlier recorded (id.trans same)
  · have one := recurring.apart record known isDue row listed rowDue (same.symm.trans names)
    exact gone (one ▸ present)

theorem claimSchedule_accepted (recurring : Recurring env s now) (polled : Polled env now s t)
    (numbered : Numbered t) {record : ScheduleRow env.zones}
    (first : nextSchedule env now t = some record) (worker : String) :
    ∃ result t', claimSchedule env now worker leaseSeconds record t = .ok (result, t') := by
  obtain ⟨found, isDue⟩ := nextSchedule_lookup first
  have present := Table.lookup_mem found
  obtain ⟨-, due, given, -⟩ := ScheduleRow.due_iff.mp isDue
  have recurs := recurring.recurs record (polled.due record present isDue) isDue
  rw [given, Option.getD_some] at recurs
  have started : 0 ≤ max now due :=
    (numbered.positive record present due given).trans (le_max_right now due)
  obtain ⟨following, later⟩ := (nextFireAt_ok_iff record.spec started).mpr recurs
  have free : ∀ other ∈ t.occurrences.rows,
      ¬(other.scheduleId = record.scheduleId ∧ other.ordinal = record.fireCount + 1) := by
    rintro other member ⟨scheduled, ordinal⟩
    obtain ⟨owner, listed, names, bound⟩ := numbered.owned other member
    obtain rfl := Table.mem_unique listed present (names.trans scheduled)
    omega
  obtain ⟨occurrences, inserted⟩ := @insertOccurrence_of_fresh env t
    { occurrenceId := record.nextId env, scheduleId := record.scheduleId,
      principalId := record.principalId, sessionHandle := record.sessionHandle,
      ordinal := record.fireCount + 1, scheduledFor := due, state := .claimed, attemptCount := 1,
      nextAttemptAt := none, leaseOwner := worker, leaseExpiresAt := some (now + leaseSeconds),
      taskId := "", failureCode := "", createdAt := now,
      updatedAt := now } free (polled.fresh recurring present isDue)
  have claimed := Table.lookup_insert (insertOccurrence_ok inserted).2 (record.nextId env)
  rw [if_pos rfl] at claimed
  exact ⟨_, _, bind_ok_iff.mpr ⟨due, Transaction.orRaise_ok_iff.mpr given, bind_ok_iff.mpr
    ⟨following, later, bind_ok_iff.mpr ⟨occurrences, Transaction.orRaise_ok_iff.mpr inserted,
      bind_ok_iff.mpr ⟨_, Transaction.orRaise_ok_iff.mpr claimed, rfl⟩⟩⟩⟩⟩

theorem claimDue_accepted (recurring : Recurring env s now) (polled : Polled env now s t)
    (numbered : Numbered t) (admits : Admits workerId leaseSeconds) :
    ∃ result t', claimDue env now workerId leaseSeconds t = .ok (result, t') := by
  unfold claimDue
  rw [identifier_ok_iff.mpr ⟨rfl, admits.1⟩, ok_bind, require_of admits.2, ok_bind]
  cases first : nextOccurrence env now t with
  | some existing =>
    obtain ⟨found, -⟩ := nextOccurrence_lookup first
    dsimp only
    split
    · exact ⟨_, _, rfl⟩
    · have read := fun (f : OccurrenceRow → OccurrenceRow)
          (keep : ∀ row, (f row).occurrenceId = row.occurrenceId) =>
        (Table.lookup_update t.occurrences (fun row => row.occurrenceId == existing.occurrenceId)
          f keep existing.occurrenceId).trans (congrArg (Option.map _) found)
      exact ⟨_, _, bind_ok_iff.mpr ⟨_, Transaction.orRaise_ok_iff.mpr (read _ (by intro _; rfl)), rfl⟩⟩
  | none =>
    cases second : nextSchedule env now t with
    | none => exact ⟨_, _, rfl⟩
    | some record => exact claimSchedule_accepted recurring polled numbered second _

end Claims

section Runs

variable {env : ScheduleEnv} {now : Time} {s t t' : ScheduleStore env.zones}
  {op : ScheduleOp env.zones}

theorem poll_kept (steady : Steady s now) (h : Polled env now s t ∧ Numbered t)
    (polls : op.polls now) (stepped : t.step env op = some t') : Polled env now s t' ∧ Numbered t' :=
  have taken := schedule_step_taken stepped
  ⟨h.1.kept steady h.2 polls taken, h.2.kept taken⟩

theorem final_polled (steady : Steady s now) (numbered : Numbered s) {ops : List (ScheduleOp env.zones)}
    (polls : ∀ op ∈ ops, op.polls now) : Polled env now s (final (ScheduleStore.step env) s ops) ∧
      Numbered (final (ScheduleStore.step env) s ops) := by
  have kept : ∀ t op t', Polled env now s t ∧ Numbered t → op.polls now →
      ScheduleStore.step env t op = some t' → Polled env now s t' ∧ Numbered t' :=
    fun _ _ _ => poll_kept steady
  exact final_safe_of_allowed kept ⟨Polled.refl env now s, numbered⟩ polls

theorem Polled.all_served (h : Polled env now s t) (settled : t.pending now = 0) :
    ∀ row ∈ s.schedules.rows, row.due now = true →
      row ∉ t.schedules.rows ∧ ∃ due, Served env now s t row due := by
  intro row member due
  have gone : row ∉ t.schedules.rows := by
    intro still
    have counted := (Nat.add_eq_zero_iff.mp settled).2
    exact List.countP_eq_zero.mp counted row still due
  exact ⟨gone, (h.served row member due).resolve_left gone⟩

theorem initial_numbered (zones : Zones) (sessions : Table SessionRow.sessionHandle) :
    Numbered (.initial zones sessions) where
  owned _ member := by cases member
  positive _ member := by cases member

theorem exists_enough (env : ScheduleEnv) (s : ScheduleStore env.zones) (now : Time) :
    ∃ ops : List (ScheduleOp env.zones), (∀ op ∈ ops, op.polls now) ∧
      s.pending now ≤ ops.countP ScheduleOp.claims := by
  have admits : Admits "worker" 60 := by decide +kernel
  have claims : (@ScheduleOp.claimDue env.zones now "worker" 60).claims = true :=
    decide_eq_true admits
  refine ⟨List.replicate (s.pending now) (.claimDue now "worker" 60), ?_, ?_⟩
  · intro op member
    rw [List.eq_of_mem_replicate member]
    rfl
  · rw [List.countP_replicate, if_pos claims]

theorem nextFireAt_stuck {spec : ScheduleSpecFields} (stuck : ¬Advances spec now)
    {following : Option Time} (found : nextFireAt env.zones spec now = .ok following) :
    ∃ time ≤ now, following = some time := by
  unfold Advances at stuck
  push Not at stuck
  obtain ⟨kind, runAt, anchor, interval, every, late, behind⟩ := stuck
  obtain ⟨_, started, -⟩ := of_bind found
  rw [require_ok_iff] at started
  rw [nextFireAt_interval kind anchor every started, if_neg (not_lt.mpr late)] at found
  cases found
  exact ⟨_, behind, rfl⟩

/-- A schedule that does not get ahead is due after every poll. -/
theorem stuck_kept {spec : ScheduleSpec env.zones}
    (stuck : ¬Advances spec.toScheduleSpecFields now)
    (h : ∃ row ∈ t.schedules.rows, row.spec = spec ∧ row.due now = true) (polls : op.polls now)
    (taken : ScheduleTaken env t op t') :
    ∃ row ∈ t'.schedules.rows, row.spec = spec ∧ row.due now = true := by
  cases taken with
  | same | buried | reclaimed | delivered | failed => exact h
  | created | paused | resumed => exact polls.elim
  | @fired _ _ _ record due following _ _ fires =>
    cases polls
    obtain ⟨row, present, rfl, isDue⟩ := h
    obtain ⟨found, -⟩ := nextSchedule_lookup fires.first
    refine ⟨_, List.mem_map_of_mem present, ?_⟩
    split
    · rename_i chosen
      obtain rfl := Table.mem_unique present (Table.lookup_mem found) (beq_iff_eq.mp chosen)
      have later := fires.later
      rw [max_eq_left fires.due_le] at later
      obtain ⟨time, reached, rfl⟩ := nextFireAt_stuck stuck later
      rw [if_neg (Option.some_ne_none time)]
      exact ⟨rfl, ScheduleRow.due_iff.mpr ⟨rfl, time, rfl, reached⟩⟩
    · exact ⟨rfl, isDue⟩

theorem Isolated.steady (h : Isolated env s now) : Steady s now := by
  intro row member isDue
  by_contra stuck
  obtain ⟨ops, polls, enough⟩ := exists_enough env s now
  have kept : ∀ t op t', (∃ other ∈ t.schedules.rows, other.spec = row.spec ∧
      other.due now = true) → op.polls now → ScheduleStore.step env t op = some t' →
        ∃ other ∈ t'.schedules.rows, other.spec = row.spec ∧ other.due now = true :=
    fun _ _ _ still polls stepped => stuck_kept stuck still polls (schedule_step_taken stepped)
  obtain ⟨other, listed, -, still⟩ := final_safe_of_allowed kept ⟨row, member, rfl, isDue⟩ polls
  have settled := (Nat.add_eq_zero_iff.mp (h.claimed ops polls enough).1).2
  exact List.countP_eq_zero.mp settled other listed still

theorem Isolated.recurring (h : Isolated env s now) (numbered : Numbered s) :
    Recurring env s now := by
  obtain ⟨ops, polls, enough⟩ := exists_enough env s now
  obtain ⟨polled, -⟩ := final_polled h.steady numbered polls
  have served := polled.all_served (h.claimed ops polls enough).1
  refine ⟨?_, h.steady, ?_, ?_⟩
  · intro row member due
    obtain ⟨-, time, known⟩ := served row member due
    rw [known.given]
    exact known.recurs
  · intro row member due occurrence listed
    obtain ⟨-, time, known⟩ := served row member due
    exact known.fresh _ (List.mem_map_of_mem listed)
  · intro row member due other member' due' same
    exact polled.apart row member due (served row member due).1 other member' due'
      (served other member' due').1 same

theorem claim_lowers (h : Recurring env s now) (along : Polled env now s t ∧ Numbered t)
    (polls : op.polls now) (claims : op.claims = true) :
    ∃ t', t.step env op = some t' ∧ t'.pending now ≤ t.pending now - 1 := by
  cases op with
  | claimDue at' workerId leaseSeconds =>
    cases polls
    obtain ⟨result, t', claimed⟩ := claimDue_accepted h along.1 along.2 (of_decide_eq_true claims)
    have stepped : t.step env (.claimDue now workerId leaseSeconds) = some t' := by
      unfold ScheduleStore.step ScheduleOp.call
      dsimp only
      rw [commit_ok_iff.mpr claimed]
      rfl
    have polled : (@ScheduleOp.claimDue env.zones now workerId leaseSeconds).polls now := rfl
    exact ⟨t', stepped,
      (pending_kept along.1 h.steady polled (schedule_step_taken stepped)).2 claims⟩
  | create | pause | resume | markTaskCreated | markDeliveryFailed => cases claims

theorem Recurring.isolated (h : Recurring env s now) (numbered : Numbered s) :
    Isolated env s now := by
  refine ⟨?_, ?_⟩
  · intro ops polls workerId leaseSeconds admits
    obtain ⟨polled, along⟩ := final_polled h.steady numbered polls
    obtain ⟨result, t', claimed⟩ := claimDue_accepted h polled along admits
    exact ⟨result, t', commit_ok_iff.mpr claimed⟩
  · intro ops polls enough
    obtain ⟨polled, -⟩ := final_polled h.steady numbered polls
    have kept : ∀ t op t', Polled env now s t ∧ Numbered t → op.polls now →
        ScheduleStore.step env t op = some t' →
          (Polled env now s t' ∧ Numbered t') ∧ t'.pending now ≤ t.pending now :=
      fun _ _ _ along polls stepped =>
        ⟨poll_kept h.steady along polls stepped,
          (pending_kept along.1 h.steady polls (schedule_step_taken stepped)).1⟩
    have lowers : ∀ t op, Polled env now s t ∧ Numbered t → op.polls now → op.claims = true →
        ∃ t', ScheduleStore.step env t op = some t' ∧ t'.pending now ≤ t.pending now - 1 :=
      fun _ _ => claim_lowers h
    have down := variant_final_le ScheduleOp.claims kept lowers
      ⟨Polled.refl env now s, numbered⟩ polls
    have settled : (final (ScheduleStore.step env) s ops).pending now = 0 := by omega
    refine ⟨settled, ?_⟩
    intro row member due
    obtain ⟨-, time, served⟩ := polled.all_served settled row member due
    obtain ⟨occurrence, listed, slot⟩ := List.mem_map.mp served.slot
    have scheduledFor : occurrence.scheduledFor = time := congrArg Slot.scheduledFor slot
    refine ⟨occurrence, listed, congrArg Slot.scheduleId slot, congrArg Slot.ordinal slot, ?_⟩
    rw [scheduledFor]
    exact served.given

end Runs

theorem scheduler_isolated (env : ScheduleEnv) (sessions : Table SessionRow.sessionHandle)
    (ops : List (ScheduleOp env.zones)) (now : Time) :
    let s := final (ScheduleStore.step env) (.initial env.zones sessions) ops
    Isolated env s now ↔ Recurring env s now := by
  have kept : ∀ s op s', Numbered s → ScheduleStore.step env s op = some s' → Numbered s' :=
    fun _ _ _ h stepped => h.kept (schedule_step_taken stepped)
  have numbered := Transition.final_invariant kept (initial_numbered env.zones sessions) ops
  exact ⟨fun h => h.recurring numbered, fun h => h.isolated numbered⟩

/-- At midnight on 29 February. -/
def sampleLeapDay : ScheduleSpec sampleZones where
  kind := .cron
  cronExpression := "0 0 29 2 *"
  timezone := "UTC"
  inRange := ⟨by simp, by simp, by decide, by decide⟩
  valid := by decide

/-- 29 February 2028, 00:00 UTC. -/
def leapDay : Time := 1835395200

/-- A schedule of the leap day, and one of every minute, both due at midnight. -/
def sampleLeaping : List (ScheduleOp sampleZones) :=
  [sampleSchedule (leapDay - 60) "a" sampleLeapDay,
    sampleSchedule (leapDay - 60) "b" sampleInterval]

theorem leapDay_alone : ∀ i < 366, civilDate (21244 + i) ≠ (2, 29) := by decide +kernel

theorem leapDay_not_recurs : ¬ Recurs sampleZones sampleLeapDay.toScheduleSpecFields leapDay := by
  intro recurs
  obtain ⟨fields, zone, minute, parsed, known, read, k, bound, -, clock, local', matched⟩ :=
    recurs rfl
  have parsed' : parseCron "0 0 29 2 *" = .ok
      { minute := ⟨[0], false⟩, hour := ⟨[0], false⟩, day := ⟨[29], false⟩, month := ⟨[2], false⟩,
        weekday := ⟨[0, 1, 2, 3, 4, 5, 6], true⟩ } := by decide +kernel
  have read' : utcMinute leapDay = .ok 30589920 := by decide +kernel
  have known' : sampleZones "UTC" = some utc := rfl
  obtain rfl := Except.ok.inj (parsed.symm.trans parsed')
  obtain rfl := Except.ok.inj (read.symm.trans read')
  obtain rfl := Option.some.inj (known.symm.trans known')
  obtain rfl := Option.some.inj local'
  unfold searchedMinutes at bound
  have midnight : (30589921 + k) % 60 = 0 ∧ (30589921 + k) / 60 % 24 = 0 ∧
      (civilDate ((30589921 + k) / 1440)).1 = 2 ∧ (civilDate ((30589921 + k) / 1440)).2 = 29 := by
    simp [cronMatches] at matched
    omega
  obtain ⟨minute, hour, month, day⟩ := midnight
  -- The search starts after the midnight of the leap day, so it is on a later day.
  have later : (30589921 + k) / 1440 = 21244 + ((30589921 + k) / 1440 - 21244) := by omega
  have within : (30589921 + k) / 1440 - 21244 < 366 := by omega
  apply leapDay_alone _ within
  rw [← later]
  exact Prod.ext month day

theorem leap_day_blocks : ¬ Isolated sampleScheduleEnv
      (final (ScheduleStore.step sampleScheduleEnv) sampleSchedules sampleLeaping) leapDay := by
  intro isolated
  have kept : ∀ s op s', Numbered s → ScheduleStore.step sampleScheduleEnv s op = some s' →
      Numbered s' := fun _ _ _ h stepped => h.kept (schedule_step_taken stepped)
  have numbered : Numbered (final (ScheduleStore.step sampleScheduleEnv) sampleSchedules
      sampleLeaping) :=
    Transition.final_invariant kept (initial_numbered sampleZones sampleSchedules.sessions)
      sampleLeaping
  have due : ∃ row ∈ (final (ScheduleStore.step sampleScheduleEnv) sampleSchedules
      sampleLeaping).schedules.rows, row.due leapDay = true ∧
        row.nextFireAt.getD 0 = leapDay ∧
          row.spec.toScheduleSpecFields = sampleLeapDay.toScheduleSpecFields := by decide +kernel
  obtain ⟨row, member, isDue, next, spec⟩ := due
  have recurs := (isolated.recurring numbered).recurs row member isDue
  rw [next, spec, max_self] at recurs
  exact leapDay_not_recurs recurs

end Knoa.Automation
