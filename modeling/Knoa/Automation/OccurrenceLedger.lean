import Knoa.Automation.ScheduleSteps
import Knoa.Library.Transition

/-!
# The ledger of the occurrences

What the rows of a schedule and those of its occurrences say of each other, in every
run along a clock that does not go back.
-/
namespace Knoa.Automation
open Knoa.Tasks Relational Transition

def OccurrenceState.isTerminal : OccurrenceState → Bool
  | .taskCreated | .dead => true
  | _ => false

def ScheduleStore.entriesOf {zones : Zones} (s : ScheduleStore zones) (scheduleId : String) :
    List (Nat × Time) :=
  (s.occurrencesOf scheduleId).map (fun row => (row.ordinal, row.scheduledFor))

structure LedgerOf {zones : Zones} (row : ScheduleRow zones) (entries : List (Nat × Time)) :
    Prop where
  ordinals : entries.map Prod.fst = List.range' 1 row.fireCount
  next : row.nextFireAt ≠ none ↔ row.state ≠ .completed

/-- The occurrences of a schedule in the order of their times, the next one behind them. -/
structure InOrder {zones : Zones} (row : ScheduleRow zones) (entries : List (Nat × Time)) :
    Prop where
  increasing : (entries.map Prod.snd).Pairwise (· < ·)
  later : ∀ entry ∈ entries, ∀ due ∈ row.nextFireAt, entry.2 < due

structure Ledger (env : ScheduleEnv) (s : ScheduleStore env.zones) : Prop where
  schedules : ∀ row ∈ s.schedules.rows, LedgerOf row (s.entriesOf row.scheduleId)
  owned : ∀ occurrence ∈ s.occurrences.rows, ∃ row ∈ s.schedules.rows,
    row.scheduleId = occurrence.scheduleId
  attempts : ∀ occurrence ∈ s.occurrences.rows, occurrence.attemptCount ≤ env.maxDeliveryAttempts

/-- The ledger with what its induction needs: no occurrence is ahead of the clock, and
one that waits has an attempt left. -/
structure Clocked (env : ScheduleEnv) (s : ScheduleStore env.zones) (clock : Time) : Prop where
  ledger : Ledger env s
  past : ∀ occurrence ∈ s.occurrences.rows, occurrence.scheduledFor ≤ clock
  retries : ∀ occurrence ∈ s.occurrences.rows, occurrence.state = .retryWait →
    occurrence.attemptCount < env.maxDeliveryAttempts

def Ordered {zones : Zones} (s : ScheduleStore zones) : Prop :=
  ∀ row ∈ s.schedules.rows, InOrder row (s.entriesOf row.scheduleId)

/-- What a call computes for an interval schedule that it claims or resumes is ahead of the clock. -/
def Advancing {env : ScheduleEnv} (s : ScheduleStore env.zones) : ScheduleOp env.zones → Prop
  | .claimDue now _ _ => ∀ row ∈ nextSchedule env now s, Advances row.spec.toScheduleSpecFields now
  | .resume now _ scheduleId => ∀ row ∈ s.schedules.lookup (strip scheduleId),
      Advances row.spec.toScheduleSpecFields now
  | _ => True

instance {env : ScheduleEnv} (s : ScheduleStore env.zones) (op : ScheduleOp env.zones) :
    Decidable (Advancing s op) := by
  unfold Advancing
  split <;> infer_instance

section Writes

variable {env : ScheduleEnv} {s : ScheduleStore env.zones} {clock now : Time}

variable {scheduleId : String}

theorem entriesOf_past (h : Clocked env s clock) :
    ∀ entry ∈ s.entriesOf scheduleId, entry.2 ≤ clock := by
  intro entry member
  obtain ⟨occurrence, listed, rfl⟩ := List.mem_map.mp member
  exact h.past occurrence (Table.mem_owned.mp listed).1

theorem Clocked.mono (h : Clocked env s clock) (bound : clock ≤ now) : Clocked env s now :=
  { h with
    past := fun occurrence member => (h.past occurrence member).trans bound }

theorem entriesOf_updateOccurrence {occurrenceId : String} {f : OccurrenceRow → OccurrenceRow}
    {keep : ∀ row, (f row).occurrenceId = row.occurrenceId}
    (same : ∀ row, (f row).scheduleId = row.scheduleId)
    (fixed : ∀ row, (f row).ordinal = row.ordinal ∧ (f row).scheduledFor = row.scheduledFor) :
    (s.updateOccurrence occurrenceId f keep).entriesOf scheduleId = s.entriesOf scheduleId := by
  have owned : (s.updateOccurrence occurrenceId f keep).occurrencesOf scheduleId =
      (s.occurrencesOf scheduleId).map (fun row => if row.occurrenceId == occurrenceId then f row
        else row) := by
    change (s.occurrences.update _ f keep).owned _ _ = _
    exact Table.owned_update same scheduleId
  unfold ScheduleStore.entriesOf
  rw [owned, List.map_map]
  apply List.map_congr_left
  intro row _
  dsimp only [Function.comp]
  split
  · rw [(fixed row).1, (fixed row).2]
  · rfl

theorem Clocked.updateOccurrence (h : Clocked env s clock) {occurrenceId : String}
    {f : OccurrenceRow → OccurrenceRow} {keep : ∀ row, (f row).occurrenceId = row.occurrenceId}
    {existing : OccurrenceRow} (found : s.occurrences.lookup occurrenceId = some existing)
    (same : ∀ row, (f row).scheduleId = row.scheduleId)
    (fixed : ∀ row, (f row).ordinal = row.ordinal ∧ (f row).scheduledFor = row.scheduledFor)
    (attempts : (f existing).attemptCount ≤ env.maxDeliveryAttempts)
    (retries : (f existing).state = .retryWait →
      (f existing).attemptCount < env.maxDeliveryAttempts) :
    Clocked env (s.updateOccurrence occurrenceId f keep) clock := by
  have rows : ∀ row ∈ (s.updateOccurrence occurrenceId f keep).occurrences.rows,
      row ∈ s.occurrences.rows ∨ row = f existing := by
    intro row member
    obtain ⟨old, present, rfl⟩ := List.mem_map.mp member
    split
    · rename_i selected
      obtain rfl : old = existing := Table.mem_unique present (Table.lookup_mem found)
        ((beq_iff_eq.mp selected).trans (Table.lookup_key found).symm)
      exact Or.inr rfl
    · exact Or.inl present
  have member := Table.lookup_mem found
  refine ⟨⟨?_, ?_, ?_⟩, ?_, ?_⟩
  · intro row present
    rw [entriesOf_updateOccurrence same fixed]
    exact h.ledger.schedules row present
  · intro row present
    rcases rows row present with old | rfl
    · exact h.ledger.owned row old
    · rw [same]
      exact h.ledger.owned existing member
  · intro row present
    rcases rows row present with old | rfl
    · exact h.ledger.attempts row old
    · exact attempts
  · intro row present
    rcases rows row present with old | rfl
    · exact h.past row old
    · rw [(fixed existing).2]
      exact h.past existing member
  · intro row present waits
    rcases rows row present with old | rfl
    · exact h.retries row old waits
    · exact retries waits

theorem Clocked.updateSchedule (h : Clocked env s clock)
    {f : ScheduleRow env.zones → ScheduleRow env.zones}
    {keep : ∀ row, (f row).scheduleId = row.scheduleId} {current : ScheduleRow env.zones}
    (found : s.schedules.lookup scheduleId = some current)
    (ledger : LedgerOf (f current) (s.entriesOf scheduleId)) :
    Clocked env (s.updateSchedule scheduleId f keep) clock := by
  refine ⟨⟨?_, ?_, h.ledger.attempts⟩, h.past, h.retries⟩
  · intro row member
    obtain ⟨old, present, rfl⟩ := List.mem_map.mp member
    split
    · rename_i selected
      obtain rfl : old = current := Table.mem_unique present (Table.lookup_mem found)
        ((beq_iff_eq.mp selected).trans (Table.lookup_key found).symm)
      rw [keep, beq_iff_eq.mp selected]
      exact ledger
    · exact h.ledger.schedules old present
  · intro occurrence member
    obtain ⟨row, present, names⟩ := h.ledger.owned occurrence member
    refine ⟨_, List.mem_map_of_mem present, ?_⟩
    split
    · exact (keep row).trans names
    · exact names

theorem nextOccurrence_lookup {existing : OccurrenceRow}
    (first : nextOccurrence env now s = some existing) :
    s.occurrences.lookup existing.occurrenceId = some existing ∧ existing.due now = true := by
  have listed := List.mem_of_head? first
  rw [List.mem_insertionSort, List.mem_filter] at listed
  exact ⟨Table.lookup_of_mem listed.1, listed.2⟩

variable {record : ScheduleRow env.zones}

theorem nextSchedule_lookup (first : nextSchedule env now s = some record) :
    s.schedules.lookup record.scheduleId = some record ∧ record.due now = true := by
  have listed := List.mem_of_head? first
  rw [List.mem_insertionSort, List.mem_filter] at listed
  exact ⟨Table.lookup_of_mem listed.1, listed.2⟩

theorem ScheduleRow.due_iff :
    record.due now = true ↔ record.state = .active ∧ ∃ due, record.nextFireAt = some due ∧
      due ≤ now := by
  unfold ScheduleRow.due
  rw [Bool.and_eq_true, beq_iff_eq, Option.any_eq_true]
  simp only [decide_eq_true_eq]

section Firing

variable {due : Time} {following : Option Time} {row : OccurrenceRow}
  {occurrences : Table OccurrenceRow.occurrenceId}

theorem Fires.due_le (fires : Fires env s now record due following row occurrences) :
    due ≤ now := by
  obtain ⟨-, due', given, reached⟩ := ScheduleRow.due_iff.mp (nextSchedule_lookup fires.first).2
  rw [fires.fires] at given
  cases given
  exact reached

theorem Fires.entriesOf (fires : Fires env s now record due following row occurrences) :
    ({ s with occurrences } : ScheduleStore env.zones).entriesOf record.scheduleId =
      s.entriesOf record.scheduleId ++ [(record.fireCount + 1, due)] := by
  have owned : occurrences.owned OccurrenceRow.scheduleId row.scheduleId =
      s.occurrences.owned OccurrenceRow.scheduleId row.scheduleId ++ [row] :=
    Table.owned_of_append (Table.insert_rows fires.inserted)
  rw [fires.schedule] at owned
  unfold ScheduleStore.entriesOf ScheduleStore.occurrencesOf
  rw [owned, List.map_append, List.map_singleton, fires.ordinal, fires.scheduledFor]

theorem Fires.entriesOf_other (fires : Fires env s now record due following row occurrences)
    (apart : scheduleId ≠ record.scheduleId) :
    ({ s with occurrences } : ScheduleStore env.zones).entriesOf scheduleId =
      s.entriesOf scheduleId := by
  rw [← fires.schedule] at apart
  unfold ScheduleStore.entriesOf ScheduleStore.occurrencesOf
  rw [Table.owned_of_append_other (Table.insert_rows fires.inserted) apart]

theorem Ordered.updateSchedule (h : Ordered s) {f : ScheduleRow env.zones → ScheduleRow env.zones}
    {keep : ∀ row, (f row).scheduleId = row.scheduleId} {current : ScheduleRow env.zones}
    (found : s.schedules.lookup scheduleId = some current)
    (ordered : InOrder (f current) (s.entriesOf scheduleId)) :
    Ordered (s.updateSchedule scheduleId f keep) := by
  intro row member
  obtain ⟨old, present, rfl⟩ := List.mem_map.mp member
  split
  · rename_i selected
    obtain rfl : old = current := Table.mem_unique present (Table.lookup_mem found)
      ((beq_iff_eq.mp selected).trans (Table.lookup_key found).symm)
    rw [keep, beq_iff_eq.mp selected]
    exact ordered
  · exact h old present

theorem Ordered.fire (h : Ordered s)
    (fires : Fires env s now record due following row occurrences)
    (advances : Advances record.spec.toScheduleSpecFields now) :
    Ordered ({ s with occurrences }.updateSchedule record.scheduleId
      (fun schedule =>
        { schedule with
          state := if following = none then .completed else .active
          nextFireAt := following
          lastFireAt := some due
          fireCount := record.fireCount + 1
          updatedAt := now })) := by
  obtain ⟨found, -⟩ := nextSchedule_lookup fires.first
  have reached := fires.due_le
  have before := h record (Table.lookup_mem found)
  intro schedule member
  change InOrder schedule (({ s with occurrences } :
    ScheduleStore env.zones).entriesOf schedule.scheduleId)
  obtain ⟨old, present, rfl⟩ := List.mem_map.mp member
  split
  · rename_i selected
    obtain rfl : old = record := Table.mem_unique present (Table.lookup_mem found)
      (beq_iff_eq.mp selected)
    rw [fires.entriesOf]
    constructor
    · rw [List.map_append, List.pairwise_append]
      refine ⟨before.increasing, List.pairwise_singleton _ _, ?_⟩
      intro earlier listed last single
      obtain ⟨entry, known, rfl⟩ := List.mem_map.mp listed
      rw [List.mem_singleton.mp single]
      exact before.later entry known due fires.fires
    · intro entry listed next given
      have later := fires.later
      rw [max_eq_left reached] at later
      have ahead : now < next := nextFireAt_after advances (later.trans (congrArg Except.ok given))
      rcases List.mem_concat.mp listed with earlier | last
      · exact (before.later entry earlier due fires.fires).trans (reached.trans_lt ahead)
      · rw [last]
        exact reached.trans_lt ahead
  · rename_i apart
    rw [fires.entriesOf_other (by simpa using apart)]
    exact h old present

theorem Clocked.fire (h : Clocked env s now)
    (fires : Fires env s now record due following row occurrences) :
    Clocked env ({ s with occurrences }.updateSchedule record.scheduleId
      (fun schedule =>
        { schedule with
          state := if following = none then .completed else .active
          nextFireAt := following
          lastFireAt := some due
          fireCount := record.fireCount + 1
          updatedAt := now })) now := by
  obtain ⟨found, -⟩ := nextSchedule_lookup fires.first
  have rows := Table.insert_rows fires.inserted
  have before := h.ledger.schedules record (Table.lookup_mem found)
  refine ⟨⟨?_, ?_, ?_⟩, ?_, ?_⟩
  · intro schedule member
    change LedgerOf schedule (({ s with occurrences } :
      ScheduleStore env.zones).entriesOf schedule.scheduleId)
    obtain ⟨old, present, rfl⟩ := List.mem_map.mp member
    split
    · rename_i selected
      obtain rfl : old = record := Table.mem_unique present (Table.lookup_mem found)
        (beq_iff_eq.mp selected)
      rw [fires.entriesOf]
      constructor
      · rw [List.map_append, before.ordinals, List.range'_1_concat, Nat.add_comm 1]
        rfl
      · by_cases ended : following = none <;> simp [ended]
    · rename_i apart
      rw [fires.entriesOf_other (by simpa using apart)]
      exact h.ledger.schedules old present
  · intro occurrence member
    have known : ∃ schedule ∈ s.schedules.rows, schedule.scheduleId = occurrence.scheduleId := by
      change occurrence ∈ occurrences.rows at member
      rw [rows] at member
      rcases List.mem_concat.mp member with old | new
      · exact h.ledger.owned occurrence old
      · rw [new]
        exact ⟨record, Table.lookup_mem found, fires.schedule.symm⟩
    obtain ⟨schedule, present, names⟩ := known
    refine ⟨_, List.mem_map_of_mem present, ?_⟩
    split <;> exact names
  · intro occurrence member
    change occurrence ∈ occurrences.rows at member
    rw [rows] at member
    rcases List.mem_concat.mp member with old | new
    · exact h.ledger.attempts occurrence old
    · rw [new, fires.attempt]
      exact env.attempts.1
  · intro occurrence member
    change occurrence ∈ occurrences.rows at member
    rw [rows] at member
    rcases List.mem_concat.mp member with old | new
    · exact h.past occurrence old
    · rw [new, fires.scheduledFor]
      exact fires.due_le
  · intro occurrence member waits
    change occurrence ∈ occurrences.rows at member
    rw [rows] at member
    rcases List.mem_concat.mp member with old | new
    · exact h.retries occurrence old waits
    · rw [new, fires.claimed] at waits
      cases waits

end Firing

theorem entriesOf_fresh (h : Clocked env s now) {row : ScheduleRow env.zones}
    {schedules : Table (@ScheduleRow.scheduleId env.zones)}
    (inserted : s.schedules.insert row = some schedules) : s.entriesOf row.scheduleId = [] := by
  rw [ScheduleStore.entriesOf, List.map_eq_nil_iff]
  apply List.eq_nil_iff_forall_not_mem.mpr
  intro occurrence listed
  obtain ⟨present, names⟩ := Table.mem_owned.mp listed
  obtain ⟨other, known, same⟩ := h.ledger.owned occurrence present
  apply Table.insert_fresh inserted
  rw [← names, ← same]
  exact List.mem_map_of_mem known

theorem Clocked.create (h : Clocked env s now) {row : ScheduleRow env.zones} {due : Time}
    {schedules : Table (@ScheduleRow.scheduleId env.zones)} (active : row.state = .active)
    (unfired : row.fireCount = 0) (next : row.nextFireAt = some due)
    (inserted : s.schedules.insert row = some schedules) :
    Clocked env { s with schedules } now := by
  have rows := Table.insert_rows inserted
  refine ⟨⟨?_, ?_, h.ledger.attempts⟩, h.past, h.retries⟩
  · intro schedule member
    change LedgerOf schedule (s.entriesOf schedule.scheduleId)
    rw [rows] at member
    rcases List.mem_concat.mp member with old | new
    · exact h.ledger.schedules schedule old
    · rw [new]
      rw [entriesOf_fresh h inserted]
      constructor
      · rw [unfired]
        rfl
      · simp [next, active]
  · intro occurrence member
    obtain ⟨schedule, known, same⟩ := h.ledger.owned occurrence member
    refine ⟨schedule, ?_, same⟩
    rw [rows]
    exact List.mem_append_left _ known

end Writes

section Steps

variable {env : ScheduleEnv} {s s' : ScheduleStore env.zones} {op : ScheduleOp env.zones}

theorem Clocked.kept (h : Clocked env s op.now) (taken : ScheduleTaken env s op s') :
    Clocked env s' op.now := by
  cases taken with
  | same => exact h
  | created active unfired next found inserted => exact h.create active unfired next inserted
  | paused found active =>
    have before := h.ledger.schedules _ (Table.lookup_mem found)
    rw [Table.lookup_key found] at before
    refine h.updateSchedule found ⟨before.ordinals, ?_⟩
    have given := before.next.mpr (by rw [active]; decide)
    exact ⟨fun _ => by simp, fun _ => given⟩
  | @resumed _ _ _ _ current _ found paused next =>
    have before := h.ledger.schedules _ (Table.lookup_mem found)
    rw [Table.lookup_key found] at before
    refine h.updateSchedule found ⟨before.ordinals, ?_⟩
    split
    · rename_i ended
      simp [ended]
    · rename_i given
      simp [given]
  | @buried _ _ _ existing first claimed exhausted =>
    obtain ⟨found, -⟩ := nextOccurrence_lookup first
    exact h.updateOccurrence found (fun _ => rfl) (fun _ => ⟨rfl, rfl⟩)
      (h.ledger.attempts existing (Table.lookup_mem found)) nofun
  | @reclaimed _ _ _ _ existing first left leased =>
    obtain ⟨found, due⟩ := nextOccurrence_lookup first
    have member := Table.lookup_mem found
    refine h.updateOccurrence found (fun _ => rfl) (fun _ => ⟨rfl, rfl⟩) ?_ nofun
    unfold OccurrenceRow.due at due
    rw [Bool.or_eq_true, Bool.and_eq_true, Bool.and_eq_true, beq_iff_eq, beq_iff_eq] at due
    rcases due with ⟨waits, -⟩ | ⟨claimed, -⟩
    · exact h.retries existing member waits
    · exact Nat.lt_of_not_le (fun exhausted => left ⟨claimed, exhausted⟩)
  | fired fires => exact h.fire fires
  | @delivered _ _ _ _ _ current found claimed =>
    exact h.updateOccurrence found (fun _ => rfl) (fun _ => ⟨rfl, rfl⟩)
      (h.ledger.attempts current (Table.lookup_mem found)) nofun
  | @failed _ _ _ _ _ current found claimed =>
    refine h.updateOccurrence found (fun _ => rfl) (fun _ => ⟨rfl, rfl⟩)
      (h.ledger.attempts current (Table.lookup_mem found)) ?_
    intro waits
    split at waits
    · cases waits
    · rename_i left
      exact Nat.lt_of_not_le left

theorem Ordered.of_entries (h : Ordered s) (schedules : s'.schedules = s.schedules)
    (entries : ∀ scheduleId, s'.entriesOf scheduleId = s.entriesOf scheduleId) : Ordered s' := by
  intro row member
  rw [entries]
  exact h row (schedules ▸ member)

theorem Ordered.kept (h : Ordered s) (clocked : Clocked env s op.now)
    (taken : ScheduleTaken env s op s') (advancing : Advancing s op) : Ordered s' := by
  cases taken with
  | same => exact h
  | @created _ _ _ added _ schedules _ _ _ _ inserted =>
    intro row member
    change InOrder row (s.entriesOf row.scheduleId)
    rw [Table.insert_rows inserted] at member
    rcases List.mem_concat.mp member with old | rfl
    · exact h row old
    · rw [entriesOf_fresh clocked inserted]
      exact ⟨List.Pairwise.nil, nofun⟩
  | paused found active =>
    have before := h _ (Table.lookup_mem found)
    rw [Table.lookup_key found] at before
    exact h.updateSchedule found ⟨before.increasing, before.later⟩
  | resumed found paused next named =>
    have before := h _ (Table.lookup_mem found)
    rw [Table.lookup_key found] at before
    refine h.updateSchedule found ⟨before.increasing, ?_⟩
    intro entry listed due given
    refine lt_of_le_of_lt (entriesOf_past clocked entry listed) ?_
    exact nextFireAt_after (advancing _ (named ▸ found)) (next.trans (congrArg Except.ok given))
  | buried | reclaimed | delivered | failed =>
    exact h.of_entries rfl fun _ =>
      entriesOf_updateOccurrence (fun _ => rfl) (fun _ => ⟨rfl, rfl⟩)
  | fired fires => exact h.fire fires (advancing _ fires.first)

theorem initial_clocked (env : ScheduleEnv) (sessions : Table SessionRow.sessionHandle)
    (clock : Time) : Clocked env (.initial env.zones sessions) clock where
  ledger :=
    { schedules := fun _ member => by cases member
      owned := fun _ member => by cases member
      attempts := fun _ member => by cases member }
  past _ member := by cases member
  retries _ member := by cases member

theorem ScheduleTaken.terminal (taken : ScheduleTaken env s op s') {occurrence : OccurrenceRow}
    (member : occurrence ∈ s.occurrences.rows) (ended : occurrence.state.isTerminal = true) :
    occurrence ∈ s'.occurrences.rows := by
  have other : ∀ {existing : OccurrenceRow} {occurrenceId : String}
      {f : OccurrenceRow → OccurrenceRow} {keep : ∀ row, (f row).occurrenceId = row.occurrenceId},
      s.occurrences.lookup occurrenceId = some existing → existing.state.isTerminal ≠ true →
        occurrence ∈ (s.updateOccurrence occurrenceId f keep).occurrences.rows := by
    intro existing occurrenceId f keep found moves
    apply List.mem_map.mpr
    refine ⟨occurrence, member, ?_⟩
    split
    · rename_i selected
      obtain rfl : occurrence = existing := Table.mem_unique member (Table.lookup_mem found)
        ((beq_iff_eq.mp selected).trans (Table.lookup_key found).symm)
      exact absurd ended moves
    · rfl
  cases taken with
  | same | created | paused | resumed => exact member
  | buried first claimed => exact other (nextOccurrence_lookup first).1 (by rw [claimed]; decide)
  | reclaimed first =>
    obtain ⟨found, due⟩ := nextOccurrence_lookup first
    refine other found ?_
    intro terminal
    unfold OccurrenceRow.due at due
    rw [Bool.or_eq_true, Bool.and_eq_true, Bool.and_eq_true, beq_iff_eq, beq_iff_eq] at due
    rcases due with ⟨waits, -⟩ | ⟨claimed, -⟩
    · rw [waits] at terminal
      cases terminal
    · rw [claimed] at terminal
      cases terminal
  | @fired _ _ _ _ _ _ _ occurrences fires =>
    change occurrence ∈ occurrences.rows
    rw [Table.insert_rows fires.inserted]
    exact List.mem_append_left _ member
  | delivered found claimed | failed found claimed => exact other found (by rw [claimed]; decide)

theorem ScheduleTaken.completed (taken : ScheduleTaken env s op s') {row : ScheduleRow env.zones}
    (member : row ∈ s.schedules.rows) (ended : row.state = .completed) :
    row ∈ s'.schedules.rows := by
  have other : ∀ {current : ScheduleRow env.zones} {scheduleId : String}
      {f : ScheduleRow env.zones → ScheduleRow env.zones},
      s.schedules.lookup scheduleId = some current → current.state ≠ .completed →
        row ∈ s.schedules.rows.map (fun row => if row.scheduleId == scheduleId then f row
          else row) := by
    intro current scheduleId f found moves
    apply List.mem_map.mpr
    refine ⟨row, member, ?_⟩
    split
    · rename_i selected
      obtain rfl : row = current := Table.mem_unique member (Table.lookup_mem found)
        ((beq_iff_eq.mp selected).trans (Table.lookup_key found).symm)
      exact absurd ended moves
    · rfl
  cases taken with
  | same | buried | reclaimed | delivered | failed => exact member
  | @created _ _ _ _ _ schedules _ _ _ _ inserted =>
    rw [Table.insert_rows inserted]
    exact List.mem_append_left _ member
  | paused found active => exact other found (by rw [active]; decide)
  | resumed found paused => exact other found (by rw [paused]; decide)
  | fired fires =>
    obtain ⟨found, due⟩ := nextSchedule_lookup fires.first
    exact other found (by rw [(ScheduleRow.due_iff.mp due).1]; decide)

end Steps

section Runs

variable (env : ScheduleEnv) (sessions : Table SessionRow.sessionHandle)
  {ops : List (ScheduleOp env.zones)}

theorem first_le (ordered : (ops.map ScheduleOp.now).Pairwise (· ≤ ·)) :
    ∀ op ∈ ops, (ops.map ScheduleOp.now).headD 0 ≤ op.now := by
  intro op member
  cases ops with
  | nil => cases member
  | cons first rest =>
    rcases List.mem_cons.mp member with rfl | later
    · exact le_refl _
    · exact (List.pairwise_cons.mp ordered).1 _ (List.mem_map_of_mem later)

theorem run_ledger (ordered : (ops.map ScheduleOp.now).Pairwise (· ≤ ·)) :
    Ledger env (final (ScheduleStore.step env) (.initial env.zones sessions) ops) := by
  have kept : ∀ s op s', Clocked env s op.now → True → ScheduleStore.step env s op = some s' →
      Clocked env s' op.now := fun _ _ _ h _ stepped => h.kept (schedule_step_taken stepped)
  obtain ⟨clock, clocked⟩ := trace_along ScheduleOp.now (fun _ _ _ h => h.mono) kept
    (initial_clocked env sessions _) (first_le env ordered) ordered (fun _ _ => trivial) _
    (Transition.mem_trace_final _ ops)
  exact clocked.ledger

theorem run_ordered (ordered : (ops.map ScheduleOp.now).Pairwise (· ≤ ·))
    (advancing : ∀ taken ∈ accepted (ScheduleStore.step env) (.initial env.zones sessions) ops,
      Advancing taken.1 taken.2) :
    Ordered (final (ScheduleStore.step env) (.initial env.zones sessions) ops) := by
  have kept : ∀ s op s', Clocked env s op.now ∧ Ordered s → Advancing s op →
      ScheduleStore.step env s op = some s' → Clocked env s' op.now ∧ Ordered s' := by
    intro s op s' h here stepped
    have taken := schedule_step_taken stepped
    exact ⟨h.1.kept taken, h.2.kept h.1 taken here⟩
  have later : ∀ s clock now, Clocked env s clock ∧ Ordered s → clock ≤ now →
      Clocked env s now ∧ Ordered s := fun _ _ _ h bound => ⟨h.1.mono bound, h.2⟩
  have empty : Ordered (ScheduleStore.initial env.zones sessions) := by
    intro row member
    cases member
  obtain ⟨clock, -, inOrder⟩ := trace_along ScheduleOp.now later kept
    ⟨initial_clocked env sessions _, empty⟩ (first_le env ordered) ordered advancing _
    (Transition.mem_trace_final _ ops)
  exact inOrder

end Runs

/-- A minute's schedule fires, its Task is created, and it is paused. -/
def sampleFired : List (ScheduleOp sampleZones) :=
  [sampleSchedule 0 "i" sampleInterval, .claimDue 60 "w" 60]

def samplePaused : List (ScheduleOp sampleZones) :=
  [.markTaskCreated 60 (occurrenceId sampleScheduleEnv "i" 1) "t", .pause 60 "p" "i"]

def sampleResumed : List (ScheduleOp sampleZones) :=
  sampleFired ++ samplePaused ++ [.resume 130 "p" "i", .claimDue 200 "w" 60]

end Knoa.Automation
