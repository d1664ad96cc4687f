import Knoa.Automation.TriggerSteps
import Knoa.Library.Transition

/-!
# The inbox of the triggers

Every event is stored once, counted once if it was received, and delivered at most as
often as the configuration says.
-/
namespace Knoa.Automation
open Knoa.Tasks Relational Transaction Transition

/-- An attempt is held by the worker that delivers, and by the Task it made. -/
def TriggerEventState.holdsAttempt : TriggerEventState → Bool
  | .claimed | .taskCreated => true
  | _ => false

def TriggerEventRow.key (row : TriggerEventRow) : String × String :=
  (row.triggerId, row.externalEventId)

def TriggerStore.receivedOf (s : TriggerStore) (triggerId : String) : List TriggerEventRow :=
  s.events.rows.filter (fun event => event.triggerId == triggerId && event.state != .baselined)

/-- The log has the event of every delivery that failed, or whose lease ran out. -/
structure Inbox (env : TriggerEnv) (s : TriggerStore) (log : List String) : Prop where
  once : (s.events.rows.map TriggerEventRow.key).Nodup
  counted : ∀ trigger ∈ s.triggers.rows,
    trigger.eventCount = (s.receivedOf trigger.triggerId).length
  spent : ∀ event ∈ s.events.rows, event.attemptCount =
    log.count event.triggerEventId + (if event.state.holdsAttempt then 1 else 0)
  bounded : ∀ event ∈ s.events.rows, log.count event.triggerEventId ≤ env.maxDeliveryAttempts

structure Tended (env : TriggerEnv) (s : TriggerStore) (log : List String) : Prop where
  once : (s.events.rows.map TriggerEventRow.key).Nodup
  owned : ∀ event ∈ s.events.rows, ∃ trigger ∈ s.triggers.rows, trigger.triggerId = event.triggerId
  spent : ∀ event ∈ s.events.rows, event.attemptCount =
    log.count event.triggerEventId + (if event.state.holdsAttempt then 1 else 0)
  attempts : ∀ event ∈ s.events.rows, event.attemptCount ≤ env.maxDeliveryAttempts
  waits : ∀ event ∈ s.events.rows, event.state = .received ∨ event.state = .retryWait →
    event.attemptCount < env.maxDeliveryAttempts
  recorded : ∀ failed ∈ log, ∃ event ∈ s.events.rows, event.triggerEventId = failed

def Counted (s : TriggerStore) : Prop :=
  ∀ trigger ∈ s.triggers.rows, trigger.eventCount = (s.receivedOf trigger.triggerId).length

def Unseen (s : TriggerStore) : Prop :=
  ∀ trigger ∈ s.triggers.rows, trigger.lastEventAt = none →
    ∀ event ∈ s.events.rows, event.triggerId ≠ trigger.triggerId

/-- A call that receives an event of the trigger, also one it knows, or baselines it. -/
inductive Notes (env : TriggerEnv) (s : TriggerStore) (triggerId : String) (s' : TriggerStore) : Prop
  | received {now : Time} {principalId externalId payload : String}
      {result : TriggerEventRow × Bool}
      (returned : receive env now principalId triggerId externalId payload s = .ok (result, s'))
  | baselined {now : Time} {principalId : String} {items : List (String × String)} {inserted : Nat}
      (returned : baseline env now principalId triggerId items s = .ok (inserted, s'))

def Noted (s : TriggerStore) (triggerId : String) : Prop :=
  ∃ trigger ∈ s.triggers.rows, trigger.triggerId = triggerId ∧ trigger.lastEventAt ≠ none

section Events

variable {env : TriggerEnv} {s : TriggerStore} {log failed : List String}

variable {triggerId : String}

theorem eventOf_none_iff {externalId : String} : s.eventOf triggerId externalId = none ↔
      ∀ event ∈ s.events.rows, event.key ≠ (triggerId, externalId) := by
  unfold TriggerStore.eventOf TriggerEventRow.key
  simp [List.find?_eq_none]

theorem eventOf_some {externalId : String} {event : TriggerEventRow}
    (found : s.eventOf triggerId externalId = some event) :
    event ∈ s.events.rows ∧ event.key = (triggerId, externalId) := by
  refine ⟨List.mem_of_find?_eq_some found, ?_⟩
  have same := List.find?_some found
  rw [Bool.and_eq_true, beq_iff_eq, beq_iff_eq] at same
  exact Prod.ext same.1 same.2

variable {f : TriggerEventRow → TriggerEventRow}

theorem mem_updateEvent {existing row : TriggerEventRow}
    {keep : ∀ row, (f row).triggerEventId = row.triggerEventId}
    (found : s.events.lookup existing.triggerEventId = some existing)
    (member : row ∈ (s.updateEvent existing.triggerEventId f keep).events.rows) :
    (row ∈ s.events.rows ∧ row.triggerEventId ≠ existing.triggerEventId) ∨ row = f existing := by
  obtain ⟨old, present, rfl⟩ := List.mem_map.mp member
  by_cases selected : (old.triggerEventId == existing.triggerEventId) = true
  · rw [if_pos selected]
    right
    rw [Table.mem_unique present (Table.lookup_mem found) (beq_iff_eq.mp selected)]
  · rw [if_neg selected]
    left
    exact ⟨present, by simpa using selected⟩

theorem map_updateEvent {α : Type} {column : TriggerEventRow → α} {id : String}
    {keep : ∀ row, (f row).triggerEventId = row.triggerEventId}
    (same : ∀ row, column (f row) = column row) :
    (s.updateEvent id f keep).events.rows.map column = s.events.rows.map column := by
  change (s.events.rows.map _).map column = _
  rw [List.map_map]
  apply List.map_congr_left
  intro row _
  dsimp only [Function.comp]
  split
  · exact same row
  · rfl

theorem Tended.updateEvent (h : Tended env s log) {existing : TriggerEventRow}
    {keep : ∀ row, (f row).triggerEventId = row.triggerEventId}
    (found : s.events.lookup existing.triggerEventId = some existing)
    (same : ∀ row, (f row).key = row.key)
    (failing : failed = [] ∨ failed = [existing.triggerEventId])
    (spent : (f existing).attemptCount =
      log.count existing.triggerEventId + failed.length +
      (if (f existing).state.holdsAttempt then 1 else 0))
    (attempts : (f existing).attemptCount ≤ env.maxDeliveryAttempts)
    (waits : (f existing).state = .received ∨ (f existing).state = .retryWait →
      (f existing).attemptCount < env.maxDeliveryAttempts) :
    Tended env (s.updateEvent existing.triggerEventId f keep) (log ++ failed) := by
  have member := Table.lookup_mem found
  have apart : ∀ {id : String}, id ≠ existing.triggerEventId →
      (log ++ failed).count id = log.count id := by
    intro id different
    rw [List.count_append]
    rcases failing with rfl | rfl
    · rfl
    · rw [List.count_singleton, if_neg (by simpa using different.symm)]
      rfl
  have here : (log ++ failed).count existing.triggerEventId =
      log.count existing.triggerEventId + failed.length := by
    rw [List.count_append]
    rcases failing with rfl | rfl
    · rfl
    · rw [List.count_singleton_self]
      rfl
  refine ⟨?_, ?_, ?_, ?_, ?_, ?_⟩
  · rw [map_updateEvent same]
    exact h.once
  · intro event listed
    rcases mem_updateEvent found listed with ⟨old, -⟩ | rfl
    · exact h.owned event old
    · obtain ⟨trigger, known, names⟩ := h.owned existing member
      exact ⟨trigger, known, names.trans (congrArg Prod.fst (same existing)).symm⟩
  · intro event listed
    rcases mem_updateEvent found listed with ⟨old, different⟩ | rfl
    · rw [apart different]
      exact h.spent event old
    · rw [keep, here]
      exact spent
  · intro event listed
    rcases mem_updateEvent found listed with ⟨old, -⟩ | rfl
    · exact h.attempts event old
    · exact attempts
  · intro event listed waiting
    rcases mem_updateEvent found listed with ⟨old, -⟩ | rfl
    · exact h.waits event old waiting
    · exact waits waiting
  · intro id listed
    have known : ∃ event ∈ s.events.rows, event.triggerEventId = id := by
      rcases List.mem_append.mp listed with old | new
      · exact h.recorded id old
      · rcases failing with rfl | rfl
        · cases new
        · exact ⟨existing, member, (List.mem_singleton.mp new).symm⟩
    obtain ⟨event, present, names⟩ := known
    refine ⟨_, List.mem_map_of_mem present, ?_⟩
    split
    · exact (keep event).trans names
    · exact names

theorem Tended.insert (h : Tended env s log) {row : TriggerEventRow}
    {events : Table TriggerEventRow.triggerEventId}
    (owned : ∃ trigger ∈ s.triggers.rows, trigger.triggerId = row.triggerId)
    (new : s.eventOf row.triggerId row.externalEventId = none) (untried : row.attemptCount = 0)
    (free : row.state.holdsAttempt = false) (inserted : s.events.insert row = some events) :
    Tended env { s with events } log := by
  have rows := Table.insert_rows inserted
  have unlogged : log.count row.triggerEventId = 0 := by
    apply List.count_eq_zero.mpr
    intro listed
    obtain ⟨event, present, names⟩ := h.recorded _ listed
    exact Table.insert_fresh inserted (names ▸ List.mem_map_of_mem present)
  have cases_of : ∀ {event}, event ∈ events.rows → event ∈ s.events.rows ∨ event = row := by
    intro event listed
    rw [rows] at listed
    exact (List.mem_append.mp listed).imp_right List.mem_singleton.mp
  refine ⟨?_, ?_, ?_, ?_, ?_, ?_⟩
  · rw [rows, List.map_append, List.map_singleton, List.nodup_append]
    refine ⟨h.once, List.nodup_singleton _, ?_⟩
    intro key listed other single
    obtain ⟨event, present, rfl⟩ := List.mem_map.mp listed
    rw [List.mem_singleton.mp single]
    exact eventOf_none_iff.mp new event present
  · intro event listed
    rcases cases_of listed with old | rfl
    · exact h.owned event old
    · exact owned
  · intro event listed
    rcases cases_of listed with old | rfl
    · exact h.spent event old
    · rw [untried, unlogged, free]
      rfl
  · intro event listed
    rcases cases_of listed with old | rfl
    · exact h.attempts event old
    · rw [untried]
      exact Nat.zero_le _
  · intro event listed waiting
    rcases cases_of listed with old | rfl
    · exact h.waits event old waiting
    · rw [untried]
      exact env.attempts.1
  · intro id listed
    obtain ⟨event, present, names⟩ := h.recorded id listed
    refine ⟨event, ?_, names⟩
    rw [rows]
    exact List.mem_append_left _ present

theorem Tended.of_events (h : Tended env s log) {triggers : Table TriggerRow.triggerId}
    (owned : ∀ trigger ∈ s.triggers.rows, ∃ other ∈ triggers.rows,
      other.triggerId = trigger.triggerId) : Tended env { s with triggers } log :=
  { h with
    owned := fun event listed => by
      obtain ⟨trigger, known, names⟩ := h.owned event listed
      obtain ⟨other, kept, same⟩ := owned trigger known
      exact ⟨other, kept, same.trans names⟩ }

theorem Tended.updateTrigger (h : Tended env s log) {f : TriggerRow → TriggerRow}
    {keep : ∀ row, (f row).triggerId = row.triggerId} :
    Tended env (s.updateTrigger triggerId f keep) log := by
  refine h.of_events ?_
  intro trigger known
  refine ⟨_, List.mem_map_of_mem known, ?_⟩
  split
  · exact keep trigger
  · rfl

end Events

section Counts

variable {env : TriggerEnv} {s : TriggerStore} {log : List String} {now : Time}

theorem receivedOf_append {row : TriggerEventRow} {events : Table TriggerEventRow.triggerEventId}
    {triggerId : String} (rows : events.rows = s.events.rows ++ [row]) :
    ({ s with events } : TriggerStore).receivedOf triggerId = s.receivedOf triggerId ++
      if row.triggerId = triggerId ∧ row.state ≠ .baselined then [row] else [] := by
  unfold TriggerStore.receivedOf
  rw [rows, List.filter_append, List.filter_singleton]
  congr 1
  simp [Bool.and_eq_true]

theorem Counted.updateEvent (h : Counted s) {existing : TriggerEventRow}
    {f : TriggerEventRow → TriggerEventRow}
    {keep : ∀ row, (f row).triggerEventId = row.triggerEventId}
    (found : s.events.lookup existing.triggerEventId = some existing)
    (same : ∀ row, (f row).key = row.key) (live : existing.state ≠ .baselined)
    (left : (f existing).state ≠ .baselined) :
    Counted (s.updateEvent existing.triggerEventId f keep) := by
  intro trigger known
  rw [h trigger known]
  change _ = ((s.events.rows.map _).filter _).length
  rw [List.filter_map, List.length_map]
  congr 1
  apply List.filter_congr
  intro event listed
  dsimp only [Function.comp]
  split
  · rename_i selected
    obtain rfl := Table.mem_unique listed (Table.lookup_mem found) (beq_iff_eq.mp selected)
    have names : (f event).triggerId = event.triggerId := congrArg Prod.fst (same event)
    rw [names, bne_iff_ne.mpr live, bne_iff_ne.mpr left]
  · rfl

theorem Counted.insertBaselined (h : Counted s) {row : TriggerEventRow}
    {events : Table TriggerEventRow.triggerEventId} (state : row.state = .baselined)
    (rows : events.rows = s.events.rows ++ [row]) : Counted { s with events } := by
  intro trigger known
  rw [receivedOf_append rows, if_neg (fun counts => counts.2 state), List.append_nil]
  exact h trigger known

theorem Counted.updateTrigger (h : Counted s) {triggerId : String} {f : TriggerRow → TriggerRow}
    {keep : ∀ row, (f row).triggerId = row.triggerId}
    (same : ∀ row, (f row).eventCount = row.eventCount) :
    Counted (s.updateTrigger triggerId f keep) := by
  intro trigger known
  obtain ⟨old, present, rfl⟩ := List.mem_map.mp known
  split
  · rw [keep, same]
    exact h old present
  · exact h old present

theorem Counted.receive (h : Counted s) {trigger : TriggerRow} {row : TriggerEventRow}
    {events : Table TriggerEventRow.triggerEventId}
    (names : row.triggerId = trigger.triggerId) (state : row.state = .received)
    (rows : events.rows = s.events.rows ++ [row]) :
    Counted ({ s with events }.updateTrigger trigger.triggerId (fun trigger =>
      { trigger with
        eventCount := trigger.eventCount + 1, lastEventAt := some now, updatedAt := now })) := by
  intro other known
  change _ = (({ s with events } : TriggerStore).receivedOf _).length
  rw [receivedOf_append rows, names]
  obtain ⟨old, present, rfl⟩ := List.mem_map.mp known
  by_cases selected : (old.triggerId == trigger.triggerId) = true
  · rw [if_pos selected]
    have same : trigger.triggerId = old.triggerId := (beq_iff_eq.mp selected).symm
    dsimp only
    rw [if_pos ⟨same, by rw [state]; decide⟩, List.length_append, h old present]
    rfl
  · rw [if_neg selected]
    have apart : trigger.triggerId ≠ old.triggerId := fun same =>
      selected (by rw [same]; exact beq_self_eq_true _)
    rw [if_neg (fun counts => apart counts.1), List.append_nil]
    exact h old present

end Counts

section Inventory

variable {env : TriggerEnv} {s s' : TriggerStore} {log : List String} {now : Time}
  {trigger : TriggerRow} {items : List (String × String)} {inserted : Nat}

theorem baselineItems_rule {P : TriggerStore → Prop}
    (kept : ∀ t externalId payload events, P t → t.eventOf trigger.triggerId externalId = none →
      t.events.insert (newEvent env now trigger externalId payload .baselined
        "initial_inventory") = some events → P { t with events })
    (start : P s) (listed : baselineItems env now trigger items s = .ok (inserted, s')) : P s' := by
  induction items generalizing s inserted with
  | nil =>
    cases listed
    exact start
  | cons item rest ih =>
    unfold baselineItems at listed
    split at listed
    · obtain ⟨_, -, listed⟩ := of_bind listed
      exact ih start listed
    · obtain ⟨events, added, ⟨count, stored⟩, later, listed⟩ := of_bind₂ listed
      cases listed
      obtain ⟨new, added⟩ := insertEvent_ok (orRaise_ok_iff.mp added)
      exact ih (kept s _ _ events start new added) later

theorem baselineItems_grows {event : TriggerEventRow} (present : event ∈ s.events.rows)
    (listed : baselineItems env now trigger items s = .ok (inserted, s')) :
    event ∈ s'.events.rows := by
  refine baselineItems_rule (P := fun t => event ∈ t.events.rows) ?_ present listed
  intro t externalId payload events known _ added
  rw [Table.insert_rows added]
  exact List.mem_append_left _ known

theorem baselineItems_listed (listed : baselineItems env now trigger items s = .ok (inserted, s')) :
    ∀ item ∈ items, ∃ event ∈ s'.events.rows, event.key = (trigger.triggerId, item.1) := by
  induction items generalizing s inserted with
  | nil =>
    intro item member
    cases member
  | cons first rest ih =>
    unfold baselineItems at listed
    intro item member
    split at listed
    · rename_i existing found
      obtain ⟨_, -, after⟩ := of_bind listed
      rcases List.mem_cons.mp member with rfl | later
      · obtain ⟨present, key⟩ := eventOf_some found
        exact ⟨existing, baselineItems_grows present after, key⟩
      · exact ih after item later
    · obtain ⟨events, added, ⟨count, stored⟩, after, listed⟩ := of_bind₂ listed
      cases listed
      obtain ⟨-, added⟩ := insertEvent_ok (orRaise_ok_iff.mp added)
      rcases List.mem_cons.mp member with rfl | later
      · refine ⟨newEvent env now trigger item.1 item.2 .baselined "initial_inventory",
          baselineItems_grows ?_ after, rfl⟩
        rw [Table.insert_rows added]
        exact List.mem_concat_self
      · exact ih after item later

end Inventory

/-- The inbox with what its induction needs. -/
structure Received (env : TriggerEnv) (s : TriggerStore) (log : List String) : Prop where
  tended : Tended env s log
  counted : Counted s
  unseen : Unseen s

section Steps

variable {env : TriggerEnv} {s s' : TriggerStore} {log failed : List String} {now : Time}

theorem nextEvent_lookup {row : TriggerEventRow} (first : nextEvent now s = some row) :
    s.events.lookup row.triggerEventId = some row ∧
      (row.state = .received ∨ row.state = .retryWait ∨ row.state = .claimed) := by
  have listed := List.mem_of_head? first
  rw [List.mem_insertionSort, List.mem_filter] at listed
  refine ⟨Table.lookup_of_mem listed.1, ?_⟩
  have due := listed.2
  unfold TriggerEventRow.due at due
  simp only [Bool.and_eq_true, Bool.or_eq_true, beq_iff_eq] at due
  rcases due.2 with (new | ⟨waiting, -⟩) | ⟨claimed, -⟩
  · exact Or.inl new
  · exact Or.inr (Or.inl waiting)
  · exact Or.inr (Or.inr claimed)

theorem Unseen.updateEvent (h : Unseen s) {id : String} {f : TriggerEventRow → TriggerEventRow}
    {keep : ∀ row, (f row).triggerEventId = row.triggerEventId}
    (same : ∀ row, (f row).key = row.key) : Unseen (s.updateEvent id f keep) := by
  intro trigger known never event listed
  obtain ⟨old, present, rfl⟩ := List.mem_map.mp listed
  have apart := h trigger known never old present
  split
  · intro names
    exact apart ((congrArg Prod.fst (same old)).symm.trans names)
  · exact apart

theorem Received.updateEvent (h : Received env s log) {existing : TriggerEventRow}
    {f : TriggerEventRow → TriggerEventRow}
    {keep : ∀ row, (f row).triggerEventId = row.triggerEventId}
    (found : s.events.lookup existing.triggerEventId = some existing)
    (same : ∀ row, (f row).key = row.key) (live : existing.state ≠ .baselined)
    (left : (f existing).state ≠ .baselined)
    (failing : failed = [] ∨ failed = [existing.triggerEventId])
    (spent : (f existing).attemptCount = log.count existing.triggerEventId + failed.length +
      (if (f existing).state.holdsAttempt then 1 else 0))
    (attempts : (f existing).attemptCount ≤ env.maxDeliveryAttempts)
    (waits : (f existing).state = .received ∨ (f existing).state = .retryWait →
      (f existing).attemptCount < env.maxDeliveryAttempts) :
    Received env (s.updateEvent existing.triggerEventId f keep) (log ++ failed) where
  tended := h.tended.updateEvent found same failing spent attempts waits
  counted := h.counted.updateEvent found same live left
  unseen := h.unseen.updateEvent same

theorem Tended.claimed_spent (h : Tended env s log) {existing : TriggerEventRow}
    (found : s.events.lookup existing.triggerEventId = some existing)
    (claimed : existing.state = .claimed) :
    existing.attemptCount = log.count existing.triggerEventId + 1 := by
  have before := h.spent existing (Table.lookup_mem found)
  rw [claimed] at before
  exact before

section
variable (h : Received env s log)
include h

theorem Received.release {existing : TriggerEventRow} {f : TriggerEventRow → TriggerEventRow}
    {keep : ∀ row, (f row).triggerEventId = row.triggerEventId}
    (found : s.events.lookup existing.triggerEventId = some existing)
    (claimed : existing.state = .claimed) (same : ∀ row, (f row).key = row.key)
    (failing : failed = [] ∨ failed = [existing.triggerEventId])
    (left : (f existing).state = .taskCreated ∨ (f existing).state = .dead ∨
      (f existing).state = .retryWait)
    (spent : (f existing).attemptCount + 1 = existing.attemptCount + failed.length +
      (if (f existing).state.holdsAttempt then 1 else 0))
    (fewer : (f existing).attemptCount ≤ existing.attemptCount)
    (waits : (f existing).state = .retryWait →
      (f existing).attemptCount < env.maxDeliveryAttempts) :
    Received env (s.updateEvent existing.triggerEventId f keep) (log ++ failed) := by
  have before := h.tended.claimed_spent found claimed
  have bound := h.tended.attempts existing (Table.lookup_mem found)
  refine h.updateEvent found same (by rw [claimed]; decide) ?_ failing (by omega)
    (fewer.trans bound) ?_
  · rcases left with state | state | state <;> rw [state] <;> decide
  · rintro (new | waiting)
    · rcases left with state | state | state <;> rw [state] at new <;> cases new
    · exact waits waiting

theorem Received.of_baseline {trigger : TriggerRow}
    {items : List (String × String)} {inserted : Nat} {stored : TriggerStore}
    (found : s.triggers.lookup trigger.triggerId = some trigger)
    (listed : baselineItems env now trigger items s = .ok (inserted, stored)) :
    Received env (stored.updateTrigger trigger.triggerId (fun trigger =>
      { trigger with lastEventAt := some now, updatedAt := now })) log := by
  have present := Table.lookup_mem found
  have along : stored.triggers = s.triggers ∧ Tended env stored log ∧ Counted stored ∧
      ∀ other ∈ s.triggers.rows, other ≠ trigger → other.lastEventAt = none →
        ∀ event ∈ stored.events.rows, event.triggerId ≠ other.triggerId := by
    refine baselineItems_rule (P := fun t => t.triggers = s.triggers ∧ Tended env t log ∧
      Counted t ∧ ∀ other ∈ s.triggers.rows, other ≠ trigger → other.lastEventAt = none →
        ∀ event ∈ t.events.rows, event.triggerId ≠ other.triggerId) ?_
      ⟨rfl, h.tended, h.counted, fun other known _ => h.unseen other known⟩ listed
    rintro t externalId payload events ⟨same, tended, counted, apart⟩ new added
    have rows := Table.insert_rows added
    refine ⟨same, tended.insert ⟨trigger, same ▸ present, rfl⟩ new rfl rfl added,
      counted.insertBaselined rfl rows, ?_⟩
    intro other known different never event member
    rw [rows] at member
    rcases List.mem_concat.mp member with old | single
    · exact apart other known different never event old
    · rw [single]
      intro names
      exact different (Table.mem_unique known present names.symm)
  obtain ⟨triggers, tended, counted, apart⟩ := along
  refine ⟨tended.updateTrigger, counted.updateTrigger (fun _ => rfl), ?_⟩
  intro other known never event member
  obtain ⟨old, before, rfl⟩ := List.mem_map.mp known
  rw [triggers] at before
  by_cases selected : (old.triggerId == trigger.triggerId) = true
  · rw [if_pos selected] at never
    cases never
  · rw [if_neg selected] at never ⊢
    refine apart old before ?_ never event member
    intro same
    exact selected (by rw [same]; exact beq_self_eq_true _)

theorem Received.of_receive {trigger : TriggerRow}
    {externalId payload : String} {events : Table TriggerEventRow.triggerEventId}
    (found : s.triggers.lookup trigger.triggerId = some trigger)
    (new : s.eventOf trigger.triggerId externalId = none)
    (added : s.events.insert (newEvent env now trigger externalId payload .received "") =
      some events) : Received env ({ s with events }.updateTrigger trigger.triggerId (fun trigger =>
      { trigger with
        eventCount := trigger.eventCount + 1, lastEventAt := some now,
        updatedAt := now })) log := by
  have present := Table.lookup_mem found
  have rows := Table.insert_rows added
  have tended := h.tended.insert ⟨trigger, present, rfl⟩ new rfl rfl added
  refine ⟨tended.updateTrigger, h.counted.receive rfl rfl rows, ?_⟩
  intro other known never event member
  obtain ⟨old, before, rfl⟩ := List.mem_map.mp known
  by_cases selected : (old.triggerId == trigger.triggerId) = true
  · rw [if_pos selected] at never
    cases never
  · rw [if_neg selected] at never ⊢
    change event ∈ events.rows at member
    rw [rows] at member
    rcases List.mem_concat.mp member with earlier | single
    · exact h.unseen old before never event earlier
    · rw [single]
      intro names
      exact selected (beq_iff_eq.mpr names.symm)

theorem Received.of_create {row : TriggerRow}
    {triggers : Table TriggerRow.triggerId} (empty : row.eventCount = 0)
    (inserted : s.triggers.insert row = some triggers) : Received env { s with triggers } log := by
  have rows := Table.insert_rows inserted
  have fresh : ∀ event ∈ s.events.rows, event.triggerId ≠ row.triggerId := by
    intro event member names
    obtain ⟨owner, known, same⟩ := h.tended.owned event member
    apply Table.insert_fresh inserted
    rw [← names, ← same]
    exact List.mem_map_of_mem known
  have cases_of : ∀ {trigger}, trigger ∈ triggers.rows → trigger ∈ s.triggers.rows ∨
      trigger = row := by
    intro trigger known
    rw [rows] at known
    exact (List.mem_append.mp known).imp_right List.mem_singleton.mp
  refine ⟨h.tended.of_events ?_, ?_, ?_⟩
  · intro trigger known
    refine ⟨trigger, ?_, rfl⟩
    rw [rows]
    exact List.mem_append_left _ known
  · intro trigger known
    rcases cases_of known with old | rfl
    · exact h.counted trigger old
    · rw [empty]
      symm
      apply List.length_eq_zero_iff.mpr
      apply List.filter_eq_nil_iff.mpr
      intro event member counts
      rw [Bool.and_eq_true, beq_iff_eq] at counts
      exact fresh event member counts.1
  · intro trigger known never event member
    rcases cases_of known with old | rfl
    · exact h.unseen trigger old never event member
    · exact fresh event member

theorem Received.kept (taken : TriggerTaken env s failed s') : Received env s' (log ++ failed) := by
  cases taken with
  | same =>
    rw [List.append_nil]
    exact h
  | created empty unseen inserted =>
    rw [List.append_nil]
    exact h.of_create empty inserted
  | pausedSet =>
    rw [List.append_nil]
    refine ⟨h.tended.updateTrigger, h.counted.updateTrigger (fun _ => rfl), ?_⟩
    intro trigger known
    obtain ⟨old, before, rfl⟩ := List.mem_map.mp known
    split <;> exact h.unseen old before
  | received found new inserted =>
    rw [List.append_nil]
    exact h.of_receive found new inserted
  | baselined found unseen listed =>
    rw [List.append_nil]
    exact h.of_baseline found listed
  | buried first claimed =>
    exact h.release (nextEvent_lookup first).1 claimed (fun _ => rfl) (Or.inr rfl)
      (Or.inr (Or.inl rfl)) rfl (le_refl _) (by rintro ⟨⟩)
  | @claimed _ _ _ row first left =>
    obtain ⟨found, state⟩ := nextEvent_lookup first
    have member := Table.lookup_mem found
    have bound := h.tended.attempts row member
    have before := h.tended.spent row member
    have room : row.attemptCount + 1 ≤ env.maxDeliveryAttempts := by
      rcases state with new | waiting | claimed
      · exact h.tended.waits row member (Or.inl new)
      · exact h.tended.waits row member (Or.inr waiting)
      · exact Nat.lt_of_not_le (fun exhausted => left ⟨claimed, exhausted⟩)
    refine h.updateEvent found (fun _ => rfl) ?_ (by simp) ?_ ?_ room ?_
    · rcases state with state | state | state <;> rw [state] <;> decide
    · split
      · exact Or.inr rfl
      · exact Or.inl rfl
    · rcases state with state | state | state <;> rw [state] at before ⊢
      · exact congrArg (· + 1) before
      · exact congrArg (· + 1) before
      · exact congrArg (· + 1) before
    · rintro (new | waiting)
      · cases new
      · cases waiting
  | @delivered _ _ _ current found claimed =>
    obtain rfl := Table.lookup_key found
    exact h.release found claimed (fun _ => rfl) (Or.inl rfl) (Or.inl rfl) rfl (le_refl _) (by rintro ⟨⟩)
  | @failed _ _ _ current found claimed =>
    obtain rfl := Table.lookup_key found
    have bound := h.tended.attempts current (Table.lookup_mem found)
    refine h.release found claimed (fun _ => rfl) (Or.inr rfl) ?_ ?_ (le_refl _) ?_
    · right
      split
      · exact Or.inl rfl
      · exact Or.inr rfl
    · split <;> rfl
    · intro waits
      split at waits
      · cases waits
      · rename_i left
        exact Nat.lt_of_not_le left
  | @deferred _ _ _ current found claimed =>
    obtain rfl := Table.lookup_key found
    have bound := h.tended.attempts current (Table.lookup_mem found)
    have before := h.tended.claimed_spent found claimed
    refine h.release found claimed (fun _ => rfl) (Or.inl rfl) (Or.inr (Or.inr rfl)) ?_
      (Nat.sub_le _ _) ?_
    · change current.attemptCount - 1 + 1 = current.attemptCount
      omega
    · intro _
      change current.attemptCount - 1 < env.maxDeliveryAttempts
      omega

end

end Steps

section Runs

variable {env : TriggerEnv} {s s' : TriggerStore} {failed : List String} {event : TriggerEventRow}

/-- What becomes of an event with a step: it is the row it was, or a row with its keys
that is not of the inventory, as the event was not. -/
theorem TriggerTaken.event_kept (taken : TriggerTaken env s failed s')
    (member : event ∈ s.events.rows) :
    event ∈ s'.events.rows ∨ event.state ≠ .baselined ∧ ∃ current ∈ s'.events.rows,
      current.triggerEventId = event.triggerEventId ∧ current.key = event.key ∧
        current.state ≠ .baselined := by
  have other : ∀ {existing : TriggerEventRow} {id : String} {f : TriggerEventRow → TriggerEventRow}
      {keep : ∀ row, (f row).triggerEventId = row.triggerEventId},
      s.events.lookup id = some existing → existing.state ≠ .baselined →
        (f existing).key = existing.key → (f existing).state ≠ .baselined →
          event ∈ (s.updateEvent id f keep).events.rows ∨ event.state ≠ .baselined ∧
            ∃ current ∈ (s.updateEvent id f keep).events.rows,
              current.triggerEventId = event.triggerEventId ∧ current.key = event.key ∧
                current.state ≠ .baselined := by
    intro existing id f keep found live same left
    by_cases selected : (event.triggerEventId == id) = true
    · obtain rfl : event = existing := Table.mem_unique member (Table.lookup_mem found)
        ((beq_iff_eq.mp selected).trans (Table.lookup_key found).symm)
      right
      refine ⟨live, f event, ?_, keep event, same, left⟩
      exact List.mem_map.mpr ⟨event, member, if_pos selected⟩
    · left
      exact List.mem_map.mpr ⟨event, member, if_neg selected⟩
  cases taken with
  | same | created | pausedSet => exact Or.inl member
  | @received _ _ _ _ events _ _ inserted =>
    left
    change event ∈ events.rows
    rw [Table.insert_rows inserted]
    exact List.mem_append_left _ member
  | @baselined _ _ _ _ stored _ _ listed =>
    left
    change event ∈ stored.events.rows
    exact baselineItems_grows member listed
  | buried first claimed =>
    exact other (nextEvent_lookup first).1 (by rw [claimed]; decide) rfl (by simp)
  | claimed first left =>
    obtain ⟨found, state⟩ := nextEvent_lookup first
    refine other found ?_ rfl (by simp)
    rcases state with state | state | state <;> rw [state] <;> decide
  | delivered found claimed | deferred found claimed =>
    exact other found (by rw [claimed]; decide) rfl (by simp)
  | failed found claimed =>
    refine other found (by rw [claimed]; decide) rfl ?_
    dsimp only
    split <;> decide

def TriggerOp.note (s : TriggerStore) (op : TriggerOp) (_ : TriggerStore) (log : List String) :
    List String := log ++ op.failures s

theorem recorded_received (env : TriggerEnv) (sessions : Table SessionRow.sessionHandle)
    (ops : List TriggerOp) :
    let r := final (recording (TriggerStore.step env) TriggerOp.note) (.initial sessions, []) ops
    Received env r.1 r.2 := by
  have kept : ∀ (r : TriggerStore × List String) op r', Received env r.1 r.2 →
      recording (TriggerStore.step env) TriggerOp.note r op = some r' → Received env r'.1 r'.2 := by
    intro r op r' h stepped
    obtain ⟨taken, noted⟩ := recording_eq_some_iff.mp stepped
    rw [noted]
    exact h.kept (trigger_step_taken taken)
  refine Transition.final_invariant kept ⟨⟨?_, ?_, ?_, ?_, ?_, ?_⟩, ?_, ?_⟩ ops
  · exact List.nodup_nil
  · intro _ member
    cases member
  · intro _ member
    cases member
  · intro _ member
    cases member
  · intro _ member
    cases member
  · intro _ member
    cases member
  · intro _ member
    cases member
  · intro _ member
    cases member

variable {log : List String}

theorem Received.inbox (h : Received env s log) : Inbox env s log where
  once := h.tended.once
  counted := h.counted
  spent := h.tended.spent
  bounded current member := by
    have bound := h.tended.attempts current member
    have spent := h.tended.spent current member
    omega

theorem Received.deferred_attempt (h : Received env s log) {now : Time} {named reason : String}
    (returned : deferDelivery env now named reason s = .ok (event, s')) :
    event.attemptCount = log.count event.triggerEventId ∧
      event.attemptCount < env.maxDeliveryAttempts := by
  have kept := h.kept (deferDelivery_taken returned)
  rw [List.append_nil] at kept
  have stored : event ∈ s'.events.rows ∧ event.state = .retryWait := by
    obtain ⟨id, -, _, -, current, read, returned⟩ := of_bind₃ returned
    obtain ⟨_, -, updated, again, returned⟩ := of_bind₂ returned
    cases returned
    rw [orRaise_ok_iff] at again read
    obtain rfl := Table.lookup_key read
    refine ⟨Table.lookup_mem again, ?_⟩
    rcases mem_updateEvent read (Table.lookup_mem again) with ⟨-, different⟩ | rfl
    · exact absurd (Table.lookup_key again) different
    · rfl
  have spent := kept.tended.spent event stored.1
  rw [stored.2] at spent
  exact ⟨spent, kept.tended.waits event stored.1 (Or.inr stored.2)⟩

theorem Received.baseline_listed (h : Received env s log) {now : Time}
    {principalId triggerId : String} {items : List (String × String)} {inserted : Nat}
    {trigger : TriggerRow} (known : trigger ∈ s.triggers.rows) (unseen : trigger.lastEventAt = none)
    (named : strip triggerId = trigger.triggerId)
    (returned : baseline env now principalId triggerId items s = .ok (inserted, s')) :
    ∀ item ∈ items, ∃ event ∈ s'.events.rows, event.key = (trigger.triggerId, strip item.1) ∧
      event.state = .baselined := by
  obtain ⟨_, -, id, given, checked, normalized, owner, owned, returned⟩ := of_bind₄ returned
  obtain ⟨found, names⟩ := ownedTrigger_ok owned
  obtain ⟨rfl, -⟩ := identifier_ok_iff.mp given
  obtain rfl : owner = trigger := Table.mem_unique (Table.lookup_mem found) known
    (names.trans named)
  obtain ⟨_, -, returned⟩ := of_bind returned
  rw [if_neg (not_not.mpr unseen)] at returned
  obtain ⟨⟨count, stored⟩, listed, returned⟩ := of_bind returned
  cases returned
  intro item member
  obtain ⟨pair, present, read⟩ := mapM_ok normalized item member
  obtain ⟨externalId, external, payload, -, read⟩ := of_bind₂ read
  cases read
  obtain ⟨rfl, -⟩ := identifier_ok_iff.mp external
  obtain ⟨event, recorded, key⟩ := baselineItems_listed listed _ present
  have inventory : ∀ event ∈ stored.events.rows, event.triggerId = owner.triggerId →
      event.state = .baselined := by
    refine baselineItems_rule (P := fun t => ∀ event ∈ t.events.rows,
      event.triggerId = owner.triggerId → event.state = .baselined) ?_ ?_ listed
    · intro t _ _ events before _ added event listed' owned'
      rw [Table.insert_rows added] at listed'
      rcases List.mem_concat.mp listed' with old | single
      · exact before event old owned'
      · rw [single]
        rfl
    · intro event present' owned'
      exact absurd owned' (h.unseen owner known unseen event present')
  exact ⟨event, recorded, key, inventory event recorded (congrArg Prod.fst key)⟩

variable {triggerId : String}

theorem Noted.updateTrigger (h : Noted s triggerId) {id : String} {f : TriggerRow → TriggerRow}
    {keep : ∀ row, (f row).triggerId = row.triggerId}
    (keeps : ∀ row, row.lastEventAt ≠ none → (f row).lastEventAt ≠ none) :
    Noted (s.updateTrigger id f keep) triggerId := by
  obtain ⟨trigger, known, named, noted⟩ := h
  refine ⟨_, List.mem_map_of_mem known, ?_⟩
  split
  · exact ⟨(keep trigger).trans named, keeps trigger noted⟩
  · exact ⟨named, noted⟩

theorem noted_of_update {trigger : TriggerRow} {f : TriggerRow → TriggerRow}
    {keep : ∀ row, (f row).triggerId = row.triggerId} (known : trigger ∈ s.triggers.rows)
    (sets : (f trigger).lastEventAt ≠ none) :
    Noted (s.updateTrigger trigger.triggerId f keep) trigger.triggerId :=
  ⟨f trigger, List.mem_map.mpr ⟨trigger, known, if_pos (beq_self_eq_true _)⟩, keep trigger, sets⟩

theorem baselineItems_triggers {now : Time} {trigger : TriggerRow} {items : List (String × String)}
    {inserted : Nat} (listed : baselineItems env now trigger items s = .ok (inserted, s')) :
    s'.triggers = s.triggers :=
  baselineItems_rule (P := fun t => t.triggers = s.triggers) (fun _ _ _ _ same _ _ => same) rfl
    listed

theorem Noted.kept (h : Noted s triggerId) (taken : TriggerTaken env s failed s') :
    Noted s' triggerId := by
  cases taken with
  | same | buried | claimed | delivered | failed | deferred => exact h
  | created _ _ inserted =>
    obtain ⟨trigger, known, named, noted⟩ := h
    refine ⟨trigger, ?_, named, noted⟩
    rw [Table.insert_rows inserted]
    exact List.mem_append_left _ known
  | pausedSet => exact h.updateTrigger fun _ noted => noted
  | @received _ _ _ _ events =>
    exact Noted.updateTrigger (s := { s with events }) h fun _ _ => Option.some_ne_none _
  | @baselined _ _ _ _ stored _ _ listed =>
    refine Noted.updateTrigger (s := stored) ?_ fun _ _ => Option.some_ne_none _
    unfold Noted
    rwa [baselineItems_triggers listed]

/-- An event that is known belongs to a trigger that has heard of one. -/
theorem Received.noted (h : Received env s log) (notes : Notes env s triggerId s') :
    Noted s' (strip triggerId) := by
  cases notes with
  | received returned =>
    obtain ⟨_, -, id, given, externalId, -, returned⟩ := of_bind₃ returned
    obtain ⟨rfl, -⟩ := identifier_ok_iff.mp given
    obtain ⟨_, -, trigger, owned, _, -, returned⟩ := of_bind₃ returned
    obtain ⟨found, named⟩ := ownedTrigger_ok owned
    have known := Table.lookup_mem found
    split at returned
    · rename_i existing listed
      obtain ⟨_, -, returned⟩ := of_bind returned
      cases returned
      obtain ⟨present, key⟩ := eventOf_some listed
      refine ⟨trigger, known, named, fun never => ?_⟩
      exact h.unseen trigger known never existing present
        ((congrArg Prod.fst key).trans named.symm)
    · obtain ⟨events, -, _, -, returned⟩ := of_bind₂ returned
      cases returned
      rw [← named]
      exact noted_of_update (s := { s with events }) known (Option.some_ne_none _)
  | baselined returned =>
    obtain ⟨_, -, id, given, checked, -, trigger, owned, returned⟩ := of_bind₄ returned
    obtain ⟨rfl, -⟩ := identifier_ok_iff.mp given
    obtain ⟨found, named⟩ := ownedTrigger_ok owned
    have known := Table.lookup_mem found
    obtain ⟨_, -, returned⟩ := of_bind returned
    split at returned
    · rename_i noted
      cases returned
      exact ⟨trigger, known, named, noted⟩
    · obtain ⟨⟨_, stored⟩, listed, returned⟩ := of_bind returned
      cases returned
      rw [← named]
      refine noted_of_update ?_ (Option.some_ne_none _)
      rwa [baselineItems_triggers listed]

theorem Noted.baseline_nothing (h : Noted s (strip triggerId)) {now : Time} {principalId : String}
    {items : List (String × String)} {inserted : Nat}
    (returned : baseline env now principalId triggerId items s = .ok (inserted, s')) :
    inserted = 0 ∧ s' = s := by
  obtain ⟨trigger, known, named, noted⟩ := h
  obtain ⟨_, -, id, given, _, -, owner, owned, returned⟩ := of_bind₄ returned
  obtain ⟨rfl, -⟩ := identifier_ok_iff.mp given
  obtain ⟨found, names⟩ := ownedTrigger_ok owned
  obtain rfl : owner = trigger :=
    Table.mem_unique (Table.lookup_mem found) known (names.trans named.symm)
  obtain ⟨_, -, returned⟩ := of_bind returned
  rw [if_pos noted] at returned
  cases returned
  exact ⟨rfl, rfl⟩

end Runs

theorem trigger_inbox (env : TriggerEnv) (sessions : Table SessionRow.sessionHandle)
    (ops later : List TriggerOp) :
    let r := final (recording (TriggerStore.step env) TriggerOp.note) (.initial sessions, []) ops
    let t := final (TriggerStore.step env) r.1 later
    Inbox env r.1 r.2 ∧
      (∀ trigger ∈ r.1.triggers.rows, trigger.lastEventAt = none →
        ∀ now principalId triggerId items inserted s', strip triggerId = trigger.triggerId →
          baseline env now principalId triggerId items r.1 = .ok (inserted, s') →
            ∀ item ∈ items, ∃ event ∈ s'.events.rows,
              event.key = (trigger.triggerId, strip item.1) ∧ event.state = .baselined) ∧
      (∀ triggerId s', Notes env r.1 triggerId s' → ∀ now principalId named items inserted u,
        strip named = strip triggerId →
          baseline env now principalId named items (final (TriggerStore.step env) s' later) =
              .ok (inserted, u) →
            inserted = 0 ∧ u = final (TriggerStore.step env) s' later) ∧
      (∀ event ∈ r.1.events.rows, event.state = .baselined → event ∈ t.events.rows) ∧
      (∀ event ∈ r.1.events.rows, event.state ≠ .baselined → ∃ current ∈ t.events.rows,
        current.triggerEventId = event.triggerEventId ∧ current.key = event.key ∧
          current.state ≠ .baselined) ∧
      ∀ now named reason event s', deferDelivery env now named reason r.1 = .ok (event, s') →
        event.attemptCount = r.2.count event.triggerEventId ∧
          event.attemptCount < env.maxDeliveryAttempts := by
  have received := recorded_received env sessions ops
  refine ⟨received.inbox, ?_, ?_, ?_, ?_, ?_⟩
  · intro trigger known unseen now principalId triggerId items inserted s' named returned
    exact received.baseline_listed known unseen named returned
  · intro triggerId s' notes now principalId named items inserted u same returned
    have kept : ∀ s op s', Noted s (strip triggerId) → TriggerStore.step env s op = some s' →
        Noted s' (strip triggerId) :=
      fun s op s' noted stepped => noted.kept (trigger_step_taken stepped)
    have noted := Transition.final_invariant kept (received.noted notes) later
    rw [← same] at noted
    exact noted.baseline_nothing returned
  · intro event member state
    have kept : ∀ s op s', event ∈ s.events.rows → TriggerStore.step env s op = some s' →
        event ∈ s'.events.rows := by
      intro s op s' present stepped
      exact ((trigger_step_taken stepped).event_kept present).resolve_right
        (fun moved => moved.1 state)
    exact Transition.final_invariant kept member later
  · intro event member live
    have kept : ∀ (s : TriggerStore) op (s' : TriggerStore),
        (∃ current ∈ s.events.rows, current.triggerEventId = event.triggerEventId ∧
          current.key = event.key ∧ current.state ≠ .baselined) →
        TriggerStore.step env s op = some s' →
          ∃ current ∈ s'.events.rows, current.triggerEventId = event.triggerEventId ∧
            current.key = event.key ∧ current.state ≠ .baselined := by
      rintro s op s' ⟨current, present, id, key, state⟩ stepped
      rcases (trigger_step_taken stepped).event_kept present with same | ⟨-, moved⟩
      · exact ⟨current, same, id, key, state⟩
      · obtain ⟨row, listed, id', key', state'⟩ := moved
        exact ⟨row, listed, id'.trans id, key'.trans key, state'⟩
    exact Transition.final_invariant kept ⟨event, member, rfl, rfl, live⟩ later
  · intro now named reason event s' returned
    exact received.deferred_attempt returned

section Sample

def sampleTriggerEnv : TriggerEnv where
  digest text := text
  attempts := sampleScheduleEnv.attempts
  base := sampleScheduleEnv.base

def sampleTriggers : TriggerStore :=
  .initial (.single { sessionHandle := "s", principalId := "p", agentId := "a" })

/-- A trigger whose first event comes before its inventory. -/
def sampleTrigger : List TriggerOp :=
  [.create 0 (fun _ => "t")
      { scope := { principalId := "p", sessionHandle := "s" }, clientRequestId := "r",
        name := "name", goal := "goal" }, .receive 1 "p" "t" "new" "{}"]

/-- A later inventory is not looked at, and its item is delivered. -/
theorem baseline_ignored :
    let s := final (TriggerStore.step sampleTriggerEnv) sampleTriggers sampleTrigger
    let t := final (TriggerStore.step sampleTriggerEnv) s
      [.baseline 2 "p" "t" [("old", "{}")], .receive 3 "p" "t" "old" "{}",
        .claimNext 4 "w" 60, .claimNext 4 "w" 60]
    (∀ event ∈ s.events.rows, event.externalEventId ≠ "old") ∧
      (baseline sampleTriggerEnv 2 "p" "t" [("old", "{}")] s).map Prod.fst = .ok 0 ∧
      ∃ event ∈ t.events.rows, event.externalEventId = "old" ∧ event.state = .claimed := by
  decide +kernel

end Sample

end Knoa.Automation
