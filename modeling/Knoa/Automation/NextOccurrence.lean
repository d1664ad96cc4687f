import Knoa.Automation.Recurrence

/-!
# The next occurrence

What `next_fire_at` returns against the occurrences that a schedule has, and what its repeated
application visits.
-/
namespace Knoa.Automation
open Knoa.Tasks (Time isSpace strip)
open Transaction
open Binary64 (nearest)

section Repeated

variable {ε : Type} {next : Time → Except ε (Option Time)} {occurs : Time → Prop}

/-- The occurrences that repeated application of `next` meets. -/
def firesFrom (next : Time → Except ε (Option Time)) : Nat → Time → List Time
  | 0, _ => []
  | n + 1, after =>
    match next after with
    | .ok (some t) => t :: firesFrom next n t
    | _ => []

/-- What is returned is the least occurrence after the instant. -/
def LeastAfter (occurs : Time → Prop) (after : Time) (result : Except ε (Option Time)) : Prop :=
  ∀ t, result = .ok (some t) → occurs t ∧ after < t ∧ ∀ u, occurs u → after < u → t ≤ u

/-- Every occurrence up to the last one that `n` applications meet is met exactly once. -/
def Visits (occurs : Time → Prop) (next : Time → Except ε (Option Time)) (after : Time) (n : Nat) :
    Prop :=
  (firesFrom next n after).Pairwise (· < ·) ∧ ∀ u, u ∈ firesFrom next n after ↔
    occurs u ∧ after < u ∧ ∃ t ∈ firesFrom next n after, u ≤ t

variable {after : Time} {n : Nat}

theorem Visits.succ (first : LeastAfter occurs after (next after))
    (rest : ∀ t, next after = .ok (some t) → Visits occurs next t n) :
    Visits occurs next after (n + 1) := by
  unfold Visits firesFrom
  split
  next t returned =>
    obtain ⟨here, later, smallest⟩ := first t returned
    obtain ⟨sorted, members⟩ := rest t returned
    refine ⟨List.pairwise_cons.mpr ⟨fun u member => ((members u).mp member).2.1, sorted⟩, ?_⟩
    intro u
    constructor
    · intro member
      rcases List.mem_cons.mp member with rfl | tail
      · exact ⟨here, later, u, List.mem_cons_self, le_rfl⟩
      · obtain ⟨occurs, above, bound⟩ := (members u).mp tail
        exact ⟨occurs, later.trans above, u, member, le_rfl⟩
    · rintro ⟨occurs, above, v, member, below⟩
      rcases (smallest u occurs above).eq_or_lt with rfl | beyond
      · exact List.mem_cons_self
      · rcases List.mem_cons.mp member with rfl | tail
        · exact absurd below (not_le.mpr beyond)
        · exact List.mem_cons_of_mem _ ((members u).mpr ⟨occurs, beyond, v, tail, below⟩)
  next => exact ⟨.nil, fun u => ⟨nofun, fun ⟨_, _, t, member, _⟩ => nomatch member⟩⟩

theorem visits_zero : Visits occurs next after 0 :=
  ⟨.nil, fun _ => ⟨nofun, fun ⟨_, _, _, member, _⟩ => nomatch member⟩⟩

theorem visits_of_least (least : ∀ t, occurs t → LeastAfter occurs t (next t))
    (first : LeastAfter occurs after (next after)) : Visits occurs next after n := by
  induction n generalizing after with
  | zero => exact visits_zero
  | succ n ih => exact .succ first fun t returned => ih (least t (first t returned).1)

/-- Behind the first occurrence the visits go on, and the second is the least after it. -/
theorem Visits.tail {t : Time} (visits : Visits occurs next after (n + 2))
    (returned : next after = .ok (some t)) :
    LeastAfter occurs t (next t) ∧ Visits occurs next t (n + 1) := by
  obtain ⟨sorted, members⟩ := visits
  have list : firesFrom next (n + 2) after = t :: firesFrom next (n + 1) t := by
    rw [firesFrom, returned]
  rw [list, List.pairwise_cons] at sorted
  rw [list] at members
  have above : after < t := ((members t).mp List.mem_cons_self).2.1
  have tail : ∀ u, u ∈ firesFrom next (n + 1) t ↔
      occurs u ∧ t < u ∧ ∃ v ∈ firesFrom next (n + 1) t, u ≤ v := by
    intro u
    constructor
    · intro member
      exact ⟨((members u).mp (List.mem_cons_of_mem _ member)).1, sorted.1 u member, u, member, le_rfl⟩
    · rintro ⟨due, beyond, v, member, below⟩
      have listed := (members u).mpr
        ⟨due, above.trans beyond, v, List.mem_cons_of_mem _ member, below⟩
      exact (List.mem_cons.mp listed).resolve_left beyond.ne'
  refine ⟨?_, sorted.2, tail⟩
  intro v found
  have second : firesFrom next (n + 1) t = v :: firesFrom next n v := by rw [firesFrom, found]
  rw [second] at tail sorted
  obtain ⟨due, beyond, -⟩ := (tail v).mp List.mem_cons_self
  refine ⟨due, beyond, ?_⟩
  intro u occurs later
  by_contra below
  rcases List.mem_cons.mp ((tail u).mpr ⟨occurs, later, v, List.mem_cons_self, (not_le.mp below).le⟩)
    with rfl | rest
  · exact below le_rfl
  · exact below ((List.pairwise_cons.mp sorted.2).1 u rest).le

end Repeated

def FieldLists (raw : List Char) (minimum maximum : Int) (sunday : Bool) (v : Int) : Prop :=
  ∃ item ∈ (strip (String.ofList raw)).toList.splitOn ',', ∃ step bounds w,
    cronStep item = .ok step ∧ cronBounds (item.takeWhile (· ≠ '/')) minimum maximum = .ok bounds ∧
      bounds.1 ≤ w ∧ w ≤ bounds.2 ∧ step ∣ w - bounds.1 ∧ v = if sunday = true ∧ w = 7 then 0 else w

def Star (raw : List Char) : Prop := strip (String.ofList raw) = "*"

def CronFires (expression : String) (clock : LocalTime) : Prop :=
  ∃ minute hour day month weekday,
    (expression.toList.splitOnP isSpace).filter (· ≠ []) = [minute, hour, day, month, weekday] ∧
    FieldLists minute 0 59 false clock.minute ∧ FieldLists hour 0 23 false clock.hour ∧
    FieldLists month 1 12 false clock.month ∧
    ((Star day ∨ FieldLists day 1 31 false clock.day) ∧
        (Star weekday ∨ FieldLists weekday 0 6 true ((clock.weekday + 1) % 7 : Nat)) ∨
      ¬ Star day ∧ ¬ Star weekday ∧ (FieldLists day 1 31 false clock.day ∨
        FieldLists weekday 0 6 true ((clock.weekday + 1) % 7 : Nat)))

theorem mem_steppedRange {start stop step v : Int} (positive : 0 < step) :
    v ∈ steppedRange start stop step ↔ start ≤ v ∧ v ≤ stop ∧ step ∣ v - start := by
  simp only [steppedRange, List.mem_map, List.pure_def, List.bind_eq_flatMap, List.mem_flatMap,
    List.mem_singleton, List.mem_range]
  constructor
  · rintro ⟨_, ⟨k, member, rfl⟩, rfl⟩
    have bound : (k : Int) ≤ (stop - start) / step := by omega
    have below := (Int.le_ediv_iff_mul_le positive).mp bound
    have zero : 0 ≤ step * (k : Int) := mul_nonneg positive.le (Int.natCast_nonneg k)
    rw [mul_comm] at below
    exact ⟨by omega, by omega, k, by omega⟩
  · rintro ⟨low, high, k, multiple⟩
    have nonneg : 0 ≤ k := by
      by_contra negative
      have := mul_neg_of_pos_of_neg positive (not_le.mp negative)
      omega
    have bound : k ≤ (stop - start) / step := by
      refine (Int.le_ediv_iff_mul_le positive).mpr ?_
      rw [mul_comm]
      omega
    exact ⟨k, ⟨k.toNat, by omega, by omega⟩, by omega⟩

theorem cronStep_pos {item : List Char} {step : Int} (h : cronStep item = .ok step) : 0 < step := by
  unfold cronStep at h
  split at h
  · obtain ⟨read, -, _, positive, h⟩ := of_bind₂ h
    cases h
    exact require_ok_iff.mp positive
  · cases h
    exact Int.one_pos

variable {minimum maximum : Int} {sunday : Bool}

theorem mem_cronItem {item : List Char} {values : List Int}
    (h : cronItem minimum maximum sunday item = .ok values) (v : Int) :
    v ∈ values ↔ ∃ step bounds w, cronStep item = .ok step ∧
      cronBounds (item.takeWhile (· ≠ '/')) minimum maximum = .ok bounds ∧
      bounds.1 ≤ w ∧ w ≤ bounds.2 ∧ step ∣ w - bounds.1 ∧
        v = if sunday = true ∧ w = 7 then 0 else w := by
  obtain ⟨step, read, bounds, bounded, _, -, h⟩ := of_bind₃ h
  cases h
  simp only [List.mem_map, mem_steppedRange (cronStep_pos read)]
  constructor
  · rintro ⟨w, ⟨low, high, multiple⟩, rfl⟩
    exact ⟨step, bounds, w, read, bounded, low, high, multiple, rfl⟩
  · rintro ⟨step', bounds', w, read', bounded', low, high, multiple, rfl⟩
    cases read.symm.trans read'
    cases bounded.symm.trans bounded'
    exact ⟨w, ⟨low, high, multiple⟩, rfl⟩

theorem mem_flatten_mapM {α β : Type} {f : α → Except AutomationError (List β)} {xs : List α}
    {ys : List (List β)} (h : xs.mapM f = .ok ys) (v : β) :
    v ∈ ys.flatten ↔ ∃ x ∈ xs, ∃ values, f x = .ok values ∧ v ∈ values := by
  induction xs generalizing ys with
  | nil =>
    cases h
    exact ⟨nofun, fun ⟨_, member, _⟩ => nomatch member⟩
  | cons x xs ih =>
    rw [List.mapM_cons] at h
    obtain ⟨first, read, rest, later, h⟩ := of_bind₂ h
    cases h
    rw [List.flatten_cons, List.mem_append, ih later]
    simp [read]

theorem mem_cronField {raw : List Char} {field : CronField}
    (h : cronField raw minimum maximum sunday = .ok field) (v : Int) :
    v ∈ field.values ↔ FieldLists raw minimum maximum sunday v := by
  obtain ⟨_, -, items, read, h⟩ := of_bind₂ h
  cases h
  rw [mem_flatten_mapM read]
  refine exists_congr fun item => and_congr_right fun member => ?_
  obtain ⟨values, -, given⟩ := Transaction.mapM_ok read item member
  constructor
  · rintro ⟨values, given, listed⟩
    exact (mem_cronItem given v).mp listed
  · intro listed
    exact ⟨values, given, (mem_cronItem given v).mpr listed⟩

theorem cronField_unrestricted {raw : List Char} {field : CronField}
    (h : cronField raw minimum maximum sunday = .ok field) :
    field.unrestricted = true ↔ Star raw := by
  obtain ⟨_, -, items, -, h⟩ := of_bind₂ h
  cases h
  have chars : "*".toList = ['*'] := rfl
  rw [beq_iff_eq, ← chars]
  exact String.toList_inj

theorem calendar_iff (days weekdays : Bool) (p q : Prop) : (if (days && weekdays) = true then True
      else if days = true then q else if weekdays = true then p else p ∨ q) ↔
      (days = true ∨ p) ∧ (weekdays = true ∨ q) ∨ ¬ days = true ∧ ¬ weekdays = true ∧ (p ∨ q) := by
  cases days <;> cases weekdays <;> simp
  exact fun day _ => .inl day

theorem cronMatches_iff {expression : String} {fields : CronFields} {clock : LocalTime}
    (h : parseCron expression = .ok fields) :
      cronMatches clock fields = true ↔ CronFires expression clock := by
  unfold parseCron at h
  split at h
  case h_2 => cases h
  next minute hour day month weekday parts =>
    obtain ⟨minutes, minuteRead, hours, hourRead, days, dayRead, h⟩ := of_bind₃ h
    obtain ⟨months, monthRead, weekdays, weekdayRead, h⟩ := of_bind₂ h
    cases h
    have split : CronFires expression clock ↔ FieldLists minute 0 59 false clock.minute ∧
        FieldLists hour 0 23 false clock.hour ∧ FieldLists month 1 12 false clock.month ∧
        ((Star day ∨ FieldLists day 1 31 false clock.day) ∧
            (Star weekday ∨ FieldLists weekday 0 6 true ((clock.weekday + 1) % 7 : Nat)) ∨
          ¬ Star day ∧ ¬ Star weekday ∧ (FieldLists day 1 31 false clock.day ∨
            FieldLists weekday 0 6 true ((clock.weekday + 1) % 7 : Nat))) := by
      constructor
      · rintro ⟨_, _, _, _, _, same, fires⟩
        cases parts.symm.trans same
        exact fires
      · intro fires
        exact ⟨minute, hour, day, month, weekday, parts, fires⟩
    rw [split, ← mem_cronField minuteRead, ← mem_cronField hourRead, ← mem_cronField monthRead,
      ← mem_cronField dayRead, ← mem_cronField weekdayRead, ← cronField_unrestricted dayRead,
      ← cronField_unrestricted weekdayRead]
    simp only [cronMatches, decide_eq_true_eq]
    exact and_congr_right fun _ => and_congr_right fun _ => and_congr_right fun _ => calendar_iff ..

theorem cronSearch_first {zone : Zone} {fields : CronFields} {clock : Nat → LocalTime}
    (total : ∀ m, zone m = some (clock m)) (fuel cursor : Nat) :
    match cronSearch zone fields fuel cursor with
    | .ok t => ∃ m : Nat, t = 60 * m ∧ cursor ≤ m ∧ m < lastMinute ∧
        cronMatches (clock m) fields = true ∧
        ∀ j, cursor ≤ j → j < m → cronMatches (clock j) fields = false
    | .error _ => ∀ j, cursor ≤ j → j < cursor + fuel → j < lastMinute →
        cronMatches (clock j) fields = false := by
  induction fuel generalizing cursor with
  | zero => exact fun j low high _ => absurd high (by omega)
  | succ fuel ih =>
    simp only [cronSearch, total]
    by_cases early : cursor < lastMinute
    · rw [if_pos early]
      cases here : cronMatches (clock cursor) fields with
      | true => exact ⟨cursor, rfl, le_rfl, early, here, fun j low high => absurd high (by omega)⟩
      | false =>
        rw [if_neg Bool.false_ne_true]
        have later := ih (cursor + 1)
        cases found : cronSearch zone fields fuel (cursor + 1) with
        | ok t =>
          rw [found] at later
          obtain ⟨m, same, low, bound, matched, none⟩ := later
          refine ⟨m, same, by omega, bound, matched, fun j low high => ?_⟩
          rcases low.eq_or_lt with rfl | beyond
          · exact here
          · exact none j beyond high
        | error e =>
          rw [found] at later
          intro j low high bound
          rcases low.eq_or_lt with rfl | beyond
          · exact here
          · exact later j beyond (by omega) bound
    · rw [if_neg early]
      exact fun j low _ bound => absurd bound (by omega)

section Schedules

variable {zones : Zones} {spec : ScheduleSpecFields} {clock : Nat → LocalTime} {after t u : Time}
  {n : Nat}

/-- The occurrences of a schedule in a zone whose clock shows `clock`. -/
def Occurs (spec : ScheduleSpecFields) (clock : Nat → LocalTime) (u : Time) : Prop :=
  match spec.kind with
  | .oneTime => spec.runAt = some u
  | .interval => ∃ runAt ∈ spec.runAt, ∃ interval ∈ spec.intervalSeconds, ∃ k : Nat,
      u = runAt + k * interval
  | .cron => ∃ m : Nat, u = 60 * m ∧ m < lastMinute ∧ CronFires spec.cronExpression (clock m)

def Searched (spec : ScheduleSpecFields) (after u : Time) : Prop :=
  spec.kind = .cron → ∃ minute, utcMinute after = .ok minute ∧ u ≤ 60 * (minute + searchedMinutes : Nat)

/-- The next occurrence, and what `n` applications more visit. -/
structure FiresNext (zones : Zones) (spec : ScheduleSpecFields) (clock : Nat → LocalTime)
    (after : Time) (n : Nat) : Prop where
  least : LeastAfter (Occurs spec clock) after (nextFireAt zones spec after)
  /-- It fails, or returns nothing, only if there is none. -/
  none : (∀ t, nextFireAt zones spec after ≠ .ok (some t)) →
    ∀ u, Occurs spec clock u → after < u → ¬ Searched spec after u
  visits : Visits (Occurs spec clock) (nextFireAt zones spec) after (n + 1)

/-- Rounding to microseconds does not step over an occurrence. -/
def Unskipped (spec : ScheduleSpecFields) (clock : Nat → LocalTime) (after : Time) : Prop :=
  spec.kind = .cron → ∀ minute : Nat, utcMinute after = .ok minute → after < 60 * minute →
    ¬ CronFires spec.cronExpression (clock minute)

/-- The first `runAt + k * interval` after an instant. -/
def occurrenceAfter (runAt interval t : Time) : Time :=
  if t < runAt then runAt else runAt + ((⌊(t - runAt) / interval⌋ + 1 : Int) : Rat) * interval

/-- Rounding carries the quotient over no whole number, and the product and the sum lose nothing. -/
def Lossless (runAt interval t : Time) : Prop :=
  let ordinal : Int := ⌊(t - runAt) / interval⌋ + 1
  ⌊nearest (nearest (t - runAt) / interval)⌋ + 1 = ordinal ∧
    nearest (runAt + nearest (nearest ordinal * interval)) = runAt + ordinal * interval

/-- Nothing is lost at the instant, nor at the `n` occurrences that follow. -/
def Unrounded (spec : ScheduleSpecFields) (after : Time) (n : Nat) : Prop :=
  spec.kind = .interval → ∀ runAt ∈ spec.runAt, ∀ interval ∈ spec.intervalSeconds, ∀ j ≤ n,
    let t := (occurrenceAfter runAt interval)^[j] after
    runAt ≤ t → Lossless runAt interval t

/-- The last occurrence in question lies where floats are at most eight seconds apart. -/
def Spaced (spec : ScheduleSpecFields) (after : Time) (n : Nat) : Prop :=
  spec.kind = .interval → ∀ runAt ∈ spec.runAt, ∀ interval ∈ spec.intervalSeconds,
    max after runAt + (n + 1) * interval ≤ 2 ^ 56

theorem utcMinute_whole (m : Nat) (bound : m < lastMinute) : utcMinute (60 * m) = .ok m := by
  have micros : (60 * m : Rat) * 1000000 = ((60000000 * m : Int) : Rat) := by
    push_cast
    ring
  have rounded : Binary64.roundHalfEven ((60 * m : Rat) * 1000000) = 60000000 * m := by
    rw [micros, Binary64.roundHalfEven_intCast]
  have whole : (60000000 * (m : Int) / 60000000).toNat = m := by omega
  simp only [utcMinute, rounded, whole, require_of bound]
  rfl

theorem utcMinute_before {minute : Nat} (started : 0 ≤ after) (h : utcMinute after = .ok minute) :
    60 * (minute : Rat) ≤ after + 1 / 2000000 := by
  obtain ⟨_, -, h⟩ := of_bind h
  cases h
  have rounded := Binary64.roundHalfEven_le (after * 1000000)
  generalize Binary64.roundHalfEven (after * 1000000) = micros at rounded ⊢
  rcases Nat.eq_zero_or_pos (micros / 60000000).toNat with zero | positive
  · rw [zero]
    norm_num
    linarith
  · have bound : 60000000 * (((micros / 60000000).toNat : Nat) : Int) ≤ micros := by omega
    have cast : 60000000 * (((micros / 60000000).toNat : Nat) : Rat) ≤ micros := by exact_mod_cast bound
    linarith

theorem cron_next {fields : CronFields} (kind : spec.kind = .cron)
    (parsed : parseCron spec.cronExpression = .ok fields)
    (zone : zones spec.timezone = some fun m => some (clock m)) (started : 0 ≤ after) :
    nextFireAt zones spec after = (utcMinute after >>= fun minute =>
      cronSearch (fun m => some (clock m)) fields searchedMinutes (minute + 1) >>= fun next =>
        .ok (some next)) := by
  unfold nextFireAt
  simp only [require_of started, kind, parsed, zone, orRaise, ok_bind]
  rfl

theorem cron_least {fields : CronFields} (kind : spec.kind = .cron)
    (parsed : parseCron spec.cronExpression = .ok fields)
    (zone : zones spec.timezone = some fun m => some (clock m)) (started : 0 ≤ after)
    (unskipped : Unskipped spec clock after) :
    LeastAfter (Occurs spec clock) after (nextFireAt zones spec after) ∧
      ((∀ t, nextFireAt zones spec after ≠ .ok (some t)) →
        ∀ u, Occurs spec clock u → after < u → ¬ Searched spec after u) := by
  have occurs : ∀ u, Occurs spec clock u ↔ ∃ m : Nat, u = 60 * m ∧ m < lastMinute ∧
      cronMatches (clock m) fields = true := by
    intro u
    simp only [Occurs, kind, cronMatches_iff parsed]
  rw [cron_next kind parsed zone started]
  cases read : utcMinute after with
  | error e =>
    refine ⟨nofun, fun _ u _ _ searched => ?_⟩
    obtain ⟨minute, known, -⟩ := searched kind
    cases read.symm.trans known
  | ok minute =>
    rw [ok_bind]
    -- Nothing matches between the instant and the first minute of the search.
    have beyond : ∀ m : Nat, after < 60 * m → cronMatches (clock m) fields = true → minute < m := by
      intro m above matched
      have before := utcMinute_before started read
      by_contra low
      rcases (not_lt.mp low).eq_or_lt with rfl | earlier
      · exact unskipped kind m read above ((cronMatches_iff parsed).mp matched)
      · have cast : (m : Rat) + 1 ≤ minute := by exact_mod_cast earlier
        linarith
    have search := @cronSearch_first (fun m => some (clock m)) fields clock (fun m => rfl)
      searchedMinutes (minute + 1)
    cases found : cronSearch (fun m => some (clock m)) fields searchedMinutes (minute + 1) with
    | ok t =>
      rw [found] at search
      obtain ⟨m, rfl, low, bound, matched, none⟩ := search
      refine ⟨?_, fun never => absurd rfl (never _)⟩
      rintro t ⟨⟩
      have later := utcMinute_after started read
      have cast : ((minute + 1 : Nat) : Rat) ≤ m := by exact_mod_cast low
      refine ⟨(occurs _).mpr ⟨m, rfl, bound, matched⟩, by linarith, ?_⟩
      intro u due above
      obtain ⟨j, rfl, -, fires⟩ := (occurs u).mp due
      by_contra less
      have below : j < m := by exact_mod_cast (by linarith : (j : Rat) < m)
      rw [none j (beyond j above fires) below] at fires
      exact Bool.false_ne_true fires
    | error e =>
      rw [found] at search
      refine ⟨nofun, fun _ u due above searched => ?_⟩
      obtain ⟨j, rfl, bound, fires⟩ := (occurs u).mp due
      obtain ⟨minute', read', within⟩ := searched kind
      cases read.symm.trans read'
      have near : j ≤ minute + searchedMinutes := by
        exact_mod_cast (by linarith : (j : Rat) ≤ (minute + searchedMinutes : Nat))
      rw [search j (beyond j above fires) (by omega) bound] at fires
      exact Bool.false_ne_true fires

/-- Three roundings move an occurrence by little. -/
theorem abs_occurrence_sub_le {runAt interval : Time} {ordinal : Int} (started : 0 ≤ runAt)
    (positive : 0 ≤ interval) (counted : 0 ≤ ordinal) :
    |nearest (runAt + nearest (nearest ordinal * interval)) - (runAt + ordinal * interval)| ≤
      (runAt + ordinal * interval) / 2 ^ 51 := by
  have count : (0 : Rat) ≤ ordinal := by exact_mod_cast counted
  have first := abs_le.mp (Binary64.abs_nearest_sub_le_div count)
  have low := mul_le_mul_of_nonneg_right first.1 positive
  have high := mul_le_mul_of_nonneg_right first.2 positive
  have product := mul_nonneg (Binary64.nearest_nonneg count) positive
  have second := abs_le.mp (Binary64.abs_nearest_sub_le_div product)
  have sum := add_nonneg started (Binary64.nearest_nonneg product)
  have third := abs_le.mp (Binary64.abs_nearest_sub_le_div sum)
  have whole := mul_nonneg count positive
  rw [sub_mul] at low high
  rw [neg_mul, div_mul_eq_mul_div] at low
  rw [div_mul_eq_mul_div] at high
  rw [abs_le]
  constructor <;> linarith

/-- Where floats lie closer than the occurrences, no other ordinal comes to the same instant. -/
theorem ordinal_unique {runAt interval : Time} {found ordinal : Int} (started : 0 ≤ runAt)
    (accepted : 60 ≤ interval) (counted : 0 ≤ found) (bound : runAt + ordinal * interval ≤ 2 ^ 56)
    (same : nearest (runAt + nearest (nearest found * interval)) = runAt + ordinal * interval) :
    found = ordinal := by
  have near := abs_le.mp (abs_occurrence_sub_le started (by linarith : 0 ≤ interval) counted)
  rw [same] at near
  rcases lt_trichotomy found ordinal with less | equal | more
  · have step : (found : Rat) + 1 ≤ ordinal := by exact_mod_cast less
    have scaled := mul_le_mul_of_nonneg_right step (by linarith : 0 ≤ interval)
    rw [add_mul, one_mul] at scaled
    linarith
  · exact equal
  · have step : (ordinal : Rat) + 1 ≤ found := by exact_mod_cast more
    have scaled := mul_le_mul_of_nonneg_right step (by linarith : 0 ≤ interval)
    rw [add_mul, one_mul] at scaled
    linarith

theorem intervalNext_eq {runAt interval t : Time} (started : 0 ≤ runAt)
    (accepted : 60 ≤ interval) (late : runAt ≤ t) :
    (Lossless runAt interval t → intervalNext runAt interval t = occurrenceAfter runAt interval t) ∧
      (occurrenceAfter runAt interval t ≤ 2 ^ 56 →
        intervalNext runAt interval t = occurrenceAfter runAt interval t →
          Lossless runAt interval t) := by
  rw [occurrenceAfter, if_neg (not_lt.mpr late)]
  constructor
  · rintro ⟨quotient, exact_⟩
    simp only [intervalNext, quotient]
    exact exact_
  · intro bound same
    have quotient : 0 ≤ nearest (nearest (t - runAt) / interval) := by
      refine Binary64.nearest_nonneg (div_nonneg (Binary64.nearest_nonneg ?_) ?_)
      · linarith
      · linarith
    have counted := Int.floor_nonneg.mpr quotient
    have unique := ordinal_unique started accepted (by omega) bound same
    simp only [intervalNext, unique] at same
    exact ⟨unique, same⟩

theorem occurrenceAfter_le {runAt interval t : Time} (positive : 0 < interval) :
    runAt ≤ occurrenceAfter runAt interval t ∧
      occurrenceAfter runAt interval t ≤ max t runAt + interval := by
  unfold occurrenceAfter
  split
  next early => exact ⟨le_rfl, by linarith [le_max_right t runAt]⟩
  next late =>
    have elapsed := div_nonneg (sub_nonneg.mpr (not_lt.mp late)) positive.le
    have counted : (0 : Rat) ≤ ⌊(t - runAt) / interval⌋ := by exact_mod_cast Int.floor_nonneg.mpr elapsed
    have floor := Int.floor_le ((t - runAt) / interval)
    rw [le_div_iff₀ positive] at floor
    have product := mul_nonneg counted positive.le
    push_cast
    rw [add_mul, one_mul]
    exact ⟨by linarith, by linarith [le_max_left t runAt]⟩

theorem iterate_occurrenceAfter_le {runAt interval t : Time} (positive : 0 < interval) (j : Nat) :
    max ((occurrenceAfter runAt interval)^[j] t) runAt ≤ max t runAt + j * interval := by
  induction j with
  | zero => simp
  | succ j ih =>
    rw [Function.iterate_succ_apply']
    obtain ⟨low, high⟩ := @occurrenceAfter_le runAt interval
      ((occurrenceAfter runAt interval)^[j] t) positive
    rw [max_eq_left low]
    push_cast
    linarith

/-- The floats come to the exact occurrence, here and at the `n` occurrences that follow. -/
def Arrives (runAt interval after : Time) (n : Nat) : Prop := ∀ j ≤ n,
  runAt ≤ (occurrenceAfter runAt interval)^[j] after →
    intervalNext runAt interval ((occurrenceAfter runAt interval)^[j] after) =
      occurrenceAfter runAt interval ((occurrenceAfter runAt interval)^[j] after)

theorem forall_iterate_succ {P : Time → Prop} {f : Time → Time} {t : Time} {n : Nat} :
    (∀ j ≤ n + 1, P (f^[j] t)) ↔ P t ∧ ∀ j ≤ n, P (f^[j] (f t)) := by
  constructor
  · intro all
    exact ⟨all 0 (Nat.zero_le _), fun j bound => all (j + 1) (Nat.succ_le_succ bound)⟩
  · rintro ⟨here, later⟩ j bound
    cases j with
    | zero => exact here
    | succ j => exact later j (Nat.le_of_succ_le_succ bound)

theorem arrives_succ {runAt interval after : Time} {n : Nat} : Arrives runAt interval after (n + 1) ↔
    (runAt ≤ after → intervalNext runAt interval after = occurrenceAfter runAt interval after) ∧
      Arrives runAt interval (occurrenceAfter runAt interval after) n :=
  forall_iterate_succ (P := fun t => runAt ≤ t →
    intervalNext runAt interval t = occurrenceAfter runAt interval t)

section Interval

variable {runAt interval : Time} (kind : spec.kind = .interval) (anchor : spec.runAt = some runAt)
  (every : spec.intervalSeconds = some interval)
include kind anchor every

theorem occurrenceAfter_least (positive : 0 < interval) :
    Occurs spec clock (occurrenceAfter runAt interval after) ∧
      after < occurrenceAfter runAt interval after ∧
      ∀ u, Occurs spec clock u → after < u → occurrenceAfter runAt interval after ≤ u := by
  have occurs : ∀ u, Occurs spec clock u ↔ ∃ k : Nat, u = runAt + k * interval := by
    intro u
    simp [Occurs, kind, anchor, every]
  unfold occurrenceAfter
  split
  next early =>
    refine ⟨(occurs _).mpr ⟨0, by simp⟩, early, fun u due _ => ?_⟩
    obtain ⟨k, rfl⟩ := (occurs u).mp due
    exact le_add_of_nonneg_right (by positivity)
  next late =>
    have elapsed : 0 ≤ ⌊(after - runAt) / interval⌋ :=
      Int.floor_nonneg.mpr (div_nonneg (by linarith) positive.le)
    refine ⟨(occurs _).mpr ⟨(⌊(after - runAt) / interval⌋ + 1).toNat, ?_⟩, ?_, fun u due above => ?_⟩
    · have cast : (((⌊(after - runAt) / interval⌋ + 1).toNat : Nat) : Int) =
          ⌊(after - runAt) / interval⌋ + 1 := by omega
      rw [← cast]
      push_cast
      rfl
    · have bound := Int.lt_floor_add_one ((after - runAt) / interval)
      rw [div_lt_iff₀ positive] at bound
      push_cast
      linarith
    · obtain ⟨k, rfl⟩ := (occurs u).mp due
      have less : (after - runAt) / interval < ((k : Int) : Rat) := by
        rw [div_lt_iff₀ positive]
        push_cast
        linarith
      have order : ⌊(after - runAt) / interval⌋ + 1 ≤ (k : Int) := Int.floor_lt.mpr less
      have cast : ((⌊(after - runAt) / interval⌋ + 1 : Int) : Rat) ≤ k := by exact_mod_cast order
      have scaled := mul_le_mul_of_nonneg_right cast positive.le
      linarith

theorem interval_least_iff (positive : 0 < interval) (started : 0 ≤ after) :
    LeastAfter (Occurs spec clock) after (nextFireAt zones spec after) ↔
      (runAt ≤ after → intervalNext runAt interval after = occurrenceAfter runAt interval after) := by
  obtain ⟨due, later, least⟩ := @occurrenceAfter_least spec clock after runAt interval kind anchor
    every positive
  rw [nextFireAt_interval kind anchor every started]
  constructor
  · intro first late
    obtain ⟨here, ahead, smallest⟩ := first _ rfl
    rw [if_neg (not_lt.mpr late)] at here ahead smallest
    exact le_antisymm (smallest _ due later) (least _ here ahead)
  · rintro exact_ t ⟨⟩
    split
    next early =>
      rw [occurrenceAfter, if_pos early] at due later least
      exact ⟨due, later, least⟩
    next late =>
      rw [exact_ (not_lt.mp late)]
      exact ⟨due, later, least⟩

theorem unrounded_iff : Unrounded spec after n ↔ ∀ j ≤ n,
    runAt ≤ (occurrenceAfter runAt interval)^[j] after →
      Lossless runAt interval ((occurrenceAfter runAt interval)^[j] after) := by
  simp [Unrounded, kind, anchor, every]

theorem arrives_of_unrounded (started : 0 ≤ runAt) (accepted : 60 ≤ interval)
    (unrounded : Unrounded spec after n) : Arrives runAt interval after n := fun j bound late =>
  (intervalNext_eq started accepted late).1
    ((unrounded_iff kind anchor every).mp unrounded j bound late)

theorem unrounded_of_arrives (started : 0 ≤ runAt) (accepted : 60 ≤ interval)
    (spaced : Spaced spec after n) (arrives : Arrives runAt interval after n) :
    Unrounded spec after n := by
  rw [unrounded_iff kind anchor every]
  intro j bound late
  have positive : 0 < interval := by linarith
  have limit := spaced kind runAt anchor interval every
  have reached := @iterate_occurrenceAfter_le runAt interval after positive j
  have next := (@occurrenceAfter_le runAt interval ((occurrenceAfter runAt interval)^[j] after)
    positive).2
  have count : (j : Rat) ≤ n := by exact_mod_cast bound
  have steps := mul_le_mul_of_nonneg_right count positive.le
  rw [add_mul, one_mul] at limit
  exact (intervalNext_eq started accepted late).2 (by linarith) (arrives j bound late)

theorem interval_visits_iff (positive : 0 < interval) (started : 0 ≤ after) :
    (LeastAfter (Occurs spec clock) after (nextFireAt zones spec after) ∧
      Visits (Occurs spec clock) (nextFireAt zones spec) after (n + 1)) ↔
        Arrives runAt interval after n := by
  have least := @interval_least_iff zones spec clock
  induction n generalizing after with
  | zero =>
    rw [least kind anchor every positive started]
    constructor
    · rintro ⟨here, -⟩ j bound
      rw [Nat.le_zero.mp bound]
      exact here
    · intro all
      have here := all 0 le_rfl
      exact ⟨here, .succ ((least kind anchor every positive started).mpr here)
        fun _ _ => visits_zero⟩
  | succ n ih =>
    obtain ⟨due, later, smallest⟩ := @occurrenceAfter_least spec clock after runAt interval kind
      anchor every positive
    have next : LeastAfter (Occurs spec clock) after (nextFireAt zones spec after) →
        nextFireAt zones spec after = .ok (some (occurrenceAfter runAt interval after)) := by
      intro first
      have found := @nextFireAt_interval zones after spec kind runAt interval anchor every started
      obtain ⟨here, ahead, below⟩ := first _ found
      rw [found, le_antisymm (below _ due later) (smallest _ here ahead)]
    have tail := @ih (occurrenceAfter runAt interval after) (started.trans later.le)
    rw [arrives_succ]
    constructor
    · rintro ⟨first, visits⟩
      exact ⟨(least kind anchor every positive started).mp first,
        tail.mp (visits.tail (next first))⟩
    · rintro ⟨here, rest⟩
      obtain ⟨-, visits⟩ := tail.mpr rest
      have first := (least kind anchor every positive started).mpr here
      refine ⟨first, .succ first fun t returned => ?_⟩
      rw [next first] at returned
      cases returned
      exact visits

end Interval

theorem occurrenceAfter_whole {r i a : Nat} (late : r ≤ a) :
    occurrenceAfter (r : Rat) i a = (r + ((a - r) / i + 1) * i : Nat) := by
  have elapsed : (a : Rat) - r = (a - r : Nat) := (Nat.cast_sub late).symm
  rw [occurrenceAfter, if_neg (not_lt.mpr (by exact_mod_cast late)), elapsed,
    Rat.floor_natCast_div_natCast]
  push_cast
  rfl

theorem lossless_whole {r i a : Nat} (positive : 0 < i) (late : r ≤ a)
    (small : a + i < 2 ^ 53) : Lossless (r : Rat) i a := by
  have elapsed : (a : Rat) - r = (a - r : Nat) := (Nat.cast_sub late).symm
  have less : (a - r) / i * i ≤ a - r := Nat.div_mul_le_self _ _
  have ordinal : ((((a - r) / i : Nat) : Int) + 1 : Int) = (((a - r) / i + 1 : Nat) : Int) := rfl
  have floor : ⌊((a - r : Nat) : Rat) / i⌋ = (((a - r) / i : Nat) : Int) := by
    rw [Rat.floor_natCast_div_natCast]
    rfl
  have product : (((a - r) / i + 1 : Nat) : Rat) * i = (((a - r) / i + 1) * i : Nat) := by
    push_cast
    rfl
  have step : ((a - r) / i + 1) * i = (a - r) / i * i + i := Nat.succ_mul _ _
  have count : (a - r) / i + 1 ≤ ((a - r) / i + 1) * i := Nat.le_mul_of_pos_right _ positive
  simp only [Lossless]
  rw [elapsed, Binary64.nearest_natCast (by omega), Binary64.floor_nearest_div (by omega) positive,
    floor, ordinal, Int.cast_natCast, Binary64.nearest_natCast (by omega), product,
    Binary64.nearest_natCast (by omega), ← Nat.cast_add,
    Binary64.nearest_natCast (by omega)]
  exact ⟨rfl, rfl⟩

/-- Schedules and instants in whole seconds of at most 53 bits lose nothing. -/
theorem unrounded_whole {r i a : Nat} (anchor : spec.runAt = some (r : Rat))
    (every : spec.intervalSeconds = some (i : Rat)) (positive : 0 < i) (late : r ≤ a)
    (small : a + (n + 1) * i < 2 ^ 53) : Unrounded spec a n := by
  intro kind
  refine (?_ : Unrounded spec a n) kind
  rw [unrounded_iff kind anchor every]
  induction n generalizing a with
  | zero =>
    intro j bound
    rw [Nat.le_zero.mp bound]
    exact fun _ => lossless_whole positive late (by omega)
  | succ n ih =>
    have step : (n + 1 + 1) * i = (n + 1) * i + i := Nat.succ_mul _ _
    have less : (a - r) / i * i ≤ a - r := Nat.div_mul_le_self _ _
    have next : ((a - r) / i + 1) * i = (a - r) / i * i + i := Nat.succ_mul _ _
    have count : i ≤ (n + 1) * i := Nat.le_mul_of_pos_left _ (Nat.succ_pos n)
    refine (forall_iterate_succ (P := fun t => (r : Rat) ≤ t → Lossless r i t)).mpr
      ⟨fun _ => lossless_whole positive late (by omega), ?_⟩
    rw [occurrenceAfter_whole late]
    exact ih (by omega) (by omega)

theorem interval_fields (spec : ScheduleSpec zones) (kind : spec.kind = .interval) :
    ∃ runAt interval, spec.runAt = some runAt ∧ spec.intervalSeconds = some interval ∧
      0 ≤ runAt ∧ 60 ≤ interval := by
  have valid := spec.valid
  obtain ⟨_, -, valid⟩ := of_bind valid
  rw [kind] at valid
  obtain ⟨_, given, -⟩ := of_bind valid
  rw [require_ok_iff, not_or] at given
  obtain ⟨runAt, anchor⟩ := Option.ne_none_iff_exists'.mp given.1
  obtain ⟨interval, every⟩ := Option.ne_none_iff_exists'.mp given.2
  exact ⟨runAt, interval, anchor, every, spec.inRange.runAt runAt anchor,
    (spec.inRange.interval interval every).1⟩

theorem next_least (spec : ScheduleSpec zones) (other : spec.kind ≠ .interval)
    (parsed : spec.kind = .cron → ∃ fields, parseCron spec.cronExpression = .ok fields)
    (zone : zones spec.timezone = some fun m => some (clock m)) (started : 0 ≤ after)
    (unskipped : Unskipped spec.toScheduleSpecFields clock after) :
    LeastAfter (Occurs spec.toScheduleSpecFields clock) after
      (nextFireAt zones spec.toScheduleSpecFields after) ∧
      ((∀ t, nextFireAt zones spec.toScheduleSpecFields after ≠ .ok (some t)) →
        ∀ u, Occurs spec.toScheduleSpecFields clock u → after < u →
          ¬ Searched spec.toScheduleSpecFields after u) := by
  have valid := spec.valid
  obtain ⟨_, -, valid⟩ := of_bind valid
  cases kind : spec.kind with
  | cron =>
    obtain ⟨fields, parsed⟩ := parsed kind
    exact cron_least kind parsed zone started unskipped
  | interval => exact absurd kind other
  | oneTime =>
    rw [kind] at valid
    obtain ⟨_, given, -⟩ := of_bind valid
    rw [require_ok_iff, not_or] at given
    obtain ⟨runAt, anchor⟩ := Option.ne_none_iff_exists'.mp given.1
    have occurs : ∀ u, Occurs spec.toScheduleSpecFields clock u ↔ runAt = u := by
      intro u
      simp [Occurs, kind, anchor]
    have next : nextFireAt zones spec.toScheduleSpecFields after =
        .ok (if after < runAt then some runAt else none) := by
      unfold nextFireAt
      simp only [require_of started, kind, anchor, orRaise, ok_bind]
      rfl
    rw [next]
    split
    next later =>
      refine ⟨?_, fun never => absurd rfl (never runAt)⟩
      rintro t ⟨⟩
      exact ⟨(occurs _).mpr rfl, later, fun u due _ => ((occurs u).mp due).le⟩
    next early =>
      refine ⟨by rintro _ ⟨⟩, fun _ u due above => ?_⟩
      rw [← (occurs u).mp due] at above
      exact absurd above early

/-- The next occurrence is found, and the following ones visited, where rounding to microseconds
steps over none and the interval arithmetic loses nothing, and nowhere else below `2 ^ 56`. -/
theorem firesNext_exact (spec : ScheduleSpec zones)
    (parsed : spec.kind = .cron → ∃ fields, parseCron spec.cronExpression = .ok fields)
    (zone : zones spec.timezone = some fun m => some (clock m)) (started : 0 ≤ after) (n : Nat) :
    (Unskipped spec.toScheduleSpecFields clock after ∧ Unrounded spec.toScheduleSpecFields after n →
      FiresNext zones spec.toScheduleSpecFields clock after n) ∧
    (Spaced spec.toScheduleSpecFields after n →
      FiresNext zones spec.toScheduleSpecFields clock after n →
        Unskipped spec.toScheduleSpecFields clock after ∧
          Unrounded spec.toScheduleSpecFields after n) := by
  by_cases kind : spec.kind = .interval
  · obtain ⟨runAt, interval, anchor, every, anchored, accepted⟩ := interval_fields spec kind
    have exact_ := @interval_visits_iff zones spec.toScheduleSpecFields clock after n runAt interval
      kind anchor every (by linarith) started
    have found := @nextFireAt_interval zones after spec.toScheduleSpecFields kind runAt interval anchor
      every started
    constructor
    · rintro ⟨-, unrounded⟩
      obtain ⟨least, visits⟩ :=
        exact_.mpr (arrives_of_unrounded kind anchor every anchored accepted unrounded)
      exact ⟨least, fun never => absurd found (never _), visits⟩
    · intro spaced fires
      refine ⟨fun cron => ?_, unrounded_of_arrives kind anchor every anchored accepted spaced
        (exact_.mp ⟨fires.least, fires.visits⟩)⟩
      rw [kind] at cron
      cases cron
  have only : Unrounded spec.toScheduleSpecFields after n := fun is => absurd is kind
  refine ⟨fun ⟨unskipped, _⟩ => ?_, fun _ fires => ⟨?_, only⟩⟩
  · obtain ⟨least, none⟩ := next_least spec kind parsed zone started unskipped
    refine ⟨least, none, visits_of_least (fun t due => ?_) least⟩
    have positive : 0 ≤ t := by
      unfold Occurs at due
      split at due
      · exact spec.inRange.runAt t due
      · rename_i is
        exact absurd is kind
      · obtain ⟨m, rfl, -⟩ := due
        positivity
    refine (next_least spec kind parsed zone positive ?_).1
    intro cron minute read above
    simp only [Occurs, cron] at due
    obtain ⟨m, rfl, bound, -⟩ := due
    cases (utcMinute_whole m bound).symm.trans read
    exact absurd above (lt_irrefl _)
  · intro cron minute read above here
    obtain ⟨fields, parsed⟩ := parsed cron
    have bound : minute < lastMinute := by
      obtain ⟨_, bound, same⟩ := of_bind read
      cases same
      exact require_ok_iff.mp bound
    have due : Occurs spec.toScheduleSpecFields clock (60 * (minute : Rat)) := by
      simp only [Occurs, cron]
      exact ⟨minute, rfl, bound, here⟩
    refine fires.none ?_ _ due above fun _ => ⟨minute, read, ?_⟩
    · intro t returned
      have least := (fires.least t returned).2.2 _ due above
      rw [cron_next cron parsed zone started, read, ok_bind] at returned
      obtain ⟨next, found, returned⟩ := of_bind returned
      cases returned
      have later := cronSearch_ge found
      push_cast at later
      linarith
    · push_cast
      linarith [(Nat.cast_nonneg searchedMinutes : (0 : Rat) ≤ searchedMinutes)]

end Schedules

/-- A clock that stands still. -/
def stillZones : Zones := fun _ => some fun _ => some ⟨0, 0, 1, 1, 0⟩

def everyMinute : ScheduleSpec stillZones where
  kind := .cron
  cronExpression := "* * * * *"
  timezone := "UTC"
  inRange := ⟨by simp, by simp, by decide, by decide⟩
  valid := by decide +kernel

theorem everyMinute_parsed : ∃ fields, parseCron everyMinute.cronExpression = .ok fields ∧
    cronMatches ⟨0, 0, 1, 1, 0⟩ fields = true := by
  have matched : (parseCron "* * * * *").toOption.map (cronMatches ⟨0, 0, 1, 1, 0⟩) = some true := by
    decide +kernel
  cases read : parseCron "* * * * *" with
  | error e =>
    rw [read] at matched
    cases matched
  | ok fields =>
    rw [read] at matched
    exact ⟨fields, read, Option.some.inj matched⟩

def everyHour : ScheduleSpec stillZones where
  kind := .interval
  runAt := some (1760000000 : Nat)
  intervalSeconds := some (3600 : Nat)
  inRange := ⟨by simp, by simp; norm_num, by decide, by decide⟩
  valid := by decide +kernel

theorem everyMinute_firesNext :
    FiresNext stillZones everyMinute.toScheduleSpecFields (fun _ => ⟨0, 0, 1, 1, 0⟩) 60 1440 ∧
      FiresNext stillZones everyHour.toScheduleSpecFields (fun _ => ⟨0, 0, 1, 1, 0⟩)
        (1760003600 : Nat) 10000 := by
  constructor
  · refine (firesNext_exact everyMinute (fun _ => everyMinute_parsed.imp fun _ h => h.1) rfl
      (by norm_num) 1440).1 ⟨?_, nofun⟩
    intro _ minute read above
    have whole := utcMinute_whole 1 (by decide)
    rw [Nat.cast_one, mul_one] at whole
    cases whole.symm.trans read
    norm_num at above
  · refine (firesNext_exact everyHour nofun rfl (by norm_num) 10000).1 ⟨nofun, ?_⟩
    exact unrounded_whole rfl rfl (by norm_num) (by norm_num) (by norm_num)

/-- An instant short of a minute by less than half a microsecond. -/
theorem everyMinute_skipped : ¬ ∀ (zones : Zones) (spec : ScheduleSpec zones)
    (clock : Nat → LocalTime) (after : Time) (n : Nat),
    (spec.kind = .cron → ∃ fields, parseCron spec.cronExpression = .ok fields) →
    (zones spec.timezone = some fun m => some (clock m)) → 0 ≤ after →
    FiresNext zones spec.toScheduleSpecFields clock after n := by
  intro claim
  obtain ⟨fields, parsed, fires⟩ := everyMinute_parsed
  have returned : nextFireAt stillZones everyMinute.toScheduleSpecFields (599999999 / 10000000) =
      .ok (some 120) := by
    decide +kernel
  have due : Occurs everyMinute.toScheduleSpecFields (fun _ => ⟨0, 0, 1, 1, 0⟩) 60 :=
    ⟨1, by norm_num, by decide, (cronMatches_iff parsed).mp fires⟩
  have least := (claim stillZones everyMinute (fun _ => ⟨0, 0, 1, 1, 0⟩) (599999999 / 10000000) 0
    (fun _ => ⟨fields, parsed⟩) rfl (by norm_num)).least 120 returned
  have bound := least.2.2 60 due (by norm_num)
  norm_num at bound

/-- The floats 60.1 and 1760000060.1: an interval that does not get ahead. -/
example : intervalNext 1760000000 (8458323050155213 / 140737488355328) (3690987646038835 / 2097152) =
    3690987646038835 / 2097152 := by decide +kernel

end Knoa.Automation
