import Knoa.Library.Binary64
import Knoa.Tasks.Repository

/-!
# Recurrence

`ScheduleSpec` with its validation, and `next_fire_at`. A time zone is what the
platform's database makes of a UTC minute. The interval arithmetic rounds as floats do; elsewhere
times are exact.
-/
namespace Knoa.Automation
open Knoa.Tasks (Time isSpace strip)
open Transaction
open Binary64 (roundHalfEven nearest)

inductive AutomationError
  | value (message : String)
  | overflow (message : String)
  | notFound (message : String)
  | idempotencyConflict (message : String)
  | transition (message : String)
  | integrity (constraint : String)
  | runtime (message : String)
  | assertion
  deriving DecidableEq, Repr

/-- `_identifier`. -/
def identifier (value label : String) (limit : Nat) : Except AutomationError String :=
  Tasks.stripped .value value label limit

theorem identifier_ok_iff {value label : String} {limit : Nat} {text : String} :
    identifier value label limit = .ok text ↔
      text = strip value ∧ strip value ≠ "" ∧ (strip value).length ≤ limit :=
  Tasks.stripped_ok_iff

inductive ScheduleKind
  | oneTime
  | interval
  | cron
  deriving DecidableEq, Repr

/-- The fields of a `datetime` that a Cron expression looks at; `weekday` counts from
Monday. -/
structure LocalTime where
  minute : Nat
  hour : Nat
  day : Nat
  month : Nat
  weekday : Nat
  deriving DecidableEq, Repr

/-- A UTC minute, counted from the epoch, in a zone. `astimezone` overflows at the end
of the calendar. -/
abbrev Zone := Nat → Option LocalTime

/-- `ZoneInfo(..)`. -/
abbrev Zones := String → Option Zone

structure ScheduleSpecFields where
  kind : ScheduleKind
  runAt : Option Time := none
  intervalSeconds : Option Time := none
  cronExpression : String := ""
  timezone : String := "Asia/Shanghai"
  deriving DecidableEq

structure ScheduleSpecFields.InRange (f : ScheduleSpecFields) : Prop where
  runAt : ∀ t ∈ f.runAt, 0 ≤ t
  interval : ∀ t ∈ f.intervalSeconds, 60 ≤ t ∧ t ≤ 31536000
  cron : f.cronExpression.length ≤ 128
  timezone : 1 ≤ f.timezone.length ∧ f.timezone.length ≤ 128

/-- `validate_kind_fields`. -/
def ScheduleSpecFields.validateKindFields (zones : Zones) (f : ScheduleSpecFields) :
    Except AutomationError Unit := do
  require ((zones f.timezone).isSome = true) (.value "Schedule timezone is unknown")
  match f.kind with
  | .oneTime =>
    require (¬(f.runAt = none ∨ f.intervalSeconds ≠ none))
      (.value "One-time schedule requires only run_at")
    require (f.cronExpression = "") (.value "One-time schedule cannot contain Cron")
  | .interval =>
    require (¬(f.runAt = none ∨ f.intervalSeconds = none))
      (.value "Interval schedule requires run_at and interval_seconds")
    require (f.cronExpression = "") (.value "Interval schedule cannot contain Cron")
  | .cron =>
    require (¬(f.runAt ≠ none ∨ f.intervalSeconds ≠ none))
      (.value "Cron schedule accepts only cron_expression")
    require (strip f.cronExpression ≠ "") (.value "Cron schedule requires cron_expression")

structure ScheduleSpec (zones : Zones) extends ScheduleSpecFields where
  inRange : toScheduleSpecFields.InRange
  valid : toScheduleSpecFields.validateKindFields zones = .ok ⟨⟩
  deriving DecidableEq

/-- The zeros of the decimal digits that `int` reads. -/
def decimalZeros : List Nat :=
  [0x30, 0x660, 0x6F0, 0x7C0, 0x966, 0x9E6, 0xA66, 0xAE6, 0xB66, 0xBE6, 0xC66, 0xCE6, 0xD66, 0xDE6,
    0xE50, 0xED0, 0xF20, 0x1040, 0x1090, 0x17E0, 0x1810, 0x1946, 0x19D0, 0x1A80, 0x1A90, 0x1B50,
    0x1BB0, 0x1C40, 0x1C50, 0xA620, 0xA8D0, 0xA900, 0xA9D0, 0xA9F0, 0xAA50, 0xABF0, 0xFF10, 0x104A0,
    0x10D30, 0x11066, 0x110F0, 0x11136, 0x111D0, 0x112F0, 0x11450, 0x114D0, 0x11650, 0x116C0,
    0x11730, 0x118E0, 0x11950, 0x11C50, 0x11D50, 0x11DA0, 0x16A60, 0x16AC0, 0x16B50, 0x1D7CE,
    0x1D7D8, 0x1D7E2, 0x1D7EC, 0x1D7F6, 0x1E140, 0x1E2F0, 0x1E950, 0x1FBF0]

def decimalDigit (c : Char) : Option Nat :=
  (decimalZeros.find? (fun first => first ≤ c.toNat && c.toNat < first + 10)).map (c.toNat - ·)

/-- More digits, with single underscores between them. -/
def decimalFrom (value : Nat) : List Char → Option Nat
  | [] => some value
  | '_' :: c :: rest => (decimalDigit c).bind (fun digit => decimalFrom (10 * value + digit) rest)
  | c :: rest => (decimalDigit c).bind (fun digit => decimalFrom (10 * value + digit) rest)

def decimal : List Char → Option Nat
  | [] => none
  | c :: rest => (decimalDigit c).bind (fun digit => decimalFrom digit rest)

/-- `int(text)`. -/
def parseInt (text : List Char) : Option Int :=
  match (strip (String.ofList text)).toList with
  | '-' :: rest => (decimal rest).map (fun value => -(value : Int))
  | '+' :: rest => (decimal rest).map (fun value => (value : Int))
  | rest => (decimal rest).map (fun value => (value : Int))

structure CronField where
  values : List Int
  unrestricted : Bool
  deriving DecidableEq, Repr

/-- `range(start, stop + 1, step)`. -/
def steppedRange (start stop step : Int) : List Int :=
  (List.range ((stop - start) / step + 1).toNat).map (fun k => start + step * (k : Int))

def cronBounds (base : List Char) (minimum maximum : Int) : Except AutomationError (Int × Int) :=
  if base = ['*'] then .ok (minimum, maximum)
  else if '-' ∈ base then do
    let bounds := (base.takeWhile (· ≠ '-'), (base.dropWhile (· ≠ '-')).tail)
    let start ← orRaise (parseInt bounds.1) (.value "Cron range must contain integers")
    let stop ← orRaise (parseInt bounds.2) (.value "Cron range must contain integers")
    return (start, stop)
  else do
    let value ← orRaise (parseInt base) (.value "Cron value must be an integer")
    return (value, value)

def cronStep (item : List Char) : Except AutomationError Int :=
  if '/' ∈ item then do
    let step ← orRaise (parseInt (item.dropWhile (· ≠ '/')).tail)
      (.value "Cron step must be an integer")
    require (0 < step) (.value "Cron step must be positive")
    return step
  else return 1

def cronItem (minimum maximum : Int) (sunday : Bool) (item : List Char) :
    Except AutomationError (List Int) := do
  let step ← cronStep item
  let bounds ← cronBounds (item.takeWhile (· ≠ '/')) minimum maximum
  let allowedMaximum := if sunday = true ∧ maximum = 6 then 7 else maximum
  require (¬(bounds.1 < minimum ∨ allowedMaximum < bounds.2 ∨ bounds.2 < bounds.1))
    (.value "Cron value is outside its allowed range")
  return (steppedRange bounds.1 bounds.2 step).map
    (fun value => if sunday = true ∧ value = 7 then 0 else value)

def cronField (raw : List Char) (minimum maximum : Int) (sunday : Bool := false) :
    Except AutomationError CronField := do
  let text := (strip (String.ofList raw)).toList
  require (text ≠ []) (.value "Cron field must not be empty")
  let items ← (text.splitOn ',').mapM (cronItem minimum maximum sunday)
  return { values := items.flatten, unrestricted := text == ['*'] }

structure CronFields where
  minute : CronField
  hour : CronField
  day : CronField
  month : CronField
  weekday : CronField
  deriving DecidableEq, Repr

def parseCron (expression : String) : Except AutomationError CronFields :=
  match (expression.toList.splitOnP isSpace).filter (· ≠ []) with
  | [minute, hour, day, month, weekday] => do
    let minute ← cronField minute 0 59
    let hour ← cronField hour 0 23
    let day ← cronField day 1 31
    let month ← cronField month 1 12
    let weekday ← cronField weekday 0 6 true
    return { minute := minute, hour, day, month, weekday }
  | _ => .error (.value "Cron expression must contain five fields")

def cronMatches (clock : LocalTime) (fields : CronFields) : Bool :=
  let cronWeekday : Int := ((clock.weekday + 1) % 7 : Nat)
  let dayMatches := (clock.day : Int) ∈ fields.day.values
  let weekdayMatches := cronWeekday ∈ fields.weekday.values
  let calendarMatches :=
    if fields.day.unrestricted && fields.weekday.unrestricted then True
    else if fields.day.unrestricted then weekdayMatches
    else if fields.weekday.unrestricted then dayMatches
    else dayMatches ∨ weekdayMatches
  (clock.minute : Int) ∈ fields.minute.values ∧ (clock.hour : Int) ∈ fields.hour.values ∧
    (clock.month : Int) ∈ fields.month.values ∧ calendarMatches

/-- The first UTC minute that is no `datetime`. -/
def lastMinute : Nat := 4223371680

/-- The UTC minute of `datetime.fromtimestamp(..)`, which rounds to microseconds. -/
def utcMinute (timestamp : Time) : Except AutomationError Nat := do
  let minute := (roundHalfEven (timestamp * 1000000) / 60000000).toNat
  require (minute < lastMinute) (.value "year is out of range")
  return minute

def cronSearch (zone : Zone) (fields : CronFields) : Nat → Nat → Except AutomationError Time
  | 0, _ => .error (.value "Cron expression has no occurrence within one year")
  | fuel + 1, cursor =>
    if cursor < lastMinute then
      match zone cursor with
      | none => .error (.overflow "date value out of range")
      | some clock =>
        if cronMatches clock fields then .ok (60 * cursor)
        else cronSearch zone fields fuel (cursor + 1)
    else .error (.overflow "date value out of range")

def searchedMinutes : Nat := 366 * 24 * 60

/-- `spec.run_at + ordinal * spec.interval_seconds`, where every operation rounds. -/
def intervalNext (runAt interval after : Time) : Time :=
  let elapsed := nearest (after - runAt)
  let ordinal : Int := ⌊nearest (elapsed / interval)⌋ + 1
  nearest (runAt + nearest (nearest ordinal * interval))

/-- The first occurrence strictly after `after`. -/
def nextFireAt (zones : Zones) (spec : ScheduleSpecFields) (after : Time) :
    Except AutomationError (Option Time) := do
  require (0 ≤ after) (.value "Schedule cursor must be a finite non-negative timestamp")
  match spec.kind with
  | .oneTime => do
    let runAt ← orRaise spec.runAt .assertion
    return if after < runAt then some runAt else none
  | .interval => do
    let runAt ← orRaise spec.runAt .assertion
    let interval ← orRaise spec.intervalSeconds .assertion
    return some (if after < runAt then runAt else intervalNext runAt interval after)
  | .cron => do
    let fields ← parseCron spec.cronExpression
    let zone ← orRaise (zones spec.timezone) (.value "Schedule timezone is unknown")
    let minute ← utcMinute after
    let next ← cronSearch zone fields searchedMinutes (minute + 1)
    return some next

def CronOccurs (zone : Zone) (fields : CronFields) (cursor fuel : Nat) : Prop :=
  ∃ k < fuel, (∀ j ≤ k, cursor + j < lastMinute ∧ zone (cursor + j) ≠ none) ∧
    ∃ clock, zone (cursor + k) = some clock ∧ cronMatches clock fields = true

def Recurs (zones : Zones) (spec : ScheduleSpecFields) (after : Time) : Prop :=
  spec.kind = .cron → ∃ fields zone minute, parseCron spec.cronExpression = .ok fields ∧
    zones spec.timezone = some zone ∧ utcMinute after = .ok minute ∧
      CronOccurs zone fields (minute + 1) searchedMinutes

/-- What an interval schedule computes is ahead of the instant. -/
def Advances (spec : ScheduleSpecFields) (after : Time) : Prop :=
  spec.kind = .interval → ∀ runAt ∈ spec.runAt, ∀ interval ∈ spec.intervalSeconds, runAt ≤ after →
    after < intervalNext runAt interval after

instance (spec : ScheduleSpecFields) (after : Time) : Decidable (Advances spec after) := by
  unfold Advances
  infer_instance

theorem utcMinute_after {after : Time} {minute : Nat} (positive : 0 ≤ after)
    (h : utcMinute after = .ok minute) : after < 60 * ((minute + 1 : Nat) : Rat) := by
  obtain ⟨_, -, h⟩ := of_bind h
  cases h
  have rounded := Binary64.roundHalfEven_ge (after * 1000000)
  generalize roundHalfEven (after * 1000000) = micros at rounded ⊢
  have nonneg : (-1 : Rat) < micros := by linarith [mul_nonneg positive (by norm_num : (0:Rat) ≤ 1000000)]
  have bound : micros + 1 ≤ 60000000 * (((micros / 60000000).toNat + 1 : Nat) : Int) := by
    omega
  have cast : (micros : Rat) + 1 ≤ 60000000 * (((micros / 60000000).toNat + 1 : Nat) : Rat) := by
    exact_mod_cast bound
  linarith

section Searching

variable {zones : Zones} {zone : Zone} {fields : CronFields} {cursor fuel : Nat} {after t : Time}
  {spec : ScheduleSpecFields}

theorem cronSearch_ge (h : cronSearch zone fields fuel cursor = .ok t) :
    60 * (cursor : Rat) ≤ t := by
  induction fuel generalizing cursor with
  | zero => cases h
  | succ fuel ih =>
    unfold cronSearch at h
    split at h
    · split at h
      · cases h
      · split at h
        · cases h
          exact le_refl _
        · have later := ih h
          push_cast at later
          linarith
    · cases h

theorem cronSearch_ok_iff :
    (∃ t, cronSearch zone fields fuel cursor = .ok t) ↔ CronOccurs zone fields cursor fuel := by
  induction fuel generalizing cursor with
  | zero =>
    constructor
    · rintro ⟨t, h⟩
      cases h
    · rintro ⟨k, none, -⟩
      exact absurd none (Nat.not_lt_zero k)
  | succ fuel ih =>
    unfold cronSearch
    constructor
    · rintro ⟨t, h⟩
      split at h
      · rename_i early
        split at h
        · cases h
        · rename_i clock read
          have here : ∀ {j}, j = 0 → cursor + j < lastMinute ∧ zone (cursor + j) ≠ none := by
            rintro j rfl
            rw [Nat.add_zero, read]
            exact ⟨early, by simp⟩
          split at h
          · rename_i matched
            refine ⟨0, by omega, ?_, clock, read, matched⟩
            intro j bound
            exact here (Nat.le_zero.mp bound)
          · obtain ⟨k, bound, calendar, clock', read', matched⟩ := ih.mp ⟨t, h⟩
            refine ⟨k + 1, by omega, ?_, clock', ?_, matched⟩
            · intro j below
              cases j with
              | zero => exact here rfl
              | succ j =>
                have next := calendar j (by omega)
                rw [show cursor + (j + 1) = cursor + 1 + j by omega]
                exact next
            · rw [show cursor + (k + 1) = cursor + 1 + k by omega]
              exact read'
      · cases h
    · rintro ⟨k, bound, calendar, clock, read, matched⟩
      obtain ⟨early, known⟩ := calendar 0 (by omega)
      rw [Nat.add_zero] at early known
      obtain ⟨first, found⟩ := Option.ne_none_iff_exists'.mp known
      rw [if_pos early, found]
      dsimp only
      by_cases now : cronMatches first fields = true
      · rw [if_pos now]
        exact ⟨_, rfl⟩
      · rw [if_neg now]
        apply ih.mpr
        cases k with
        | zero =>
          rw [Nat.add_zero, found, Option.some.injEq] at read
          rw [read] at now
          exact absurd matched now
        | succ k =>
          refine ⟨k, by omega, ?_, clock, ?_, matched⟩
          · intro j below
            have next := calendar (j + 1) (by omega)
            rw [show cursor + 1 + j = cursor + (j + 1) by omega]
            exact next
          · rw [show cursor + 1 + k = cursor + (k + 1) by omega]
            exact read

theorem nextFireAt_interval (kind : spec.kind = .interval) {runAt interval : Time}
    (anchor : spec.runAt = some runAt) (every : spec.intervalSeconds = some interval)
    (started : 0 ≤ after) : nextFireAt zones spec after =
      .ok (some (if after < runAt then runAt else intervalNext runAt interval after)) := by
  unfold nextFireAt
  simp only [require_of started, kind, anchor, every, orRaise, ok_bind]
  rfl

theorem nextFireAt_after (advances : Advances spec after)
    (h : nextFireAt zones spec after = .ok (some t)) : after < t := by
  obtain ⟨_, started, h⟩ := of_bind h
  rw [require_ok_iff] at started
  split at h
  · obtain ⟨runAt, -, h⟩ := of_bind h
    have returned := Except.ok.inj h
    split at returned <;> cases returned
    rename_i later
    exact later
  · rename_i kind
    obtain ⟨runAt, anchor, interval, every, h⟩ := of_bind₂ h
    rw [orRaise_ok_iff] at anchor every
    cases h
    split
    · rename_i later
      exact later
    · rename_i late
      exact advances kind runAt anchor interval every (not_lt.mp late)
  · obtain ⟨fields, -, zone, -, minute, read, next, found, h⟩ := of_bind₄ h
    cases h
    exact lt_of_lt_of_le (utcMinute_after started read) (cronSearch_ge found)

theorem intervalNext_nonneg {runAt interval : Time} (started : 0 ≤ runAt) (positive : 0 ≤ interval)
    (late : runAt ≤ after) : 0 ≤ intervalNext runAt interval after := by
  have elapsed := Binary64.nearest_nonneg (sub_nonneg.mpr late)
  have quotient := Binary64.nearest_nonneg (div_nonneg elapsed positive)
  have ordinal : (0 : Rat) ≤ ((⌊nearest (nearest (after - runAt) / interval)⌋ + 1 : Int) : Rat) :=
    Int.cast_nonneg (by have := Int.floor_nonneg.mpr quotient; omega)
  have product := Binary64.nearest_nonneg (mul_nonneg (Binary64.nearest_nonneg ordinal) positive)
  exact Binary64.nearest_nonneg (add_nonneg started product)

theorem nextFireAt_nonneg (spec : ScheduleSpec zones)
    (found : nextFireAt zones spec.toScheduleSpecFields after = .ok (some t)) : 0 ≤ t := by
  obtain ⟨_, started, h⟩ := of_bind found
  rw [require_ok_iff] at started
  by_cases kind : spec.kind = .interval
  · rw [kind] at h
    obtain ⟨runAt, anchor, interval, every, h⟩ := of_bind₂ h
    rw [orRaise_ok_iff] at anchor every
    cases h
    have anchored := spec.inRange.runAt runAt anchor
    have positive : (0 : Rat) ≤ interval := by linarith [(spec.inRange.interval interval every).1]
    split
    · exact anchored
    · rename_i late
      exact intervalNext_nonneg anchored positive (not_lt.mp late)
  · exact started.trans (nextFireAt_after (fun is => absurd is kind) found).le

theorem nextFireAt_ok_iff (spec : ScheduleSpec zones) (started : 0 ≤ after) :
    (∃ due, nextFireAt zones spec.toScheduleSpecFields after = .ok due) ↔
      Recurs zones spec.toScheduleSpecFields after := by
  have valid := spec.valid
  obtain ⟨_, -, valid⟩ := of_bind valid
  unfold nextFireAt Recurs
  rw [require_of started, ok_bind]
  cases kind : spec.kind with
  | oneTime =>
    rw [kind] at valid
    obtain ⟨_, given, -⟩ := of_bind valid
    rw [require_ok_iff, not_or] at given
    obtain ⟨runAt, given⟩ := Option.ne_none_iff_exists'.mp given.1
    rw [given]
    simp [orRaise]
  | interval =>
    rw [kind] at valid
    obtain ⟨_, given, -⟩ := of_bind valid
    rw [require_ok_iff, not_or] at given
    obtain ⟨runAt, given_run⟩ := Option.ne_none_iff_exists'.mp given.1
    obtain ⟨interval, given_interval⟩ := Option.ne_none_iff_exists'.mp given.2
    rw [given_run, given_interval]
    simp only [orRaise, ok_bind, reduceCtorEq, false_implies, iff_true]
    exact ⟨_, rfl⟩
  | cron =>
    constructor
    · rintro ⟨due, h⟩ -
      obtain ⟨fields, parsed, zone, known, minute, read, next, found, h⟩ := of_bind₄ h
      rw [orRaise_ok_iff] at known
      exact ⟨fields, zone, minute, parsed, known, read, cronSearch_ok_iff.mp ⟨next, found⟩⟩
    · intro recurs
      obtain ⟨fields, zone, minute, parsed, known, read, occurs⟩ := recurs rfl
      obtain ⟨next, found⟩ := cronSearch_ok_iff.mpr occurs
      refine ⟨some next, ?_⟩
      rw [parsed, ok_bind, known]
      change (utcMinute after >>= _) = _
      rw [read, ok_bind, found]
      rfl

end Searching

end Knoa.Automation
