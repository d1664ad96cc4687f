import Mathlib.Data.List.Sort
import Knoa.Automation.Recurrence

/-!
# Schedules

`ScheduleRepository`: schedules, and the occurrences that are claimed for them before
their Tasks are created.
-/
namespace Knoa.Automation
open Knoa.Tasks Relational Transaction

inductive ScheduleState
  | active
  | paused
  | completed
  deriving DecidableEq, Repr

inductive OccurrenceState
  | claimed
  | retryWait
  | taskCreated
  | dead
  deriving DecidableEq, Repr

structure ScheduleRow (zones : Zones) where
  scheduleId : String
  principalId : String
  sessionHandle : String
  clientRequestId : String
  goal : String
  spec : ScheduleSpec zones
  toolsEnabled : Bool
  priority : Int
  state : ScheduleState
  nextFireAt : Option Time
  lastFireAt : Option Time
  fireCount : Nat
  createdAt : Time
  updatedAt : Time
  deriving DecidableEq

structure OccurrenceRow where
  occurrenceId : String
  scheduleId : String
  principalId : String
  sessionHandle : String
  ordinal : Nat
  scheduledFor : Time
  state : OccurrenceState
  attemptCount : Nat
  nextAttemptAt : Option Time
  leaseOwner : String
  leaseExpiresAt : Option Time
  taskId : String
  failureCode : String
  createdAt : Time
  updatedAt : Time
  deriving DecidableEq

/-- The platform's time zones, the first 32 digits of a hash, and the configuration. -/
structure ScheduleEnv where
  zones : Zones
  digest : String → String
  maxDeliveryAttempts : Nat := 5
  retryBaseSeconds : Time := 5
  attempts : 1 ≤ maxDeliveryAttempts ∧ maxDeliveryAttempts ≤ 20 := by decide
  base : 1 ≤ retryBaseSeconds ∧ retryBaseSeconds ≤ 3600 := by norm_num

structure ScheduleStore (zones : Zones) where
  sessions : Table SessionRow.sessionHandle
  schedules : Table (@ScheduleRow.scheduleId zones) := .empty
  occurrences : Table OccurrenceRow.occurrenceId := .empty

/-- The arguments of `create`. -/
structure ScheduleRequest (zones : Zones) where
  scope : RuntimeScope
  clientRequestId : String
  goal : String
  spec : ScheduleSpec zones
  toolsEnabled : Bool := true
  priority : Int := 0
  deriving DecidableEq

namespace ScheduleStore

variable {zones : Zones} (s : ScheduleStore zones)

/-- The occurrences of a schedule, in the order they were claimed. -/
def occurrencesOf (scheduleId : String) : List OccurrenceRow :=
  s.occurrences.owned OccurrenceRow.scheduleId scheduleId

def updateSchedule (scheduleId : String) (f : ScheduleRow zones → ScheduleRow zones)
    (keep : ∀ row, (f row).scheduleId = row.scheduleId := by intro _; rfl) : ScheduleStore zones :=
  { s with schedules := s.schedules.update (fun row => row.scheduleId == scheduleId) f keep }

def updateOccurrence (occurrenceId : String) (f : OccurrenceRow → OccurrenceRow)
    (keep : ∀ row, (f row).occurrenceId = row.occurrenceId := by intro _; rfl) :
    ScheduleStore zones :=
  { s with occurrences :=
      s.occurrences.update (fun row => row.occurrenceId == occurrenceId) f keep }

def ownedSession (scope : RuntimeScope) : Except AutomationError SessionRow :=
  orRaise ((s.sessions.lookup scope.sessionHandle).filter
    (fun row => row.principalId == scope.principalId)) (.notFound "Session not found")

def ownedSchedule (principalId scheduleId : String) :
    Except AutomationError (ScheduleRow zones) :=
  orRaise ((s.schedules.lookup scheduleId).filter (fun row => row.principalId == principalId))
    (.notFound "Schedule not found")

/-- The unique columns of the occurrences. -/
def insertOccurrence (row : OccurrenceRow) : Option (Table OccurrenceRow.occurrenceId) :=
  if s.occurrences.rows.any (fun other =>
      other.scheduleId == row.scheduleId && other.ordinal == row.ordinal) then none
  else s.occurrences.insert row

end ScheduleStore

/-- `_occurrence_id`. -/
def occurrenceId (env : ScheduleEnv) (scheduleId : String) (ordinal : Nat) : String :=
  env.digest (scheduleId ++ "\x00" ++ toString ordinal)

section Operations

variable (env : ScheduleEnv) (now : Time)

def createOnce (request : ScheduleRequest env.zones) (requestId goal : String) (due : Time)
    (candidate : String) :
    Body (ScheduleStore env.zones) AutomationError (ScheduleRow env.zones × Bool) := fun s => do
  let scheduleId ← identifier candidate "schedule_id" 128
  let _ ← s.ownedSession request.scope
  match s.schedules.rows.find? (fun row => row.principalId == request.scope.principalId &&
      row.clientRequestId == requestId) with
  | some record =>
    require (record.sessionHandle = request.scope.sessionHandle ∧ record.goal = goal ∧
        record.spec = request.spec ∧ record.toolsEnabled = request.toolsEnabled ∧
        record.priority = request.priority)
      (.idempotencyConflict "Schedule request ID conflicts with existing input")
    return ((record, false), s)
  | none => do
    let row : ScheduleRow env.zones :=
      { scheduleId, principalId := request.scope.principalId,
        sessionHandle := request.scope.sessionHandle, clientRequestId := requestId, goal,
        spec := request.spec, toolsEnabled := request.toolsEnabled, priority := request.priority,
        state := .active, nextFireAt := some due, lastFireAt := none, fireCount := 0,
        createdAt := now, updatedAt := now }
    let schedules ← orRaise (s.schedules.insert row) (.integrity "runtime_schedules")
    return ((row, true), { s with schedules })

def create (scheduleIds : Nat → String) (request : ScheduleRequest env.zones)
    (s : ScheduleStore env.zones) :
    Except AutomationError (ScheduleRow env.zones × Bool) × ScheduleStore env.zones :=
  let checked := do
    let requestId ← identifier request.clientRequestId "client_request_id" 128
    let goal := strip request.goal
    require (goal ≠ "" ∧ goal.length ≤ 200000)
      (.value "Schedule goal must contain 1-200000 characters")
    require (0 ≤ request.priority ∧ request.priority ≤ 9)
      (.value "Schedule priority must be between 0 and 9")
    let next ← nextFireAt env.zones request.spec.toScheduleSpecFields now
    let due ← orRaise next (.value "Schedule has no future occurrence")
    return (requestId, goal, due)
  match checked with
  | .error e => (.error e, s)
  | .ok (requestId, goal, due) =>
    retrying (· == .integrity "runtime_schedules") (.runtime "Schedule ID allocation failed")
      ((List.range 5).map (fun i =>
        createOnce env now request requestId goal due (scheduleIds i))) s

def pause (principalId scheduleId : String) :
    Body (ScheduleStore env.zones) AutomationError (ScheduleRow env.zones) := fun s => do
  let principal ← identifier principalId "principal_id" 256
  let scheduleId ← identifier scheduleId "schedule_id" 128
  let current ← s.ownedSchedule principal scheduleId
  match current.state with
  | .paused => return (current, s)
  | .completed => .error (.transition "Completed schedule cannot be paused")
  | .active => do
    let stored := s.updateSchedule scheduleId (fun row =>
      { row with state := .paused, updatedAt := now })
    let updated ← orRaise (stored.schedules.lookup scheduleId) .assertion
    return (updated, stored)

def resume (principalId scheduleId : String) :
    Body (ScheduleStore env.zones) AutomationError (ScheduleRow env.zones) := fun s => do
  let principal ← identifier principalId "principal_id" 256
  let scheduleId ← identifier scheduleId "schedule_id" 128
  let current ← s.ownedSchedule principal scheduleId
  match current.state with
  | .active => return (current, s)
  | .completed => .error (.transition "Completed schedule cannot be resumed")
  | .paused => do
    let due ← nextFireAt env.zones current.spec.toScheduleSpecFields now
    let stored := s.updateSchedule scheduleId (fun row =>
      { row with
        state := if due = none then .completed else .active, nextFireAt := due, updatedAt := now })
    let updated ← orRaise (stored.schedules.lookup scheduleId) .assertion
    return (updated, stored)

def OccurrenceRow.due (row : OccurrenceRow) : Bool :=
  (row.state == .retryWait && row.nextAttemptAt.any (· ≤ now)) ||
    (row.state == .claimed && row.leaseExpiresAt.any (· ≤ now))

def occurrenceBefore (a b : OccurrenceRow) : Prop :=
  a.scheduledFor < b.scheduledFor ∨
    a.scheduledFor = b.scheduledFor ∧ a.occurrenceId ≤ b.occurrenceId

instance : DecidableRel occurrenceBefore := fun a b => by unfold occurrenceBefore; infer_instance

def nextOccurrence (s : ScheduleStore env.zones) : Option OccurrenceRow :=
  ((s.occurrences.rows.filter (·.due now)).insertionSort occurrenceBefore).head?

variable {env} in
def ScheduleRow.due (row : ScheduleRow env.zones) : Bool :=
  row.state == .active && row.nextFireAt.any (· ≤ now)

variable {env} in
def scheduleBefore (a b : ScheduleRow env.zones) : Prop :=
  a.nextFireAt.getD 0 < b.nextFireAt.getD 0 ∨
    a.nextFireAt.getD 0 = b.nextFireAt.getD 0 ∧ a.scheduleId ≤ b.scheduleId

instance : DecidableRel (@scheduleBefore env) := fun a b => by
  unfold scheduleBefore
  infer_instance

def nextSchedule (s : ScheduleStore env.zones) : Option (ScheduleRow env.zones) :=
  ((s.schedules.rows.filter (ScheduleRow.due now)).insertionSort scheduleBefore).head?

def claimSchedule (worker : String) (leaseSeconds : Time) (record : ScheduleRow env.zones) :
    Body (ScheduleStore env.zones) AutomationError (Option OccurrenceRow) := fun s => do
  let due ← orRaise record.nextFireAt .assertion
  let ordinal := record.fireCount + 1
  let following ← nextFireAt env.zones record.spec.toScheduleSpecFields (max now due)
  let row : OccurrenceRow :=
    { occurrenceId := occurrenceId env record.scheduleId ordinal, scheduleId := record.scheduleId,
      principalId := record.principalId, sessionHandle := record.sessionHandle, ordinal,
      scheduledFor := due, state := .claimed, attemptCount := 1, nextAttemptAt := none,
      leaseOwner := worker, leaseExpiresAt := some (now + leaseSeconds), taskId := "",
      failureCode := "", createdAt := now, updatedAt := now }
  let occurrences ← orRaise (s.insertOccurrence row) (.integrity "runtime_schedule_occurrences")
  let stored := { s with occurrences }.updateSchedule record.scheduleId
    (fun schedule =>
      { schedule with
        state := if following = none then .completed else .active, nextFireAt := following,
        lastFireAt := some due, fireCount := ordinal, updatedAt := now })
  let claimed ← orRaise (stored.occurrences.lookup row.occurrenceId) .assertion
  return (some claimed, stored)

def claimDue (workerId : String) (leaseSeconds : Time) :
    Body (ScheduleStore env.zones) AutomationError (Option OccurrenceRow) := fun s => do
  let worker ← identifier workerId "worker_id" 128
  require (1 ≤ leaseSeconds ∧ leaseSeconds ≤ 3600)
    (.value "Occurrence lease must be between 1 and 3600 seconds")
  match nextOccurrence env now s with
  | some existing =>
    if existing.state = .claimed ∧ env.maxDeliveryAttempts ≤ existing.attemptCount then
      return (none, s.updateOccurrence existing.occurrenceId (fun row =>
        { row with
          state := .dead, leaseOwner := "", leaseExpiresAt := none,
          failureCode := "delivery_lease_exhausted", updatedAt := now }))
    else do
      let stored := s.updateOccurrence existing.occurrenceId (fun row =>
        { row with
          state := .claimed, attemptCount := row.attemptCount + 1, nextAttemptAt := none,
          leaseOwner := worker, leaseExpiresAt := some (now + leaseSeconds), updatedAt := now })
      let claimed ← orRaise (stored.occurrences.lookup existing.occurrenceId) .assertion
      return (some claimed, stored)
  | none =>
    match nextSchedule env now s with
    | none => return (none, s)
    | some record => claimSchedule env now worker leaseSeconds record s

def markTaskCreated (occurrence taskId : String) :
    Body (ScheduleStore env.zones) AutomationError OccurrenceRow := fun s => do
  let occurrence ← identifier occurrence "occurrence_id" 128
  let task ← identifier taskId "task_id" 128
  let current ← orRaise (s.occurrences.lookup occurrence)
    (.notFound "Schedule occurrence not found")
  if current.state = .taskCreated then do
    require (current.taskId = task) (.idempotencyConflict "Occurrence already created another Task")
    return (current, s)
  else do
    require (current.state = .claimed) (.transition "Occurrence is not claimed")
    let stored := s.updateOccurrence occurrence (fun row =>
      { row with
        state := .taskCreated, taskId := task, leaseOwner := "", leaseExpiresAt := none,
        failureCode := "", updatedAt := now })
    let updated ← orRaise (stored.occurrences.lookup occurrence) .assertion
    return (updated, stored)

def markDeliveryFailed (occurrence failureCode : String) :
    Body (ScheduleStore env.zones) AutomationError OccurrenceRow := fun s => do
  let occurrence ← identifier occurrence "occurrence_id" 128
  let failure ← identifier failureCode "failure_code" 256
  let current ← orRaise (s.occurrences.lookup occurrence)
    (.notFound "Schedule occurrence not found")
  require (current.state = .claimed) (.transition "Occurrence is not claimed")
  let exhausted := env.maxDeliveryAttempts ≤ current.attemptCount
  let stored := s.updateOccurrence occurrence (fun row =>
    { row with
      state := if exhausted then .dead else .retryWait
      nextAttemptAt :=
        if exhausted then none
        else some (now + env.retryBaseSeconds * 2 ^ (current.attemptCount - 1))
      leaseOwner := ""
      leaseExpiresAt := none
      failureCode := failure
      updatedAt := now })
  let updated ← orRaise (stored.occurrences.lookup occurrence) .assertion
  return (updated, stored)

end Operations

/-- A call of the repository, with the time it reads. -/
inductive ScheduleOp (zones : Zones)
  | create (now : Time) (scheduleIds : Nat → String) (request : ScheduleRequest zones)
  | pause (now : Time) (principalId scheduleId : String)
  | resume (now : Time) (principalId scheduleId : String)
  | claimDue (now : Time) (workerId : String) (leaseSeconds : Time)
  | markTaskCreated (now : Time) (occurrence taskId : String)
  | markDeliveryFailed (now : Time) (occurrence failureCode : String)

namespace ScheduleOp

variable {zones : Zones}

def now : ScheduleOp zones → Time
  | .create now .. | .pause now .. | .resume now .. | .claimDue now .. | .markTaskCreated now ..
  | .markDeliveryFailed now .. => now

/-- The error of a call, or nothing, with the store the call leaves. -/
def outcome {α : Type} (result : Except AutomationError α × ScheduleStore zones) :
    Except AutomationError Unit × ScheduleStore zones := (result.1.map (fun _ => ⟨⟩), result.2)

def call (env : ScheduleEnv) (op : ScheduleOp env.zones) (s : ScheduleStore env.zones) :
    Except AutomationError Unit × ScheduleStore env.zones :=
  match op with
  | .create now scheduleIds request => outcome (Automation.create env now scheduleIds request s)
  | .pause now principalId scheduleId =>
    outcome (commit (Automation.pause env now principalId scheduleId) s)
  | .resume now principalId scheduleId =>
    outcome (commit (Automation.resume env now principalId scheduleId) s)
  | .claimDue now workerId leaseSeconds =>
    outcome (commit (Automation.claimDue env now workerId leaseSeconds) s)
  | .markTaskCreated now occurrence taskId =>
    outcome (commit (Automation.markTaskCreated env now occurrence taskId) s)
  | .markDeliveryFailed now occurrence failureCode =>
    outcome (commit (Automation.markDeliveryFailed env now occurrence failureCode) s)

end ScheduleOp

namespace ScheduleStore

def step (env : ScheduleEnv) (s : ScheduleStore env.zones) (op : ScheduleOp env.zones) :
    Option (ScheduleStore env.zones) :=
  match op.call env s with
  | (.ok _, s') => some s'
  | (.error _, _) => none

def initial (zones : Zones) (sessions : Table SessionRow.sessionHandle) : ScheduleStore zones where
  sessions := sessions

end ScheduleStore

section Sample

/-- The month and the day of the Gregorian calendar, from the days since the epoch. -/
def civilDate (days : Nat) : Nat × Nat :=
  let ofEra := (days + 719468) % 146097
  let year := (ofEra - ofEra / 1460 + ofEra / 36524 - ofEra / 146096) / 365
  let ofYear := ofEra - (365 * year + year / 4 - year / 100)
  let month := (5 * ofYear + 2) / 153
  (if month < 10 then month + 3 else month - 9, ofYear - (153 * month + 2) / 5 + 1)

def utc : Zone := fun minute =>
  some
    { minute := minute % 60, hour := minute / 60 % 24, day := (civilDate (minute / 1440)).2,
      month := (civilDate (minute / 1440)).1, weekday := (minute / 1440 + 3) % 7 }

/-- 29 February 2000 was a Tuesday. -/
example : utc (11016 * 1440) =
    some { minute := 0, hour := 0, day := 29, month := 2, weekday := 1 } := by
  decide

def sampleZones : Zones := fun name => if name = "UTC" then some utc else none

def sampleScheduleEnv : ScheduleEnv where
  zones := sampleZones
  digest text := text

/-- Every minute. -/
def sampleInterval : ScheduleSpec sampleZones where
  kind := .interval
  runAt := some 60
  intervalSeconds := some 60
  timezone := "UTC"
  inRange := ⟨by simp, by norm_num, by decide, by decide⟩
  valid := by decide

def sampleSchedules : ScheduleStore sampleZones :=
  .initial sampleZones (.single { sessionHandle := "s", principalId := "p", agentId := "a" })

def sampleSchedule (now : Time) (scheduleId : String) (spec : ScheduleSpec sampleZones) :
    ScheduleOp sampleZones :=
  .create now (fun _ => scheduleId)
    { scope := { principalId := "p", sessionHandle := "s" }, clientRequestId := scheduleId,
      goal := "goal", spec }

end Sample

end Knoa.Automation
