import Knoa.Automation.Schedules

/-!
# Triggers

`TriggerRepository`: triggers, and the inbox of the events that are delivered for them.
A payload is its canonical JSON text.
-/
namespace Knoa.Automation
open Knoa.Tasks Relational Transaction

inductive TriggerState
  | active
  | paused
  deriving DecidableEq, Repr

inductive TriggerEventState
  | baselined
  | received
  | claimed
  | retryWait
  | taskCreated
  | dead
  deriving DecidableEq, Repr

structure TriggerRow where
  triggerId : String
  principalId : String
  sessionHandle : String
  clientRequestId : String
  name : String
  goal : String
  toolsEnabled : Bool
  priority : Int
  state : TriggerState
  eventCount : Nat
  lastEventAt : Option Time
  createdAt : Time
  updatedAt : Time
  deriving DecidableEq

structure TriggerEventRow where
  triggerEventId : String
  triggerId : String
  principalId : String
  sessionHandle : String
  externalEventId : String
  payloadJson : String
  state : TriggerEventState
  attemptCount : Nat
  nextAttemptAt : Option Time
  leaseOwner : String
  leaseExpiresAt : Option Time
  taskId : String
  failureCode : String
  receivedAt : Time
  updatedAt : Time
  deriving DecidableEq

/-- The first 32 digits of a hash, and the configuration. -/
structure TriggerEnv where
  digest : String → String
  maxDeliveryAttempts : Nat := 5
  retryBaseSeconds : Time := 5
  attempts : 1 ≤ maxDeliveryAttempts ∧ maxDeliveryAttempts ≤ 20 := by decide
  base : 1 ≤ retryBaseSeconds ∧ retryBaseSeconds ≤ 3600 := by norm_num

structure TriggerStore where
  sessions : Table SessionRow.sessionHandle
  triggers : Table TriggerRow.triggerId := .empty
  events : Table TriggerEventRow.triggerEventId := .empty

/-- The arguments of `create`. -/
structure TriggerRequest where
  scope : RuntimeScope
  clientRequestId : String
  name : String
  goal : String
  toolsEnabled : Bool := true
  priority : Int := 0
  deriving DecidableEq

def maxTriggerPayloadBytes : Nat := 128 * 1024

/-- `_payload_json`. -/
def payloadJson (payload : String) : Except AutomationError String := do
  require (payload.utf8ByteSize ≤ maxTriggerPayloadBytes) (.value "Trigger payload exceeds 128 KiB")
  return payload

/-- `_event_id`. -/
def triggerEventId (env : TriggerEnv) (triggerId externalEventId : String) : String :=
  env.digest (triggerId ++ "\x00" ++ externalEventId)

namespace TriggerStore

variable (s : TriggerStore)

def updateTrigger (triggerId : String) (f : TriggerRow → TriggerRow)
    (keep : ∀ row, (f row).triggerId = row.triggerId := by intro _; rfl) : TriggerStore :=
  { s with triggers := s.triggers.update (fun row => row.triggerId == triggerId) f keep }

def updateEvent (triggerEventId : String) (f : TriggerEventRow → TriggerEventRow)
    (keep : ∀ row, (f row).triggerEventId = row.triggerEventId := by intro _; rfl) :
    TriggerStore :=
  { s with events := s.events.update (fun row => row.triggerEventId == triggerEventId) f keep }

def ownedTriggerSession (scope : RuntimeScope) : Except AutomationError SessionRow :=
  orRaise ((s.sessions.lookup scope.sessionHandle).filter
    (fun row => row.principalId == scope.principalId)) (.notFound "Session not found")

def ownedTrigger (principalId triggerId : String) : Except AutomationError TriggerRow :=
  orRaise ((s.triggers.lookup triggerId).filter (fun row => row.principalId == principalId))
    (.notFound "Trigger not found")

def eventOf (triggerId externalEventId : String) : Option TriggerEventRow :=
  s.events.rows.find? (fun row =>
    row.triggerId == triggerId && row.externalEventId == externalEventId)

/-- The unique columns of the events. -/
def insertEvent (row : TriggerEventRow) : Option (Table TriggerEventRow.triggerEventId) :=
  if (s.eventOf row.triggerId row.externalEventId).isSome then none else s.events.insert row

end TriggerStore

section Operations

variable (env : TriggerEnv) (now : Time)

def createTriggerOnce (request : TriggerRequest) (requestId name goal candidate : String) :
    Body TriggerStore AutomationError (TriggerRow × Bool) := fun s => do
  let triggerId ← identifier candidate "trigger_id" 128
  let _ ← s.ownedTriggerSession request.scope
  match s.triggers.rows.find? (fun row => row.principalId == request.scope.principalId &&
      row.clientRequestId == requestId) with
  | some record =>
    require (record.sessionHandle = request.scope.sessionHandle ∧ record.name = name ∧
        record.goal = goal ∧ record.toolsEnabled = request.toolsEnabled ∧
        record.priority = request.priority)
      (.idempotencyConflict "Trigger request ID conflicts with existing input")
    return ((record, false), s)
  | none => do
    let row : TriggerRow :=
      { triggerId, principalId := request.scope.principalId,
        sessionHandle := request.scope.sessionHandle, clientRequestId := requestId, name,
        goal, toolsEnabled := request.toolsEnabled, priority := request.priority,
        state := .active, eventCount := 0, lastEventAt := none, createdAt := now, updatedAt := now }
    let triggers ← orRaise (s.triggers.insert row) (.integrity "runtime_triggers")
    return ((row, true), { s with triggers })

/-- `create`. -/
def createTrigger (triggerIds : Nat → String) (request : TriggerRequest) (s : TriggerStore) :
    Except AutomationError (TriggerRow × Bool) × TriggerStore :=
  let checked := do
    let requestId ← identifier request.clientRequestId "client_request_id" 128
    let name ← identifier request.name "name" 128
    let goal := strip request.goal
    require (goal ≠ "" ∧ goal.length ≤ 64000)
      (.value "Trigger goal must contain 1-64000 characters")
    require (0 ≤ request.priority ∧ request.priority ≤ 9)
      (.value "Trigger priority must be between 0 and 9")
    return (requestId, name, goal)
  match checked with
  | .error e => (.error e, s)
  | .ok (requestId, name, goal) =>
    retrying (· == .integrity "runtime_triggers") (.runtime "Trigger ID allocation failed")
      ((List.range 5).map (fun i =>
        createTriggerOnce now request requestId name goal (triggerIds i))) s

def setPaused (principalId triggerId : String) (paused : Bool) :
    Body TriggerStore AutomationError TriggerRow := fun s => do
  let principal ← identifier principalId "principal_id" 256
  let triggerId ← identifier triggerId "trigger_id" 128
  let target := if paused then TriggerState.paused else .active
  let current ← s.ownedTrigger principal triggerId
  if current.state = target then return (current, s)
  else do
    let stored := s.updateTrigger triggerId (fun row =>
      { row with state := target, updatedAt := now })
    let updated ← orRaise (stored.triggers.lookup triggerId) .assertion
    return (updated, stored)

/-- The row that `receive` or `baseline` inserts. -/
def newEvent (trigger : TriggerRow) (externalId payload : String) (state : TriggerEventState)
    (failureCode : String) : TriggerEventRow where
  triggerEventId := triggerEventId env trigger.triggerId externalId
  triggerId := trigger.triggerId
  principalId := trigger.principalId
  sessionHandle := trigger.sessionHandle
  externalEventId := externalId
  payloadJson := payload
  state := state
  attemptCount := 0
  nextAttemptAt := none
  leaseOwner := ""
  leaseExpiresAt := none
  taskId := ""
  failureCode := failureCode
  receivedAt := now
  updatedAt := now

def receive (principalId triggerId externalEventId payload : String) :
    Body TriggerStore AutomationError (TriggerEventRow × Bool) := fun s => do
  let principal ← identifier principalId "principal_id" 256
  let triggerId ← identifier triggerId "trigger_id" 128
  let externalId ← identifier externalEventId "external_event_id" 256
  let payload ← payloadJson payload
  let trigger ← s.ownedTrigger principal triggerId
  require (trigger.state = .active) (.transition "Paused trigger cannot receive events")
  match s.eventOf triggerId externalId with
  | some existing =>
    require (existing.payloadJson = payload)
      (.idempotencyConflict "External event ID conflicts with another payload")
    return ((existing, false), s)
  | none => do
    let row := newEvent env now trigger externalId payload .received ""
    let events ← orRaise (s.insertEvent row) (.integrity "runtime_trigger_events")
    let stored := { s with events }.updateTrigger triggerId (fun trigger =>
      { trigger with
        eventCount := trigger.eventCount + 1, lastEventAt := some now, updatedAt := now })
    let received ← orRaise (stored.events.lookup row.triggerEventId) .assertion
    return ((received, true), stored)

/-- The loop over the inventory. -/
def baselineItems (trigger : TriggerRow) :
    List (String × String) → Body TriggerStore AutomationError Nat
  | [] => fun s => return (0, s)
  | (externalId, payload) :: rest => fun s =>
    match s.eventOf trigger.triggerId externalId with
    | some existing => do
      require (existing.payloadJson = payload)
        (.idempotencyConflict "External event ID conflicts with another payload")
      baselineItems trigger rest s
    | none => do
      let row := newEvent env now trigger externalId payload .baselined "initial_inventory"
      let events ← orRaise (s.insertEvent row) (.integrity "runtime_trigger_events")
      let (inserted, stored) ← baselineItems trigger rest { s with events }
      return (inserted + 1, stored)

def baselineItem (item : String × String) : Except AutomationError (String × String) := do
  let externalId ← identifier item.1 "external_event_id" 256
  let payload ← payloadJson item.2
  return (externalId, payload)

def baseline (principalId triggerId : String) (items : List (String × String)) :
    Body TriggerStore AutomationError Nat := fun s => do
  let principal ← identifier principalId "principal_id" 256
  let triggerId ← identifier triggerId "trigger_id" 128
  let items ← items.mapM baselineItem
  let trigger ← s.ownedTrigger principal triggerId
  require (trigger.state = .active) (.transition "Paused trigger cannot be baselined")
  if trigger.lastEventAt ≠ none then return (0, s)
  else do
    let (inserted, stored) ← baselineItems env now trigger items s
    return (inserted, stored.updateTrigger triggerId (fun trigger =>
      { trigger with lastEventAt := some now, updatedAt := now }))

/-- An event of an active trigger that is new, waits for its retry, or whose lease has
run out. -/
def TriggerEventRow.due (s : TriggerStore) (row : TriggerEventRow) : Bool :=
  (s.triggers.lookup row.triggerId).any (fun trigger => trigger.state == .active) &&
    (row.state == .received || (row.state == .retryWait && row.nextAttemptAt.any (· ≤ now)) ||
      (row.state == .claimed && row.leaseExpiresAt.any (· ≤ now)))

def eventBefore (a b : TriggerEventRow) : Prop :=
  a.receivedAt < b.receivedAt ∨ a.receivedAt = b.receivedAt ∧ a.triggerEventId ≤ b.triggerEventId

instance : DecidableRel eventBefore := fun a b => by unfold eventBefore; infer_instance

def nextEvent (s : TriggerStore) : Option TriggerEventRow :=
  ((s.events.rows.filter (·.due now s)).insertionSort eventBefore).head?

def claimNext (workerId : String) (leaseSeconds : Time) :
    Body TriggerStore AutomationError (Option TriggerEventRow) := fun s => do
  let worker ← identifier workerId "worker_id" 128
  require (1 ≤ leaseSeconds ∧ leaseSeconds ≤ 3600)
    (.value "Trigger lease must be between 1 and 3600 seconds")
  match nextEvent now s with
  | none => return (none, s)
  | some row =>
    if row.state = .claimed ∧ env.maxDeliveryAttempts ≤ row.attemptCount then
      return (none, s.updateEvent row.triggerEventId (fun row =>
        { row with
          state := .dead, leaseOwner := "", leaseExpiresAt := none,
          failureCode := "delivery_lease_exhausted", updatedAt := now }))
    else do
      let stored := s.updateEvent row.triggerEventId (fun row =>
        { row with
          state := .claimed, attemptCount := row.attemptCount + 1, nextAttemptAt := none,
          leaseOwner := worker, leaseExpiresAt := some (now + leaseSeconds), updatedAt := now })
      let claimed ← orRaise (stored.events.lookup row.triggerEventId) .assertion
      return (some claimed, stored)

/-- `mark_task_created`. -/
def markEventTaskCreated (event taskId : String) :
    Body TriggerStore AutomationError TriggerEventRow := fun s => do
  let event ← identifier event "trigger_event_id" 128
  let task ← identifier taskId "task_id" 128
  let current ← orRaise (s.events.lookup event) (.notFound "Trigger event not found")
  if current.state = .taskCreated then do
    require (current.taskId = task)
      (.idempotencyConflict "Trigger event already created another Task")
    return (current, s)
  else do
    require (current.state = .claimed) (.transition "Trigger event is not claimed")
    let stored := s.updateEvent event (fun row =>
      { row with
        state := .taskCreated, taskId := task, leaseOwner := "", leaseExpiresAt := none,
        failureCode := "", updatedAt := now })
    let updated ← orRaise (stored.events.lookup event) .assertion
    return (updated, stored)

/-- `mark_delivery_failed`. -/
def markEventDeliveryFailed (event failureCode : String) :
    Body TriggerStore AutomationError TriggerEventRow := fun s => do
  let event ← identifier event "trigger_event_id" 128
  let failure ← identifier failureCode "failure_code" 256
  let current ← orRaise (s.events.lookup event) (.notFound "Trigger event not found")
  require (current.state = .claimed) (.transition "Trigger event is not claimed")
  let exhausted := env.maxDeliveryAttempts ≤ current.attemptCount
  let stored := s.updateEvent event (fun row =>
    { row with
      state := if exhausted then .dead else .retryWait
      nextAttemptAt :=
        if exhausted then none
        else some (now + env.retryBaseSeconds * 2 ^ (current.attemptCount - 1))
      leaseOwner := ""
      leaseExpiresAt := none
      failureCode := failure
      updatedAt := now })
  let updated ← orRaise (stored.events.lookup event) .assertion
  return (updated, stored)

def deferDelivery (event reason : String) :
    Body TriggerStore AutomationError TriggerEventRow := fun s => do
  let event ← identifier event "trigger_event_id" 128
  let reason ← identifier reason "reason" 256
  let current ← orRaise (s.events.lookup event) (.notFound "Trigger event not found")
  require (current.state = .claimed) (.transition "Trigger event is not claimed")
  let stored := s.updateEvent event (fun row =>
    { row with
      state := .retryWait, attemptCount := row.attemptCount - 1,
      nextAttemptAt := some (now + env.retryBaseSeconds), leaseOwner := "", leaseExpiresAt := none,
      failureCode := reason, updatedAt := now })
  let updated ← orRaise (stored.events.lookup event) .assertion
  return (updated, stored)

end Operations

/-- A call of the repository, with the time it reads. -/
inductive TriggerOp
  | create (now : Time) (triggerIds : Nat → String) (request : TriggerRequest)
  | setPaused (now : Time) (principalId triggerId : String) (paused : Bool)
  | receive (now : Time) (principalId triggerId externalEventId payload : String)
  | baseline (now : Time) (principalId triggerId : String) (items : List (String × String))
  | claimNext (now : Time) (workerId : String) (leaseSeconds : Time)
  | markTaskCreated (now : Time) (event taskId : String)
  | markDeliveryFailed (now : Time) (event failureCode : String)
  | deferDelivery (now : Time) (event reason : String)

namespace TriggerOp

/-- The store that a call leaves, where it returns. -/
def outcome {α : Type} (result : Except AutomationError α × TriggerStore) : Option TriggerStore :=
  match result with
  | (.ok _, s) => some s
  | (.error _, _) => none

end TriggerOp

namespace TriggerStore

open TriggerOp (outcome)

/-- A call that raises leaves the store as it was. -/
def step (env : TriggerEnv) (s : TriggerStore) : TriggerOp → Option TriggerStore
  | .create now triggerIds request => outcome (createTrigger now triggerIds request s)
  | .setPaused now principalId triggerId paused =>
    outcome (commit (setPaused now principalId triggerId paused) s)
  | .receive now principalId triggerId externalEventId payload =>
    outcome (commit (receive env now principalId triggerId externalEventId payload) s)
  | .baseline now principalId triggerId items =>
    outcome (commit (baseline env now principalId triggerId items) s)
  | .claimNext now workerId leaseSeconds =>
    outcome (commit (claimNext env now workerId leaseSeconds) s)
  | .markTaskCreated now event taskId => outcome (commit (markEventTaskCreated now event taskId) s)
  | .markDeliveryFailed now event failureCode =>
    outcome (commit (markEventDeliveryFailed env now event failureCode) s)
  | .deferDelivery now event reason => outcome (commit (deferDelivery env now event reason) s)

def initial (sessions : Table SessionRow.sessionHandle) : TriggerStore where
  sessions := sessions

end TriggerStore

end Knoa.Automation
