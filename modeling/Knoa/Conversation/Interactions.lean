import Knoa.Conversation.ChatTurns

/-!
# Interactions with the user

`HumanInteractionService` over one interaction of a runtime. The change callback is awaited
between a transaction and the waiters.
-/
namespace Knoa.Conversation
open Knoa.Tasks (JsonText Time strip)

inductive OwnerKind
  | conversationTurn
  | taskExecution
  deriving DecidableEq, Repr

inductive InteractionState
  | pending
  | resolved
  | cancelled
  | expired
  | runtimeLost
  deriving DecidableEq, Repr

inductive InteractionKind
  | userInput
  | mcpElicitation
  | deviceLocation
  deriving DecidableEq, Repr

structure HumanInteraction where
  interactionId : String
  principalId : String
  ownerKind : OwnerKind
  ownerId : String
  runtimeSessionRef : String
  runtimeTurnRef : String
  runtimeInteractionId : String
  interactionEpoch : Nat
  kind : InteractionKind
  state : InteractionState
  display : JsonText
  resolutionSchema : JsonText
  resolution : Option JsonText
  createdAt : Time
  resolvedAt : Option Time
  expiresAt : Option Time
  resolvedBy : String
  deriving DecidableEq

def within (least most : Nat) (text : String) : Bool := least ≤ text.length && text.length ≤ most

/-- The constraints of the fields, which every row that is read goes through. -/
def HumanInteraction.valid (record : HumanInteraction) : Bool :=
  within 1 128 record.interactionId && within 1 256 record.principalId &&
    within 1 128 record.ownerId && within 1 256 record.runtimeSessionRef &&
    within 1 256 record.runtimeTurnRef && within 1 128 record.runtimeInteractionId &&
    1 ≤ record.interactionEpoch && 0 ≤ record.createdAt &&
    record.resolvedAt.all (fun at_ => 0 ≤ at_) && record.expiresAt.all (fun at_ => 0 < at_) &&
    within 0 256 record.resolvedBy

def HumanInteraction.pending (record : HumanInteraction) : Bool := record.state == .pending

/-- The resolution as it is loaded; a `NULL` is loaded as `None`. -/
def HumanInteraction.loadedResolution (record : HumanInteraction) : JsonText :=
  record.resolution.getD ⟨"null"⟩

/-- `_json`: 128 KiB at most. -/
def fits (payload : JsonText) : Bool := payload.bytes ≤ 128 * 1024

/-- What the service takes from the validator of JSON schemas. -/
structure SchemaEnv where
  checkSchema : JsonText → Bool
  objectType : JsonText → Bool
  accepts : JsonText → JsonText → Bool

/-- `InteractionRequested`, with the scope and the owner that `begin` is called for. -/
structure InteractionRequest where
  principalId : String
  ownerKind : OwnerKind
  ownerId : String
  kind : InteractionKind
  display : JsonText
  resolutionSchema : JsonText
  expiresAt : Option Time
  deriving DecidableEq

structure InteractionKey where
  runtimeSessionRef : String
  runtimeTurnRef : String
  runtimeInteractionId : String
  interactionEpoch : Nat
  deriving DecidableEq

def InteractionRequest.record (request : InteractionRequest) (key : InteractionKey) (now : Time)
    (interactionId : String) : HumanInteraction where
  interactionId := strip interactionId
  principalId := request.principalId
  ownerKind := request.ownerKind
  ownerId := request.ownerId
  runtimeSessionRef := key.runtimeSessionRef
  runtimeTurnRef := key.runtimeTurnRef
  runtimeInteractionId := key.runtimeInteractionId
  interactionEpoch := key.interactionEpoch
  kind := request.kind
  state := .pending
  display := request.display
  resolutionSchema := request.resolutionSchema
  resolution := none
  createdAt := now
  resolvedAt := none
  expiresAt := request.expiresAt
  resolvedBy := ""

/-- `HumanInteractionRepository.request`: the record, and whether it is new; `none` where it
raises. `free` says that the owner has no other pending interaction. -/
def requestInteraction (env : SchemaEnv) (key : InteractionKey) (stored : Option HumanInteraction)
    (request : InteractionRequest) (now : Time) (interactionId : String) (free : Bool) :
    Option (HumanInteraction × Bool) :=
  if env.checkSchema request.resolutionSchema && env.objectType request.resolutionSchema then
    match stored with
    | some record =>
      if record.principalId = request.principalId ∧ record.ownerKind = request.ownerKind ∧
          record.ownerId = request.ownerId ∧ record.display = request.display ∧
          record.resolutionSchema = request.resolutionSchema then
        some (record, false)
      else none
    | none =>
      let record := request.record key now interactionId
      if fits request.display && fits request.resolutionSchema && free && record.valid then
        some (record, true)
      else none
  else none

inductive InteractionCall
  | resolve (principalId : String) (value : JsonText) (resolvedBy : String)
  | expire (principalId : String)
  deriving DecidableEq

def HumanInteraction.late (record : HumanInteraction) (now : Time) : Bool :=
  record.expiresAt.any (fun at_ => at_ ≤ now)

def HumanInteraction.resolvedWith (record : HumanInteraction) (value : JsonText) (now : Time)
    (resolvedBy : String) : HumanInteraction :=
  { record with
    state := .resolved, resolution := some value, resolvedAt := some now,
    resolvedBy := strip resolvedBy }

/-- `HumanInteractionRepository.resolve`: the record, and whether the call has resolved it. -/
def resolveInteraction (env : SchemaEnv) (stored : Option HumanInteraction) (principalId : String)
    (value : JsonText) (resolvedBy : String) (now : Time) : Option (HumanInteraction × Bool) :=
  match stored with
  | none => none
  | some record =>
    if record.principalId ≠ principalId then none
    else if record.pending = false then some (record, false)
    else if record.late now then
      let expired := { record with state := .expired, resolvedAt := some now }
      if expired.valid then some (expired, false) else none
    else if env.accepts record.resolutionSchema value && fits value then
      let resolved := record.resolvedWith value now resolvedBy
      if resolved.valid then some (resolved, true) else none
    else none

/-- `HumanInteractionRepository.expire`. -/
def expireInteraction (stored : Option HumanInteraction) (principalId : String) (now : Time) :
    Option (HumanInteraction × Bool) :=
  match stored with
  | none => none
  | some record =>
    if record.principalId ≠ principalId then none
    else if record.pending = false then some (record, false)
    else
      let expired :=
        { record with state := .expired, resolvedAt := some now, resolvedBy := "timeout" }
      if expired.valid then some (expired, true) else none

def InteractionCall.write (env : SchemaEnv) (stored : Option HumanInteraction) (now : Time) :
    InteractionCall → Option (HumanInteraction × Bool)
  | .resolve principalId value resolvedBy =>
    resolveInteraction env stored principalId value resolvedBy now
  | .expire principalId => expireInteraction stored principalId now

/-- What a future is done with. -/
inductive Delivered
  | result (value : JsonText)
  | cancelled
  deriving DecidableEq

/-- `waiter.set_result(value)` for a `resolve`, `waiter.cancel()` for an `expire`. -/
def InteractionCall.outcome : InteractionCall → Delivered
  | .resolve _ value _ => .result value
  | .expire _ => .cancelled

/-- Where a `begin` stands: `announcing` is its change callback, `waiting` the `wait` of the
handle that it returned. One who has left awaits the future no longer. -/
inductive BeginPhase
  | persisting
  | registering (created : Bool)
  | announcing
  | waiting
  | left
  | raised
  deriving DecidableEq

structure Begin where
  request : InteractionRequest
  phase : BeginPhase := .persisting
  future : Option Delivered := none
  deriving DecidableEq

/-- Where a `resolve` or an `expire` stands. -/
inductive SettlePhase
  | persisting
  | announcing
  | delivering (changed : Bool)
  | done (changed : Bool)
  | raised
  deriving DecidableEq

structure Settle where
  call : InteractionCall
  phase : SettlePhase := .persisting
  deriving DecidableEq

/-- The interaction, and `waiter`, the `begin` whose future is registered for it. -/
structure InteractionDesk where
  key : InteractionKey
  stored : Option HumanInteraction := none
  waiter : Option Nat := none
  begins : List Begin := []
  settles : List Settle := []

inductive InteractionAct
  | begin_ (request : InteractionRequest)
  | persist (i : Nat) (now : Time) (interactionId : String) (free : Bool)
  | register (i : Nat)
  | announced (i : Nat) (ok : Bool)
  | leave (i : Nat)
  | call (call : InteractionCall)
  | write (k : Nat) (now : Time)
  | told (k : Nat) (ok : Bool)
  | deliver (k : Nat)

namespace InteractionDesk

variable (env : SchemaEnv) (s : InteractionDesk)

def setBegin (i : Nat) (begun : Begin) : InteractionDesk :=
  { s with begins := s.begins.set i begun }

def setSettle (k : Nat) (settle : Settle) (phase : SettlePhase) : InteractionDesk :=
  { s with settles := s.settles.set k { settle with phase } }

/-- The first half of `begin`, up to the lock. -/
def persist (i : Nat) (begun : Begin) (now : Time) (interactionId : String) (free : Bool) :
    InteractionDesk :=
  match requestInteraction env s.key s.stored begun.request now interactionId free with
  | none => s.setBegin i { begun with phase := .raised }
  | some (record, created) =>
    let written := { s with stored := some record }
    match record.state with
    | .pending => written.setBegin i { begun with phase := .registering created }
    | .resolved =>
      written.setBegin i
        { begun with phase := .waiting, future := some (.result record.loadedResolution) }
    | _ => written.setBegin i { begun with phase := .raised }

def register (i : Nat) (begun : Begin) (created : Bool) : InteractionDesk :=
  if s.waiter.isSome then s.setBegin i { begun with phase := .raised }
  else
    { s.setBegin i { begun with phase := if created then .announcing else .waiting } with
      waiter := some i }

/-- The write of a `resolve` or an `expire`; the callback is for the call that has changed it. -/
def write (k : Nat) (settle : Settle) (now : Time) : InteractionDesk :=
  match settle.call.write env s.stored now with
  | none => s.setSettle k settle .raised
  | some (record, changed) =>
    ({ s with stored := some record } : InteractionDesk).setSettle k settle
      (if changed then .announcing else .delivering false)

def setFuture (outcome : Delivered) : InteractionDesk :=
  match s.waiter.bind (fun i => (s.begins[i]?).map (fun begun => (i, begun))) with
  | some (i, begun) =>
    if begun.future = none then s.setBegin i { begun with future := some outcome } else s
  | none => s

/-- The waiter is done if the call has changed the interaction, and is taken out of the map in
any case. -/
def deliver (k : Nat) (settle : Settle) (changed : Bool) : InteractionDesk :=
  ({ (if changed then s.setFuture settle.call.outcome else s) with
    waiter := none } : InteractionDesk).setSettle k settle (.done changed)

def step : InteractionAct → Option InteractionDesk
  | .begin_ request => some { s with begins := s.begins ++ [{ request := request }] }
  | .persist i now interactionId free => (s.begins[i]?).bind (fun begun =>
    match begun.phase with
    | .persisting => some (s.persist env i begun now interactionId free)
    | _ => none)
  | .register i => (s.begins[i]?).bind (fun begun =>
    match begun.phase with
    | .registering created => some (s.register i begun created)
    | _ => none)
  | .announced i ok => (s.begins[i]?).bind (fun begun =>
    match begun.phase with
    | .announcing => some (s.setBegin i { begun with phase := if ok then .waiting else .raised })
    | _ => none)
  | .leave i => (s.begins[i]?).bind (fun begun =>
    match begun.phase with
    | .waiting =>
      some (s.setBegin i
        { begun with phase := .left, future := some (begun.future.getD .cancelled) })
    | _ => none)
  | .call call => some { s with settles := s.settles ++ [{ call := call }] }
  | .write k now => (s.settles[k]?).bind (fun settle =>
    match settle.phase with
    | .persisting => some (s.write env k settle now)
    | _ => none)
  | .told k ok => (s.settles[k]?).bind (fun settle =>
    match settle.phase with
    | .announcing => some (s.setSettle k settle (if ok then .delivering true else .raised))
    | _ => none)
  | .deliver k => (s.settles[k]?).bind (fun settle =>
    match settle.phase with
    | .delivering changed => some (s.deliver k settle changed)
    | _ => none)

def initial (key : InteractionKey) (stored : Option HumanInteraction) : InteractionDesk where
  key := key
  stored := stored

end InteractionDesk

end Knoa.Conversation
