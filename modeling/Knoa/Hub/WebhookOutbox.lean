import Knoa.Automation.TriggerInbox

/-!
# The webhook outbox of the Hub and the Node's rounds

`webhook_ingress_outbox`, and a Node that pulls its events, fires their triggers and acknowledges
them at the end of the batch.
-/
namespace Knoa.Hub

open Knoa.Tasks (Time strip)
open Knoa.Automation Relational

structure WebhookRoute where
  routeId : String
  nodeId : String
  principalId : String
  triggerId : String
  active : Bool := true

structure IngressRow where
  ingressId : Nat
  routeId : String
  externalEventId : String
  payload : String
  receivedAt : Time
  deliveryCount : Nat := 0
  lastDeliveredAt : Option Time := none
  acknowledgedAt : Option Time := none

structure WebhookHub where
  routes : Table WebhookRoute.routeId
  outbox : Table IngressRow.ingressId := .empty
  nextIngressId : Nat := 1

/-- What a pull says of an event. -/
structure Delivery where
  ingressId : Nat
  principalId : String
  triggerId : String
  externalEventId : String
  payload : String

def maxPending : Nat := 1000

namespace WebhookHub

variable (hub : WebhookHub)

def pendingOf (routeId : String) : Nat :=
  hub.outbox.rows.countP fun row => row.routeId == routeId && row.acknowledgedAt.isNone

/-- `accept_webhook` after its checks of the time and the signature, and
`enqueue_webhook_event`; `none` where they raise -/
def acceptWebhook (routeId externalEventId payload : String) (now : Time) : Option WebhookHub := do
  let route ← hub.routes.lookup routeId
  guard route.active
  match hub.outbox.rows.find? fun row =>
      row.routeId == routeId && row.externalEventId == externalEventId with
  | some existing =>
    guard (existing.payload = payload)
    return hub
  | none =>
    guard (hub.pendingOf routeId < maxPending)
    let outbox ← hub.outbox.insert
      { ingressId := hub.nextIngressId, routeId, externalEventId, payload, receivedAt := now }
    return { hub with outbox, nextIngressId := hub.nextIngressId + 1 }

def deleteRoute (nodeId routeId : String) : WebhookHub :=
  { hub with
    routes := hub.routes.update
      (fun route => route.routeId == routeId && route.nodeId == nodeId)
      (fun route => { route with active := false }) (by intro _; rfl) }

def activeRoute (nodeId : String) (row : IngressRow) : Option WebhookRoute :=
  (hub.routes.lookup row.routeId).filter fun route => route.nodeId == nodeId && route.active

def pending (nodeId : String) : List IngressRow :=
  hub.outbox.rows.filter fun row => (hub.activeRoute nodeId row).isSome && row.acknowledgedAt.isNone

def ingressLe (a b : IngressRow) : Prop := a.ingressId ≤ b.ingressId

instance (a b : IngressRow) : Decidable (ingressLe a b) :=
  inferInstanceAs (Decidable (a.ingressId ≤ b.ingressId))

def pulled (nodeId : String) (limit : Nat) (now : Time) : List IngressRow :=
  (((hub.pending nodeId).filter fun row =>
    row.lastDeliveredAt.all (· ≤ now - 15)).insertionSort ingressLe).take (max 1 (min limit 100))

def delivery (nodeId : String) (row : IngressRow) : Option Delivery :=
  (hub.activeRoute nodeId row).map fun route =>
    { ingressId := row.ingressId, principalId := route.principalId, triggerId := route.triggerId,
      externalEventId := row.externalEventId, payload := row.payload }

def deliver (ids : List Nat) (now : Time) : WebhookHub :=
  { hub with
    outbox := hub.outbox.update (fun row => decide (row.ingressId ∈ ids))
      (fun row => { row with deliveryCount := row.deliveryCount + 1, lastDeliveredAt := some now })
      (by intro _; rfl) }

/-- `pull_webhook_events` -/
def pullWebhookEvents (nodeId : String) (limit : Nat) (now : Time) : List Delivery × WebhookHub :=
  let rows := hub.pulled nodeId limit now
  (rows.filterMap (hub.delivery nodeId), hub.deliver (rows.map IngressRow.ingressId) now)

/-- `acknowledge_webhook_events` -/
def acknowledgeWebhookEvents (nodeId : String) (ids : List Nat) (now : Time) : WebhookHub :=
  { hub with
    outbox := hub.outbox.update
      (fun row => decide (row.ingressId ∈ ids) &&
        (hub.routes.lookup row.routeId).any fun route => route.nodeId == nodeId)
      (fun row => { row with acknowledgedAt := row.acknowledgedAt.or (some now) })
      (by intro _; rfl) }

end WebhookHub

/-- Where `_pull_webhook_events` is: `accepted` are the events that it has fired. -/
inductive PullRound
  | idle
  | firing (rest : List Delivery) (accepted : List Nat)

structure WebhookSystem where
  hub : WebhookHub
  now : Time := 0
  store : TriggerStore
  round : PullRound := .idle

/-- What becomes of a request. -/
inductive Exchanged
  | answered
  | answerLost
  | lost
  deriving DecidableEq

inductive WebhookLabel
  | clock (now : Time)
  | accept (routeId externalEventId payload : String)
  | deleteRoute (routeId : String)
  | pull (request : Exchanged)
  /-- The trigger of the next event, at the Node's time. -/
  | fire (now : Time)
  | acknowledge (request : Exchanged)
  | crash
  /-- Another call of the trigger repository. -/
  | trigger (op : TriggerOp)
  | deleteTrigger (principalId triggerId : String)

/-- `delete`: the events of a trigger go with it. -/
def deleteTrigger (store : TriggerStore) (principalId triggerId : String) : Option TriggerStore :=
  ((store.triggers.lookup (strip triggerId)).filter fun row =>
    row.principalId == strip principalId).map fun _ =>
      { store with
        triggers := store.triggers.delete fun row => row.triggerId == strip triggerId
        events := store.events.delete fun row => row.triggerId == strip triggerId }

section Steps

variable (env : TriggerEnv) (nodeId : String)

/-- `fire_trigger` for a delivery -/
def fireTrigger (now : Time) (delivery : Delivery) (store : TriggerStore) : Option TriggerStore :=
  store.step env (.receive now delivery.principalId delivery.triggerId delivery.externalEventId
    delivery.payload)

def webhookStep (s : WebhookSystem) : WebhookLabel → Option WebhookSystem
  | .clock now => if s.now ≤ now then some { s with now } else none
  | .accept routeId externalEventId payload => do
    let hub ← s.hub.acceptWebhook routeId externalEventId payload s.now
    return { s with hub }
  | .deleteRoute routeId => some { s with hub := s.hub.deleteRoute nodeId routeId }
  | .pull request =>
    match s.round with
    | .idle =>
      let (events, hub) := s.hub.pullWebhookEvents nodeId 50 s.now
      match request with
      | .answered => some { s with hub, round := .firing events [] }
      | .answerLost => some { s with hub }
      | .lost => some s
    | .firing _ _ => none
  | .fire now =>
    match s.round with
    | .firing (delivery :: rest) accepted =>
      match fireTrigger env now delivery s.store with
      | some store =>
        some { s with store, round := .firing rest (accepted ++ [delivery.ingressId]) }
      -- the exception ends the round
      | none => some { s with round := .idle }
    | _ => none
  | .acknowledge request =>
    match s.round with
    | .firing [] accepted =>
      let hub :=
        if accepted = [] ∨ request = .lost then s.hub
        else s.hub.acknowledgeWebhookEvents nodeId accepted s.now
      some { s with hub, round := .idle }
    | _ => none
  | .crash => some { s with round := .idle }
  | .trigger op => do
    let store ← s.store.step env op
    return { s with store }
  | .deleteTrigger principalId triggerId => do
    let store ← deleteTrigger s.store principalId triggerId
    return { s with store }

end Steps

def Delivery.key (delivery : Delivery) : String × String :=
  (strip delivery.triggerId, strip delivery.externalEventId)

def WebhookHub.keyOf (hub : WebhookHub) (row : IngressRow) : Option (String × String) :=
  (hub.routes.lookup row.routeId).map fun route =>
    (strip route.triggerId, strip row.externalEventId)

/-- A record beside the run: the events that were fired with their keys, and those whose triggers
have not been deleted since. -/
structure Fired where
  all : List (Nat × String × String) := []
  standing : List (Nat × String × String) := []

def Fired.add (r : Fired) (delivery : Delivery) : Fired where
  all := (delivery.ingressId, delivery.key) :: r.all
  standing := (delivery.ingressId, delivery.key) :: r.standing

def Fired.delete (r : Fired) (triggerId : String) : Fired :=
  { r with standing := r.standing.filter fun entry => entry.2.1 != strip triggerId }

def firedNote (s : WebhookSystem) (l : WebhookLabel) (s' : WebhookSystem) (r : Fired) : Fired :=
  match l with
  | .fire _ =>
    match s.round, s'.round with
    | .firing (delivery :: _) _, .firing _ _ => r.add delivery
    | _, _ => r
  | .deleteTrigger _ triggerId => r.delete triggerId
  | _ => r

def webhookRun (env : TriggerEnv) (nodeId : String) :=
  Transition.recording (webhookStep env nodeId) firedNote

/-- No event is acknowledged before it was fired, and an event that was fired is stored by its
trigger, once, while the trigger stands. -/
structure RelaySafe (s : WebhookSystem × Fired) : Prop where
  fired : ∀ row ∈ s.1.hub.outbox.rows, row.acknowledgedAt ≠ none →
    ∃ key, (row.ingressId, key) ∈ s.2.all
  named : ∀ entry ∈ s.2.all, ∃ row ∈ s.1.hub.outbox.rows,
    row.ingressId = entry.1 ∧ s.1.hub.keyOf row = some entry.2
  stored : ∀ entry ∈ s.2.standing, entry.2 ∈ s.1.store.events.rows.map TriggerEventRow.key
  once : (s.1.store.events.rows.map TriggerEventRow.key).Nodup

end Knoa.Hub
