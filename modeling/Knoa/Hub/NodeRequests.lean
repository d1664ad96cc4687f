import Knoa.Library.Table
import Knoa.Library.Transaction
import Knoa.Tasks.Repository
import Mathlib.Algebra.Order.Ring.Rat
import Mathlib.Algebra.Order.Group.Unbundled.Abs
import Mathlib.Logic.Function.Basic

/-!
# Signed requests of the Nodes

`HubService` verifies a request of a Node, then `HubRepository` stores its nonce in a transaction
of its own; enrollments and connection tickets alike. Anybody may present what a Node has signed.
-/
namespace Knoa.Hub

open Knoa.Tasks (Time strip)
open Relational Transaction

inductive HubError
  | permission (message : String)
  | value (message : String)
  | lookup (message : String)
  | key (name : String)
  | integrity
  deriving DecidableEq

/-- A float of JSON. -/
inductive Timestamp
  | number (value : Time)
  | infinite
  | nan
  deriving DecidableEq

/-- `abs(clock - timestamp) > 120`; no comparison with a NaN holds. -/
def Timestamp.outside (now : Time) : Timestamp → Prop
  | .number value => 120 < |now - value|
  | .infinite => True
  | .nan => False

instance (now : Time) (timestamp : Timestamp) : Decidable (timestamp.outside now) :=
  match timestamp with
  | .number value => inferInstanceAs (Decidable (120 < |now - value|))
  | .infinite => inferInstanceAs (Decidable True)
  | .nan => inferInstanceAs (Decidable False)

/-- The methods of the service that take one of these requests. -/
inductive Endpoint
  | recordPresence
  | provisionWebhookRoute
  | rotateWebhookSecret
  | deleteWebhookRoute
  | pullWebhookEvents
  | acknowledgeWebhookEvents
  | publishNotificationIntent
  | nodeControlState
  | publishNodeModelShare
  deriving DecidableEq

def Endpoint.audience : Endpoint → String
  | .recordPresence => "knoa-node-presence-v1"
  | .provisionWebhookRoute => "knoa-webhook-route-provision-v1"
  | .rotateWebhookSecret => "knoa-webhook-secret-rotate-v1"
  | .deleteWebhookRoute => "knoa-webhook-route-delete-v1"
  | .pullWebhookEvents => "knoa-webhook-event-pull-v1"
  | .acknowledgeWebhookEvents => "knoa-webhook-event-ack-v1"
  | .publishNotificationIntent => "knoa-notification-intent-v1"
  | .nodeControlState => "knoa-node-control-state-v1"
  | .publishNodeModelShare => "knoa-node-model-share-v1"

/-- The canonical text of each further field. -/
abbrev Fields := String → Option String

/-- What a Node signs; `realm` is the `hub_id` of a presence and the `workspace_id` of the others. -/
structure Transcript where
  audience : String
  realm : String
  nodeId : String
  timestamp : Timestamp
  nonce : String
  fields : Fields

structure NodeRequest where
  nodeId : String
  timestamp : Timestamp
  nonce : String
  audience : Option String := none
  fields : Fields := fun _ => none
  signature : String

structure NodeIdentity where
  nodeId : String
  displayName : String
  signingPublicKey : String
  signingKeyVersion : Nat
  configurationPublicKey : String
  configurationKeyVersion : Nat
  platform : String
  version : String

structure EnrollmentRequest where
  grantId : String
  grantSecret : String
  challenge : String
  identity : NodeIdentity
  signature : String

structure TicketPayload where
  audience : String
  hubId : String
  ticketId : String
  nodeId : String
  installationId : String

structure HubNodeRow where
  identity : NodeIdentity
  active : Bool := true
  createdAt : Time
  lastSeen : Option Time := none
  directGatewayUrl : String := ""

def HubNodeRow.nodeId (row : HubNodeRow) : String := row.identity.nodeId

structure NonceRow where
  nodeId : String
  nonce : String
  observedAt : Time

def NonceRow.key (row : NonceRow) : String × String := (row.nodeId, row.nonce)

structure NodeGrantRow where
  grantId : String
  secretDigest : String
  challenge : String
  expiresAt : Time
  consumedAt : Option Time := none

structure TicketRow where
  ticketId : String
  nodeId : String
  installationId : String
  expiresAt : Time
  consumedAt : Option Time := none

structure InstallationRow where
  installationId : String
  subjectId : String
  active : Bool := true

structure NodeStore where
  nodes : Table HubNodeRow.nodeId := .empty
  nonces : Table NonceRow.key := .empty
  grants : Table NodeGrantRow.grantId := .empty
  tickets : Table TicketRow.ticketId := .empty
  installations : Table InstallationRow.installationId := .empty

/-- Signatures under the keys of Nodes. Nobody makes a signature that verifies over what the
holder of the key has not signed. -/
structure NodeSignatures where
  verify : String → Transcript → String → Bool
  signed : String → Transcript → Prop
  unforgeable : ∀ key transcript signature, verify key transcript signature = true →
    signed key transcript

structure HubEnv where
  hubId : String
  workspaceId : String
  sha256 : String → String
  signatures : NodeSignatures
  /-- The signature of an enrollment: the request, the challenge of its grant. -/
  verifyEnrollment : EnrollmentRequest → String → Bool
  /-- The payload of a token that the Hub has signed. -/
  ticketOf : String → Option TicketPayload

section
variable (env : HubEnv)

def hubNode (s : NodeStore) (nodeId : String) : Except HubError HubNodeRow :=
  orRaise ((s.nodes.lookup nodeId).filter (·.active)) (.lookup "Node not found")

/-- The fields that `record_presence` signs. -/
def presenceFields (fields : Fields) : Except HubError Fields := do
  let version ← orRaise (fields "version") (.key "version")
  let name := strip ((fields "display_name").getD "")
  return fun key =>
    if key = "version" then some version
    else if key = "direct_gateway_url" then some ((fields key).getD "")
    else if key = "display_name" ∧ name ≠ "" then some name
    else none

/-- `record_presence` before it stores anything. -/
def checkPresence (request : NodeRequest) (now : Time) (s : NodeStore) :
    Except HubError Transcript := do
  let node ← hubNode s request.nodeId
  require (¬request.timestamp.outside now) (.permission "Node presence timestamp rejected")
  let fields ← presenceFields request.fields
  let transcript : Transcript :=
    { audience := Endpoint.recordPresence.audience, realm := env.hubId, nodeId := node.nodeId,
      timestamp := request.timestamp, nonce := request.nonce, fields }
  require (env.signatures.verify node.identity.signingPublicKey transcript request.signature = true)
    (.permission "Node presence signature rejected")
  return transcript

/-- `_verify_node_control` before it stores the nonce. -/
def checkControl (endpoint : Endpoint) (request : NodeRequest) (now : Time) (s : NodeStore) :
    Except HubError Transcript := do
  require (¬request.timestamp.outside now) (.permission "Node control timestamp rejected")
  require (request.audience.getD endpoint.audience = endpoint.audience)
    (.permission "Node control audience rejected")
  let transcript : Transcript :=
    { audience := endpoint.audience, realm := env.workspaceId, nodeId := request.nodeId,
      timestamp := request.timestamp, nonce := request.nonce, fields := request.fields }
  let node ← hubNode s request.nodeId
  require (env.signatures.verify node.identity.signingPublicKey transcript request.signature = true)
    (.permission "Node request signature rejected")
  return transcript

def checkRequest (endpoint : Endpoint) (request : NodeRequest) (now : Time) (s : NodeStore) :
    Except HubError Transcript :=
  if endpoint = .recordPresence then checkPresence env request now s
  else checkControl env endpoint request now s

/-- `COALESCE(NULLIF(?, ''), column)` -/
def orKept (value kept : String) : String := if value = "" then kept else value

/-- The row that `record_presence` leaves of its Node. -/
def HubNodeRow.seen (row : HubNodeRow) (fields : Fields) (now : Time) : HubNodeRow :=
  { row with
    identity :=
      { row.identity with
        version := orKept ((fields "version").getD "") row.identity.version
        displayName := orKept ((fields "display_name").getD "") row.identity.displayName }
    lastSeen := some now
    directGatewayUrl := (fields "direct_gateway_url").getD "" }

/-- The transactions of `consume_node_nonce` and of `record_presence`. -/
def consumeNonce (endpoint : Endpoint) (transcript : Transcript) (now : Time) :
    Body NodeStore HubError Unit := fun s => do
  let nonces ← orRaise
    (s.nonces.insert { nodeId := transcript.nodeId, nonce := transcript.nonce, observedAt := now })
    (.permission "Node nonce was already consumed")
  let nodes :=
    if endpoint = .recordPresence then
      s.nodes.update (fun row => row.nodeId == transcript.nodeId && row.active)
        (fun row => row.seen transcript.fields now) (fun _ => rfl)
    else s.nodes
  return ((), { s with
    nodes, nonces := nonces.delete fun row => decide (row.observedAt < now - 600) })

def createNodeGrant (ttl : Int) (row : NodeGrantRow) (now : Time) :
    Body NodeStore HubError Unit := fun s => do
  require (60 ≤ ttl ∧ ttl ≤ 3600) (.value "Enrollment TTL must be between 60 and 3600 seconds")
  let grants ← orRaise
    (s.grants.insert { row with expiresAt := now + ttl, consumedAt := none })
    .integrity
  return ((), { s with grants })

/-- `enroll_node` before it consumes the grant. -/
def checkEnrollment (request : EnrollmentRequest) (now : Time) (s : NodeStore) :
    Except HubError Unit := do
  let grant ← orRaise (s.grants.lookup request.grantId) (.permission "Node enrollment rejected")
  require (grant.secretDigest = env.sha256 request.grantSecret ∧ grant.consumedAt = none ∧
    now < grant.expiresAt) (.permission "Node enrollment rejected")
  require (request.challenge = grant.challenge) (.permission "Node enrollment challenge rejected")
  require (env.verifyEnrollment request grant.challenge = true)
    (.permission "Node enrollment signature rejected")

/-- `consume_enrollment` -/
def consumeNodeGrant (request : EnrollmentRequest) (now : Time) :
    Body NodeStore HubError Unit := fun s => do
  let grant ← orRaise (s.grants.lookup request.grantId) (.permission "Node enrollment rejected")
  require (grant.consumedAt = none ∧ now < grant.expiresAt) (.permission "Node enrollment rejected")
  let nodes ← orRaise
    (s.nodes.insert { identity := request.identity, createdAt := now })
    .integrity
  return ((), { s with
    nodes, grants := s.grants.update (fun row => row.grantId == request.grantId)
      (fun row => { row with consumedAt := some now }) (fun _ => rfl) })

inductive Transport
  | direct
  | relay
  deriving DecidableEq

inductive TicketScope
  | session
  | pairing
  deriving DecidableEq

/-- `issue_ticket`; `ticketId` is drawn. -/
def issueTicket (installationId nodeId : String) (transport : Transport) (scope : TicketScope)
    (subjectId : Option String) (ticketId : String) (now : Time) : Body NodeStore HubError Unit :=
  fun s => do
    let installation ← orRaise ((s.installations.lookup installationId).filter (·.active))
      (.lookup "App installation not found")
    require (subjectId.all (· == installation.subjectId) = true)
      (.permission "App installation does not belong to account")
    let _ ← hubNode s nodeId
    require (scope = .pairing → transport = .relay) (.value "Pairing requires Relay transport")
    let tickets ← orRaise
      (s.tickets.insert { ticketId, nodeId, installationId, expiresAt := now + 90 })
      .integrity
    return ((), { s with tickets })

/-- `consume_ticket` -/
def consumeTicket (ticketId nodeId installationId : String) (now : Time) :
    Body NodeStore HubError Unit := fun s => do
  let row ← orRaise (s.tickets.lookup ticketId) (.permission "Connection ticket rejected")
  require (row.nodeId = nodeId ∧ row.installationId = installationId ∧ row.consumedAt = none ∧
    now < row.expiresAt) (.permission "Connection ticket rejected")
  return ((), { s with
    tickets := s.tickets.update (fun row => row.ticketId == ticketId)
      (fun row => { row with consumedAt := some now }) (fun _ => rfl) })

/-- `verify_and_consume_ticket` -/
def verifyAndConsumeTicket (token : String) (now : Time) : Body NodeStore HubError TicketPayload :=
  fun s => do
    let payload ← orRaise (env.ticketOf token) (.permission "Connection ticket rejected")
    require (payload.audience = "knoa-node-session-v1" ∧ payload.hubId = env.hubId)
      (.permission "Connection ticket rejected")
    let (_, consumed) ← consumeTicket payload.ticketId payload.nodeId payload.installationId now s
    return (payload, consumed)

end

/-- A request whose check is done and, once read, the clock that its transaction stores. -/
structure CheckedRequest where
  endpoint : Endpoint
  transcript : Transcript
  checkedAt : Time
  readAt : Option Time := none

/-- A request that has taken effect. -/
structure Effect where
  endpoint : Endpoint
  transcript : Transcript
  checkedAt : Time
  readAt : Time

/-- The Hub, what is in progress and, below it, what has taken effect. -/
structure NodeHub where
  store : NodeStore := {}
  /-- The latest reading for a request. -/
  clock : Time := 0
  requests : List CheckedRequest := []
  enrollments : List EnrollmentRequest := []
  effects : List Effect := []
  enrolled : List (String × String) := []
  redeemed : List TicketPayload := []

inductive NodeHubStep
  | createGrant (ttl : Int) (row : NodeGrantRow) (now : Time)
  | checkEnrollment (request : EnrollmentRequest) (now : Time)
  | consumeEnrollment (i : Nat) (now : Time)
  | check (endpoint : Endpoint) (request : NodeRequest) (now : Time)
  | readClock (i : Nat) (now : Time)
  | consume (i : Nat)
  /-- An installation is registered, changed or revoked. -/
  | putInstallation (row : InstallationRow)
  | issueTicket (installationId nodeId : String) (transport : Transport) (scope : TicketScope)
      (subjectId : Option String) (ticketId : String) (now : Time)
  | consumeTicket (token : String) (now : Time)

namespace NodeHub

/-- The readings of the clock for requests do not go back; the others are arbitrary. -/
def step (env : HubEnv) (s : NodeHub) : NodeHubStep → Option NodeHub
  | .createGrant ttl row now =>
    match createNodeGrant ttl row now s.store with
    | .ok (_, store) => some { s with store }
    | .error _ => none
  | .checkEnrollment request now =>
    match Hub.checkEnrollment env request now s.store with
    | .ok _ => some { s with enrollments := s.enrollments ++ [request] }
    | .error _ => none
  | .consumeEnrollment i now =>
    match s.enrollments[i]? with
    | some request =>
      match consumeNodeGrant request now s.store with
      | .ok (_, store) => some { s with
          store, enrollments := s.enrollments.eraseIdx i,
          enrolled := (request.grantId, request.identity.nodeId) :: s.enrolled }
      | .error _ => some { s with enrollments := s.enrollments.eraseIdx i }
    | none => none
  | .check endpoint request now =>
    if s.clock ≤ now then
      match checkRequest env endpoint request now s.store with
      | .ok transcript => some { s with
          clock := now
          requests := s.requests ++ [{ endpoint, transcript, checkedAt := now }] }
      | .error _ => some { s with clock := now }
    else none
  | .readClock i now =>
    match s.requests[i]? with
    | some { endpoint, transcript, checkedAt, readAt := none } =>
      if s.clock ≤ now then
        some { s with
          clock := now
          requests := s.requests.set i { endpoint, transcript, checkedAt, readAt := some now } }
      else none
    | _ => none
  | .consume i =>
    match s.requests[i]? with
    | some { endpoint, transcript, checkedAt, readAt := some readAt } =>
      match consumeNonce endpoint transcript readAt s.store with
      | .ok (_, store) => some { s with
          store, requests := s.requests.eraseIdx i
          effects := { endpoint, transcript, checkedAt, readAt } :: s.effects }
      | .error _ => some { s with requests := s.requests.eraseIdx i }
    | _ => none
  | .putInstallation row => some { s with
      store := { s.store with installations := s.store.installations.upsert row } }
  | .issueTicket installationId nodeId transport scope subjectId ticketId now =>
    match Hub.issueTicket installationId nodeId transport scope subjectId ticketId now s.store with
    | .ok (_, store) => some { s with store }
    | .error _ => none
  | .consumeTicket token now =>
    match verifyAndConsumeTicket env token now s.store with
    | .ok (payload, store) => some { s with store, redeemed := payload :: s.redeemed }
    | .error _ => none

end NodeHub

end Knoa.Hub
