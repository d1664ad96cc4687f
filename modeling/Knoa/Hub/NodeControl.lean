import Knoa.Hub.NodeRequests
import Knoa.Hub.NotificationInbox
import Knoa.Hub.WorkProjections
import Knoa.Library.Transition

/-!
# What the Nodes store on the Hub

The tables of `HubRepository` that verified requests of the Nodes write. An operation that reads and
then writes does so in two steps; any other request may run between two steps, or the request fail.
-/
namespace Knoa.Hub.Control

open Knoa.Tasks (Time)
open Relational (Table)
open Transaction (require orRaise)

inductive ResourceKind
  | model
  | mcp
  deriving DecidableEq

inductive ProviderProtocol
  | openaiCompatible
  | anthropic
  deriving DecidableEq

/-- `declared_capabilities` of a model tell streaming, tools and whether there is vision; `other` is
a spec that no Node publishes. -/
inductive ResourceSpec
  | model (providerProtocol : ProviderProtocol) (modelIdentity : String) (vision : Bool)
  | other (text : String)
  deriving DecidableEq

structure WorkspaceResource where
  resourceId : String
  kind : ResourceKind
  generation : Nat
  canonicalDigest : String
  displayName : String
  spec : ResourceSpec
  enabled : Bool
  createdBy : String
  deriving DecidableEq

inductive DeploymentSpec
  | model (maxRemoteConcurrency : Nat) (materializedDigest : String)
  | other (text : String)
  deriving DecidableEq

structure Deployment where
  deploymentId : String
  kind : ResourceKind
  resourceId : String
  resourceGeneration : Nat
  resourceDigest : String
  targetNodeId : String
  desiredGeneration : Nat
  spec : DeploymentSpec
  enabled : Bool
  deriving DecidableEq

inductive Capability
  | modelInference
  | mcpInvoke
  deriving DecidableEq

structure ResourceGrant where
  grantId : String
  callerNodeId : String
  targetDeploymentId : String
  capability : Capability
  maxRequestDeadline : Time
  expiresAt : Time
  revokedAt : Option Time := none
  deriving DecidableEq

structure Observation where
  deploymentId : String
  nodeId : String
  appliedDigest : String
  healthEpoch : Nat
  health : String
  capabilities : String
  availableCapacity : Nat
  observedAt : Time
  expiresAt : Time
  signature : String
  deriving DecidableEq

structure Route where
  routeId : String
  accountId : String
  nodeId : String
  principalId : String
  taskId : String
  triggerId : String
  displayName : String
  secretCiphertext : String
  previousSecretCiphertext : String := ""
  previousSecretExpiresAt : Option Time := none
  secretVersion : Nat := 1
  active : Bool := true
  deriving DecidableEq

structure ControlStore where
  resources : Table WorkspaceResource.resourceId := .empty
  deployments : Table Deployment.deploymentId := .empty
  grants : Table ResourceGrant.grantId := .empty
  observations : Table Observation.deploymentId := .empty
  projections : WorkTable := .empty
  notifications : Inbox := .empty
  routes : Table Route.routeId := .empty

/-- `put_workspace_resource` before it writes, against the row that it has read. -/
def admitResource (item : WorkspaceResource) (existing : Option WorkspaceResource) :
    Except HubError Unit := do
  require (1 ≤ item.generation) (.value "Workspace resource generation is invalid")
  match existing with
  | none => return ()
  | some existing =>
    require (existing.kind = item.kind) (.value "Workspace resource kind is immutable")
    require (existing.generation ≤ item.generation)
      (.value "Workspace resource generation is stale")
    require (item.generation = existing.generation →
      existing.canonicalDigest = item.canonicalDigest ∧ existing.spec = item.spec)
      (.value "Published generation is immutable")

/-- `put_deployment` against its resource. -/
def matchResource (item : Deployment) (resource : Option WorkspaceResource) :
    Except HubError Unit := do
  let resource ← orRaise resource (.lookup "Workspace resource not found")
  require (resource.kind = item.kind) (.value "Deployment resource kind mismatch")
  require (item.resourceGeneration = resource.generation)
    (.value "Deployment resource generation mismatch")
  require (item.resourceDigest = resource.canonicalDigest)
    (.value "Deployment resource digest mismatch")

/-- `put_deployment` before it writes, against the row that it has read. -/
def admitDeployment (item : Deployment) (existing : Option Deployment) : Except HubError Unit :=
  match existing with
  | none => return ()
  | some existing => do
    require (existing.desiredGeneration ≤ item.desiredGeneration)
      (.value "Deployment desired generation is stale")
    require (item.desiredGeneration = existing.desiredGeneration →
      existing.kind = item.kind ∧ existing.resourceId = item.resourceId ∧
        existing.resourceGeneration = item.resourceGeneration ∧
        existing.resourceDigest = item.resourceDigest ∧
        existing.targetNodeId = item.targetNodeId ∧ existing.spec = item.spec ∧
        existing.enabled = item.enabled)
      (.value "Deployment generation is immutable")

/-- `revoke_resource_grant` -/
def revokeResourceGrant (grantId : String) (now : Time) (grants : Table ResourceGrant.grantId) :
    Table ResourceGrant.grantId :=
  grants.update (fun row => row.grantId == grantId) (fun row => { row with revokedAt := some now })
    (fun _ => rfl)

/-- `put_webhook_route`; `none` where the drawn id is taken. -/
def putWebhookRoute (item : Route) (routes : Table Route.routeId) : Option (Table Route.routeId) :=
  if routes.rows.any fun row => row.nodeId == item.nodeId && row.taskId == item.taskId then
    some routes
  else routes.insert item

/-- `rotate_webhook_secret` -/
def rotateWebhookSecret (routeId secretCiphertext : String) (overlapUntil : Time)
    (routes : Table Route.routeId) : Table Route.routeId :=
  routes.update (fun row => row.routeId == routeId && row.active)
    (fun row => { row with
      previousSecretCiphertext := row.secretCiphertext,
      previousSecretExpiresAt := some overlapUntil, secretCiphertext,
      secretVersion := row.secretVersion + 1 }) (fun _ => rfl)

/-- `delete_webhook_route` -/
def deleteWebhookRoute (nodeId routeId : String) (routes : Table Route.routeId) :
    Table Route.routeId :=
  routes.update (fun row => row.routeId == routeId && row.nodeId == nodeId)
    (fun row => { row with active := false }) (fun _ => rfl)

structure Publication where
  deploymentId : String
  resourceId : String
  displayName : String
  modelIdentity : String
  providerProtocol : ProviderProtocol
  supportsVision : Bool
  materializedDigest : String
  maxRemoteConcurrency : Nat
  allowedNodeIds : List String
  enabled : Bool

def Publication.spec (publication : Publication) : ResourceSpec :=
  .model publication.providerProtocol publication.modelIdentity publication.supportsVision

def Publication.deploymentSpec (publication : Publication) : DeploymentSpec :=
  .model publication.maxRemoteConcurrency publication.materializedDigest

/-- The callers that get a grant. -/
def Publication.allowed (publication : Publication) : List String :=
  if publication.enabled then publication.allowedNodeIds else []

structure Digests where
  spec : ResourceSpec → String
  text : String → String

def nodeCreator (nodeId : String) : String := "node:" ++ nodeId

def isNodeCreator (createdBy : String) : Bool := "node:".toList.isPrefixOf createdBy.toList

/-- What becomes of the resource: it is put, or another owner's is used as it is. -/
inductive ResourcePlan
  | put (item : WorkspaceResource)
  | keep (resource : WorkspaceResource)

def checkPublication (nodeId : String) (publication : Publication) : Except HubError Unit := do
  require publication.allowedNodeIds.Nodup (.value "Model share allowed Nodes must be unique")
  require (nodeId ∉ publication.allowedNodeIds)
    (.value "A Node cannot grant its shared model to itself")

variable (digests : Digests)

def planResource (nodeId : String) (publication : Publication) (deployment : Option Deployment)
    (current : Option WorkspaceResource) : Except HubError ResourcePlan :=
  let item (generation : Nat) : WorkspaceResource :=
    { resourceId := publication.resourceId, kind := .model, generation,
      canonicalDigest := digests.spec publication.spec, displayName := publication.displayName,
      spec := publication.spec, enabled := publication.enabled, createdBy := nodeCreator nodeId }
  match current with
  | none => .ok (.put (item 1))
  | some current =>
    if current.createdBy = nodeCreator nodeId then
      .ok (.put (item
        (if current.canonicalDigest ≠ digests.spec publication.spec ∨
            current.spec ≠ publication.spec then current.generation + 1
          else current.generation)))
    else if isNodeCreator current.createdBy = true ∨
        (∀ row ∈ deployment, row.resourceId ≠ publication.resourceId) ∨
        current.kind ≠ .model ∨ current.spec ≠ publication.spec then
      .error (.permission "Node cannot replace another owner's Workspace Resource")
    else .ok (.keep current)

def planDeployment (nodeId : String) (publication : Publication) (deployment : Option Deployment)
    (resourceGeneration : Nat) (resourceDigest : String) : Deployment :=
  { deploymentId := publication.deploymentId
    kind := .model
    resourceId := publication.resourceId
    resourceGeneration, resourceDigest, targetNodeId := nodeId
    desiredGeneration :=
      match deployment with
      | none => 1
      | some existing =>
        if existing.resourceId ≠ publication.resourceId ∨
            existing.resourceGeneration ≠ resourceGeneration ∨
            existing.resourceDigest ≠ resourceDigest ∨
            existing.spec ≠ publication.deploymentSpec ∨
            existing.enabled ≠ publication.enabled then existing.desiredGeneration + 1
        else existing.desiredGeneration
    spec := publication.deploymentSpec
    enabled := publication.enabled }

def grantId (deploymentId callerNodeId : String) : String :=
  "grant_" ++ Tasks.takeChars
    (digests.text (deploymentId ++ ":" ++ callerNodeId ++ ":model_inference")) 40

def modelGrant (deploymentId callerNodeId : String) (now : Time) : ResourceGrant :=
  { grantId := grantId digests deploymentId callerNodeId, callerNodeId,
    targetDeploymentId := deploymentId, capability := .modelInference, maxRequestDeadline := 600,
    expiresAt := now + 10 * 365 * 24 * 60 * 60 }

/-- Where a call of `publish_node_model_share` is; `deployment` is the row that it has read. -/
inductive ShareStage
  | verified
  | located (deployment : Option Deployment)
  | resource (deployment : Option Deployment) (read : Option WorkspaceResource)
      (item : WorkspaceResource)
  /-- The item has passed against the row that the repository has read. -/
  | admitted (deployment : Option Deployment) (read : Option WorkspaceResource)
      (item : WorkspaceResource) (seen : Option WorkspaceResource)
  | stored (deployment : Option Deployment) (generation : Nat)
  | resolved (deployment : Option Deployment) (generation : Nat) (digest : String)
  | matched (deployment : Option Deployment) (item : Deployment)
  | deploying (deployment : Option Deployment) (item : Deployment) (seen : Option Deployment)
  | deployed
  | revoking (grants : List String)
  | granting (callers : List String)

inductive Work
  /-- `overlapped`: another publication of the deployment has been under way. -/
  | share (publication : Publication) (stage : ShareStage) (overlapped : Bool)
  | projection (item : Projection) (seen : Option WorkRow)
  | observation (item : Observation)
  | rotate (routeId : String)

structure Call where
  slot : Nat
  nodeId : String
  work : Work

structure ControlHub where
  store : ControlStore := {}
  calls : Table Call.slot := .empty

inductive ControlStep
  | beginShare (i : Nat) (nodeId : String) (publication : Publication)
  | beginProjection (i : Nat) (nodeId : String) (item : Projection)
  | beginObservation (i : Nat) (nodeId : String) (item : Observation)
  | beginRotate (i : Nat) (nodeId routeId : String)
  | advance (i : Nat) (now : Time) (secretCiphertext : String)
  | fail (i : Nat)
  | reconcile (nodeId : String) (entityKind : WorkKind) (principalId : String)
      (active : List String)
  | notify (nodeId intentId : String) (intent : Intent) (now : Time)
  | provision (nodeId : String) (item : Route)
  | deleteRoute (nodeId routeId : String)

namespace ControlHub

def shares (deploymentId : String) (call : Call) : Bool :=
  match call.work with
  | .share publication _ _ => publication.deploymentId == deploymentId
  | _ => false

def Call.overlap (call : Call) : Call :=
  match call.work with
  | .share publication stage _ => { call with work := .share publication stage true }
  | _ => call

theorem overlap_slot (call : Call) : (Call.overlap call).slot = call.slot := by
  unfold Call.overlap
  split <;> rfl

def start (s : ControlHub) (i : Nat) (nodeId : String) (work : Work) : Option ControlHub :=
  (s.calls.insert { slot := i, nodeId, work }).map fun calls => { s with calls }

theorem start_some {s s' : ControlHub} {i : Nat} {nodeId : String} {work : Work}
    (begun : s.start i nodeId work = some s') : ∃ calls, s.calls.insert
      { slot := i, nodeId, work } = some calls ∧ { s with calls } = s' :=
  Option.map_eq_some_iff.mp begun

theorem start_store {s s' : ControlHub} {i : Nat} {nodeId : String} {work : Work}
    (begun : s.start i nodeId work = some s') : s'.store = s.store := by
  obtain ⟨_, _, rfl⟩ := start_some begun
  rfl

def leave (s : ControlHub) (i : Nat) : ControlHub :=
  { s with calls := s.calls.delete fun call => call.slot == i }

def move (s : ControlHub) (call : Call) (work : Work) : ControlHub :=
  { s with calls := s.calls.upsert { call with work } }

/-- The next step of a share; `none` is an error. -/
def shareStep (store : ControlStore) (nodeId : String) (publication : Publication) (now : Time) :
    ShareStage → Except HubError (ControlStore × ShareStage)
  | .verified => do
    let deployment := store.deployments.lookup publication.deploymentId
    require (∀ row ∈ deployment, row.targetNodeId = nodeId)
      (.permission "Node cannot replace another Node deployment")
    return (store, .located deployment)
  | .located deployment => do
    let current := store.resources.lookup publication.resourceId
    match ← planResource digests nodeId publication deployment current with
    | .put item => return (store, .resource deployment current item)
    | .keep resource =>
      return (store, .resolved deployment resource.generation resource.canonicalDigest)
  | .resource deployment read item => do
    let seen := store.resources.lookup publication.resourceId
    admitResource item seen
    return (store, .admitted deployment read item seen)
  | .admitted deployment _ item _ =>
    return ({ store with resources := store.resources.upsert item },
      .stored deployment item.generation)
  | .stored deployment generation => do
    let resource ← orRaise (store.resources.lookup publication.resourceId)
      (.lookup "Workspace resource not found")
    return (store, .resolved deployment generation resource.canonicalDigest)
  | .resolved deployment generation digest => do
    let item := planDeployment nodeId publication deployment generation digest
    matchResource item (store.resources.lookup publication.resourceId)
    return (store, .matched deployment item)
  | .matched deployment item => do
    let seen := store.deployments.lookup publication.deploymentId
    admitDeployment item seen
    return (store, .deploying deployment item seen)
  | .deploying _ item _ =>
    return ({ store with deployments := store.deployments.upsert item }, .deployed)
  | .deployed =>
    return (store, .revoking ((store.grants.rows.filter fun row =>
      row.targetDeploymentId == publication.deploymentId && row.revokedAt.isNone &&
        !publication.allowed.contains row.callerNodeId).map ResourceGrant.grantId))
  | .revoking (grant :: grants) =>
    return ({ store with grants := revokeResourceGrant grant now store.grants }, .revoking grants)
  | .revoking [] => return (store, .granting (publication.allowed.insertionSort (· ≤ ·)))
  | .granting (caller :: callers) => do
    let deployment ← orRaise (store.deployments.lookup publication.deploymentId)
      (.lookup "Deployment not found")
    require (deployment.kind = .model) (.value "Model grant requires a Model Deployment")
    return ({ store with
      grants := store.grants.upsert (modelGrant digests publication.deploymentId caller now) },
      .granting callers)
  | .granting [] => return (store, .granting [])

def step (s : ControlHub) : ControlStep → Option ControlHub
  | .beginShare i nodeId publication =>
    match checkPublication nodeId publication with
    | .error _ => none
    | .ok () =>
      let overlapped := s.calls.rows.any (shares publication.deploymentId)
      start { s with
        calls := s.calls.update (shares publication.deploymentId) Call.overlap overlap_slot }
        i nodeId (.share publication .verified overlapped)
  | .beginProjection i nodeId item =>
    let seen := s.store.projections.lookup item.key
    if ∀ row ∈ seen, row.item.projectionSeq < item.projectionSeq then
      s.start i nodeId (.projection item seen)
    else none
  | .beginObservation i nodeId item =>
    match s.store.deployments.lookup item.deploymentId with
    | some deployment =>
      if deployment.targetNodeId = nodeId then
        s.start i nodeId (.observation { item with nodeId })
      else none
    | none => none
  | .beginRotate i nodeId routeId =>
    match s.store.routes.lookup routeId with
    | some route => if route.nodeId = nodeId then s.start i nodeId (.rotate routeId) else none
    | none => none
  | .advance i now secretCiphertext =>
    match s.calls.lookup i with
    | none => none
    | some call =>
      match call.work with
      | .share _ (.granting []) _ => some (s.leave i)
      | .share publication stage overlapped =>
        match shareStep digests s.store call.nodeId publication now stage with
        | .error _ => some (s.leave i)
        | .ok (store, stage) =>
          some ({ s with store }.move call (.share publication stage overlapped))
      | .projection item _ => some ({ s with store := { s.store with
          projections :=
            s.store.projections.upsert { nodeId := call.nodeId, item, projectedAt := now } } }.leave i)
      | .observation item => some ({ s with store := { s.store with
          observations := s.store.observations.upsert item } }.leave i)
      | .rotate routeId => some ({ s with store := { s.store with
          routes := rotateWebhookSecret routeId secretCiphertext (now + 300) s.store.routes } }.leave i)
  | .fail i => some (s.leave i)
  | .reconcile nodeId entityKind principalId active => some { s with store := { s.store with
      projections :=
        pruneWorkProjections s.store.projections nodeId entityKind principalId active } }
  | .notify nodeId intentId intent now => some { s with store := { s.store with
      notifications := putNotificationIntent s.store.notifications intentId
        { intent with nodeId } now } }
  | .provision nodeId item =>
    (putWebhookRoute { item with nodeId } s.store.routes).map fun routes =>
      { s with store := { s.store with routes } }
  | .deleteRoute nodeId routeId => some { s with store := { s.store with
      routes := deleteWebhookRoute nodeId routeId s.store.routes } }

end ControlHub

end Knoa.Hub.Control
