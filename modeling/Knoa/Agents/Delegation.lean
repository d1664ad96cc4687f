import Mathlib.Data.List.Sort
import Mathlib.Data.String.Basic
import Knoa.Agents.Policies
import Knoa.Tasks.Operations

/-!
# Delegation

`DelegationService` with the tables it writes. A spawn goes through its writes one at a time, under
the lock of the service; between two of them other calls may run or the process may end.
-/
namespace Knoa.Agents
open Knoa.Tasks Relational Transaction

inductive ParentKind
  | conversationTurn
  | taskExecution
  deriving DecidableEq, Repr

inductive DelegationMode
  | join
  | detached
  deriving DecidableEq, Repr

inductive SpawnError
  | agent (error : AgentError)
  | task (error : TaskError)
  | interrupted
  deriving DecidableEq, Repr

/-- The columns a spawn is idempotent under. -/
structure LinkKey where
  principalId : String
  parentKind : ParentKind
  parentId : String
  idempotencyKey : String
  deriving DecidableEq, Repr

structure DelegationLink where
  delegationId : String
  principalId : String
  parentKind : ParentKind
  parentId : String
  parentAgentId : String
  parentAgentDigest : String
  childAgentId : String
  childAgentDigest : String
  childSessionHandle : String
  childTaskId : String
  mode : DelegationMode
  depth : Nat
  invocationPolicy : ResolvedInvocationPolicy
  invocationPolicyDigest : String
  idempotencyKey : String
  createdAt : Time
  deriving DecidableEq

def DelegationLink.key (link : DelegationLink) : LinkKey where
  principalId := link.principalId
  parentKind := link.parentKind
  parentId := link.parentId
  idempotencyKey := link.idempotencyKey

abbrev Links := Table DelegationLink.delegationId

namespace Links

def findIdempotent (links : Links) (key : LinkKey) : Option DelegationLink :=
  links.rows.find? (fun link => link.key == key)

/-- `ORDER BY created_at` does not matter to the callers. -/
def listParent (links : Links) (principalId : String) (parentKind : ParentKind)
    (parentId : String) : List DelegationLink :=
  links.rows.filter (fun link => link.principalId == principalId &&
    link.parentKind == parentKind && link.parentId == parentId)

def findForChildTask (links : Links) (principalId childTaskId : String) : Option DelegationLink :=
  links.rows.find? (fun link => link.principalId == principalId && link.childTaskId == childTaskId)

/-- `create`: a link that breaks a key of the table gives way to the one that its
idempotency key already names. -/
def create (links : Links) (link : DelegationLink) : Except AgentError (DelegationLink × Links) := do
  require (1 ≤ link.depth ∧ link.depth ≤ 8) (.value "depth")
  let clash := links.rows.any (fun other =>
    other.childTaskId == link.childTaskId || other.key == link.key)
  match links.insert link with
  | some links' => if clash then existing links else return (link, links')
  | none => existing links
where
  existing (links : Links) : Except AgentError (DelegationLink × Links) := do
    let found ← orRaise (links.findIdempotent link.key) (.runtime "IntegrityError")
    return (found, links)

end Links

/-- `sorted(..)`. -/
def sortedIds (ids : Finset String) : List String :=
  Quot.liftOn ids.val (fun l => l.insertionSort (· ≤ ·)) (by
    intro a b same
    have perm : (a.insertionSort (· ≤ ·)).Perm (b.insertionSort (· ≤ ·)) :=
      (List.perm_insertionSort _ a).trans (same.trans (List.perm_insertionSort _ b).symm)
    exact perm.eq_of_pairwise (fun _ _ _ _ => le_antisymm) (List.pairwise_insertionSort _ a)
      (List.pairwise_insertionSort _ b))

/-- The `context` of a spawn: the Artifacts it names, and its JSON text. -/
structure DelegationContext where
  artifactIds : Finset String := ∅
  text : JsonText := .emptyObject
  deriving DecidableEq

/-- The arguments of `spawn`. The principal of a `RuntimeScope` is normalised. -/
structure SpawnRequest where
  scope : RuntimeScope
  parentId : String
  targetAgentId : String
  goal : String
  context : DelegationContext := {}
  requestedCapabilities : Finset String := ∅
  requestedTools : Finset String := ∅
  requestedSkills : Finset String := ∅
  deadlineSeconds : Time := 120
  mode : DelegationMode := .detached
  idempotencyKey : String
  normal : normalizeIdentifier scope.principalId "principal_id" 256 = .ok scope.principalId
  deriving DecidableEq

def SpawnRequest.key (q : SpawnRequest) (parentKind : ParentKind) : LinkKey where
  principalId := q.scope.principalId
  parentKind := parentKind
  parentId := q.parentId
  idempotencyKey := q.idempotencyKey

/-- What a spawn asks of the rest of the platform: the principal's capabilities, the
tools and skills there are, the sizes and copies of Artifacts, a session handle. -/
structure SpawnPorts where
  principalCapabilities : Finset String
  availableTools : Finset String
  installedSkills : Finset String
  artifactSize : String → Except AgentError Nat
  shareArtifact : String → Except AgentError String
  sessionHandles : Nat → String

/-- A child that `tasks.create` is about to be called for. -/
structure StagedChild where
  kind : ParentKind
  parentPolicy : ResolvedInvocationPolicy
  childPolicy : ResolvedInvocationPolicy
  scope : RuntimeScope
  goal : String
  attachments : List ArtifactAttachment
  deriving DecidableEq

inductive SpawnPhase
  | found (link : DelegationLink)
  | reactivating (link : DelegationLink)
  | counting (kind : ParentKind) (policy : ResolvedInvocationPolicy)
      (remaining : List DelegationLink) (active : Nat)
  | creating (staged : StagedChild)
  | announcing (staged : StagedChild) (child : TaskRecord)
  | recording (staged : StagedChild) (child : TaskRecord)
  | linking (staged : StagedChild) (child : TaskRecord)
  | activating (link : DelegationLink) (child : TaskRecord)
  | cancelling (child : TaskRecord) (error : SpawnError)
  deriving DecidableEq

/-- The spawn that holds `_spawn_lock`. -/
structure SpawnFrame where
  request : SpawnRequest
  phase : SpawnPhase
  deriving DecidableEq

structure SpawnedChild where
  request : SpawnRequest
  kind : ParentKind
  taskId : String
  deriving DecidableEq

def SpawnedChild.key (child : SpawnedChild) : LinkKey := child.request.key child.kind

/-- The tables, the configuration in force, the conversation turns, whether the Core
serves, what is under way, the result of the last spawn, and for the record the children
that were created and activated. -/
structure Delegating where
  store : Store
  snapshots : Snapshots := .empty
  links : Links := .empty
  resolver : NodeAgentResolver
  turns : List (String × String)
  serving : Bool := false
  spawning : Option SpawnFrame := none
  recovering : Option (List TaskRecord) := none
  outcome : Option (Except SpawnError DelegationLink) := none
  children : List SpawnedChild := []
  activated : List String := []

structure SpawnEnv where
  tasks : Tasks.Env
  agentDigest : NodeAgent → String
  policyDigest : ResolvedInvocationPolicy → String

def agentCall {α : Type} (x : Except AgentError α) : Except SpawnError α := x.mapError .agent

def taskCall {α : Type} (x : Except TaskError α) : Except SpawnError α := x.mapError .task

/-- `InvocationLimits(..)` with the deadline of a spawn. -/
def spawnLimits (deadlineSeconds : Time) (parent : InvocationLimits) (child : DelegationPolicy) :
    Except AgentError InvocationLimits :=
  if range : 0 < deadlineSeconds ∧ deadlineSeconds ≤ 86400 then
    .ok {
      deadlineSeconds, maxGatewayToolCalls := parent.maxGatewayToolCalls
      maxArtifactBytes := parent.maxArtifactBytes
      maxChildren := child.maxChildren
      maxParallelChildren := child.maxParallelChildren
      deadline := range
      toolCalls := parent.toolCalls
      children := child.inRange.children
      parallel := child.inRange.parallel }
  else .error (.value "deadline_seconds")

/-- `_sessions.create`: five handles are tried. -/
def createSession (s : Store) (principalId agentId : String) (handles : Nat → String) :
    Except AgentError (RuntimeScope × Store) := do
  require (strip principalId ≠ "") (.value "principal_id must not be empty")
  require (strip agentId ≠ "") (.value "agent_id must not be empty")
  attempt ((List.range 5).map (fun i => strip (handles i)))
where
  attempt : List String → Except AgentError (RuntimeScope × Store)
    | [] => .error (.runtime "Could not allocate a unique session handle")
    | handle :: rest => do
      require (handle ≠ "" ∧ handle.length ≤ 256) (.value "session_handle")
      match s.sessions.insert
          { sessionHandle := handle, principalId := strip principalId, agentId := strip agentId } with
      | some sessions =>
        return ({ principalId := strip principalId, sessionHandle := handle }, { s with sessions })
      | none => attempt rest

def checkParentPolicy (q : SpawnRequest) (parent : ResolvedInvocationPolicy) (active : Nat) :
    Except AgentError Unit := do
  require (active < parent.limits.maxParallelChildren)
    (.permission "Parent parallel child limit reached")
  require (1 ≤ parent.delegationMaxDepth) (.permission "Parent delegation depth limit reached")
  require (¬(q.mode = .join ∧ q.targetAgentId = parent.agentId))
    (.permission "Join delegation requires a different target Agent")
  require (0 < q.deadlineSeconds ∧ (parent.delegationMaxDeadlineSeconds = 0 ∨
      q.deadlineSeconds ≤ parent.delegationMaxDeadlineSeconds))
    (.permission "Delegation deadline exceeds parent policy")

def childPolicy (digest : NodeAgent → String) (resolver : NodeAgentResolver) (q : SpawnRequest)
    (parent : ResolvedInvocationPolicy) (ports : SpawnPorts) :
    Except AgentError ResolvedInvocationPolicy := do
  let agent ← resolver.agent q.targetAgentId
  let limits ← spawnLimits q.deadlineSeconds parent.limits agent.delegation
  let policy ← resolver.resolvePolicy digest
    { requested := some q.targetAgentId, invocationKind := .delegate, callerId := parent.agentId,
      principalCapabilities := ports.principalCapabilities, availableTools := ports.availableTools,
      installedSkills := ports.installedSkills, requestedTools := some q.requestedTools,
      requestedSkills := some q.requestedSkills, parent := some parent,
      artifactIds := q.context.artifactIds, limits := some limits }
  require (q.requestedCapabilities ⊆ policy.platformCapabilities)
    (.permission "Requested capabilities exceed child policy")
  let sizes ← (sortedIds policy.artifactIds).mapM ports.artifactSize
  require (sizes.sum ≤ policy.limits.maxArtifactBytes)
    (.permission "Delegation Artifacts exceed the invocation budget")
  return { policy with
    platformCapabilities := policy.platformCapabilities ∩ q.requestedCapabilities }

def childGoal (q : SpawnRequest) : String :=
  if q.context.text = .emptyObject then strip q.goal
  else strip q.goal ++ "\n\n<delegation_context>" ++ q.context.text.text ++ "</delegation_context>"

/-- The request `tasks.create` gets. -/
def StagedChild.createRequest (staged : StagedChild) (q : SpawnRequest) : Tasks.CreateRequest where
  scope := staged.scope
  clientRequestId := "delegation:" ++ q.parentId ++ ":" ++ q.idempotencyKey
  goal := staged.goal
  attachments := staged.attachments
  toolsEnabled := staged.childPolicy.allowedPlatformTools ≠ ∅
  parentTaskId := if staged.kind = .taskExecution then q.parentId else ""
  origin := .agent
  agentId := some q.targetAgentId
  initialPhase := "delegation_staged"

namespace Delegating

variable (env : SpawnEnv) (s : Delegating)

def raise (error : SpawnError) : Delegating :=
  { s with spawning := none, outcome := some (.error error) }

def finish (link : DelegationLink) : Delegating :=
  { s with spawning := none, outcome := some (.ok link) }

def goTo (q : SpawnRequest) (phase : SpawnPhase) : Delegating :=
  { s with spawning := some { request := q, phase } }

def orRaises (x : Except SpawnError Delegating) : Delegating :=
  match x with
  | .ok s' => s'
  | .error e => s.raise e

def parentKind (principalId parentId : String) : Except SpawnError ParentKind :=
  match getTask s.store principalId parentId with
  | .ok _ => .ok .taskExecution
  | .error (.notFound _) =>
    if (principalId, parentId) ∈ s.turns then .ok .conversationTurn
    else .error (.agent (.lookup parentId))
  | .error e => .error (.task e)

/-- From the start of `_spawn_unlocked` to the first child it looks at. -/
def begun (q : SpawnRequest) : Except SpawnError Delegating := do
  let kind ← s.parentKind q.scope.principalId q.parentId
  require (¬(kind = .taskExecution ∧ q.mode = .join))
    (.agent (.permission "Task parents may only create detached children"))
  match s.links.findIdempotent (q.key kind) with
  | some link => return s.goTo q (.found link)
  | none => do
    let policy ← agentCall (s.snapshots.get q.parentId)
    require (q.targetAgentId ∈ policy.delegationTargets)
      (.agent (.permission "Target Agent is not allowed by parent delegation policy"))
    let links := s.links.listParent q.scope.principalId kind q.parentId
    require (links.length < policy.limits.maxChildren)
      (.agent (.permission "Parent child limit reached"))
    return s.goTo q (.counting kind policy links 0)

/-- A retry looks at the child that its link names. -/
def inspected (q : SpawnRequest) (link : DelegationLink) : Except SpawnError Delegating := do
  let child ← taskCall (getTask s.store q.scope.principalId link.childTaskId)
  if child.phase = "delegation_staged" then return s.goTo q (.reactivating link)
  else return s.finish link

def counts (principalId : String) (link : DelegationLink) : Except SpawnError Nat :=
  match getTask s.store principalId link.childTaskId with
  | .ok child => .ok (if child.state.isTerminal then 0 else 1)
  | .error (.notFound _) => .ok 1
  | .error e => .error (.task e)

/-- From the last child counted to the call of `tasks.create`. The session stays even
where an Artifact cannot be shared with it. -/
def prepared (q : SpawnRequest) (kind : ParentKind) (policy : ResolvedInvocationPolicy)
    (active : Nat) (ports : SpawnPorts) : Except SpawnError Delegating := do
  agentCall (checkParentPolicy q policy active)
  let child ← agentCall (childPolicy env.agentDigest s.resolver q policy ports)
  let created ← agentCall (createSession s.store q.scope.principalId q.targetAgentId
    ports.sessionHandles)
  let opened := { s with store := created.2 }
  match (sortedIds child.artifactIds).mapM ports.shareArtifact with
  | .error e => return opened.raise (.agent e)
  | .ok shared =>
    return opened.goTo q (.creating
      { kind, parentPolicy := policy,
        childPolicy := { child with artifactIds := shared.toFinset }, scope := created.1,
        goal := childGoal q,
        attachments := (sortedIds shared.toFinset).map (fun id => { artifactId := id }) })

def createdTask (q : SpawnRequest) (staged : StagedChild) (now : Time) (taskIds : Nat → String) :
    Except SpawnError Delegating :=
  match Tasks.create env.tasks now taskIds (staged.createRequest q) s.store with
  | (.error e, _) => .error (.task e)
  | (.ok (child, _), store) =>
    .ok { s with
      store,
      children := s.children ++ [{ request := q, kind := staged.kind, taskId := child.taskId }]
      spawning := some { request := q, phase := .announcing staged child } }

def recorded (q : SpawnRequest) (staged : StagedChild) (child : TaskRecord) (now : Time) :
    Delegating :=
  match s.snapshots.record env.policyDigest now child.taskId q.scope.principalId
      child.sessionHandle staged.childPolicy with
  | .error e => s.goTo q (.cancelling child (.agent e))
  | .ok snapshots => { s with snapshots }.goTo q (.linking staged child)

def linkOf (q : SpawnRequest) (staged : StagedChild) (child : TaskRecord) (delegationId : String)
    (now : Time) : DelegationLink :=
  let parentLink :=
    if staged.kind = .taskExecution then s.links.findForChildTask q.scope.principalId q.parentId
    else none
  { delegationId, principalId := q.scope.principalId
    parentKind := staged.kind
    parentId := q.parentId
    parentAgentId := staged.parentPolicy.agentId
    parentAgentDigest := staged.parentPolicy.nodeAgentDigest
    childAgentId := staged.childPolicy.agentId
    childAgentDigest := staged.childPolicy.nodeAgentDigest
    childSessionHandle := child.sessionHandle
    childTaskId := child.taskId
    mode := q.mode
    depth :=
      match parentLink with
      | some link => link.depth + 1
      | none => 1
    invocationPolicy := staged.childPolicy
    invocationPolicyDigest := env.policyDigest staged.childPolicy
    idempotencyKey := q.idempotencyKey
    createdAt := now }

def linked (q : SpawnRequest) (staged : StagedChild) (child : TaskRecord) (delegationId : String)
    (now : Time) : Delegating :=
  match s.links.create (s.linkOf env q staged child delegationId now) with
  | .error e => s.goTo q (.cancelling child (.agent e))
  | .ok (link, links) => { s with links }.goTo q (.activating link child)

/-- `activate_staged` of a child. -/
def activateChild (now : Time) (principalId taskId : String) : Except TaskError Delegating :=
  match commit (Tasks.activateStaged now principalId taskId) s.store with
  | (.ok task, store) => .ok { s with store, activated := s.activated ++ [task.taskId] }
  | (.error e, _) => .error e

def cancelChild (now : Time) (principalId taskId reason : String) : Except TaskError Delegating :=
  match commit (Tasks.requestCancel env.tasks now principalId taskId reason) s.store with
  | (.ok _, store) => .ok { s with store }
  | (.error e, _) => .error e

def cancelled (q : SpawnRequest) (child : TaskRecord) (error : SpawnError) (now : Time) :
    Delegating :=
  match s.cancelChild env now q.scope.principalId child.taskId "Delegation activation failed" with
  | .ok s' => s'.raise error
  | .error e => s.raise (.task e)

/-- `list_staged`. -/
def listStaged : List TaskRecord :=
  (s.store.tasks.rows.filter (fun row => row.state == .queued &&
    row.phase == "delegation_staged")).insertionSort (fun a b => a.createdAt < b.createdAt ∨
      a.createdAt = b.createdAt ∧ a.taskId ≤ b.taskId)

/-- One pass of the loop of `recover_staged`. -/
def recoveredNext (task : TaskRecord) (rest : List TaskRecord) (now : Time) :
    Except TaskError Delegating := do
  let link := s.links.findForChildTask task.principalId task.taskId
  let policy := (s.snapshots.get task.taskId).toOption
  let s' ←
    if (link.map DelegationLink.invocationPolicyDigest).isSome ∧
        link.map DelegationLink.invocationPolicyDigest = policy.map env.policyDigest then
      s.activateChild now task.principalId task.taskId
    else
      s.cancelChild env now task.principalId task.taskId
        "Delegation staging was incomplete during Core recovery"
  return { s' with recovering := some rest }

def Apart (store : Store) : Prop :=
  ∀ row ∈ store.tasks.rows, ∀ turn ∈ s.turns, row.taskId ≠ strip turn.2

instance (store : Store) : Decidable (s.Apart store) := by
  unfold Apart
  infer_instance

def Executes (turnId : String) : Prop :=
  (∃ turn ∈ s.turns, turn.2 = turnId) ∨
    ∃ row ∈ s.store.tasks.rows, row.taskId = turnId ∧ row.state = .running

instance (turnId : String) : Decidable (s.Executes turnId) := by
  unfold Executes
  infer_instance

end Delegating

inductive SpawnAct
  /-- A call of the Task repository, by anyone but the service. -/
  | repository (op : Tasks.Op)
  /-- The configuration is replaced. -/
  | configure (resolver : NodeAgentResolver)
  /-- The policy of a turn or of a running Task is recorded as it starts. -/
  | observe (now : Time) (turnId principalId sessionHandle : String)
      (policy : ResolvedInvocationPolicy)
  | spawn (request : SpawnRequest)
  | inspect
  | count
  | prepare (ports : SpawnPorts)
  | create (now : Time) (taskIds : Nat → String)
  /-- `tasks.create` publishes the first event and returns. -/
  | announce
  | record (now : Time)
  | link (delegationId : String) (now : Time)
  | activate (now : Time)
  | cancel (now : Time)
  /-- An exception or a cancellation arrives where the spawn is. -/
  | fail
  /-- The process ends. -/
  | crash
  /-- `recover_staged`, as the Core starts. -/
  | recover
  | recoverNext (now : Time)
  | recovered

namespace Delegating

variable (env : SpawnEnv)

/-- An exception goes to the handler from the record of the policy on. -/
def failed (s : Delegating) (frame : SpawnFrame) : Delegating :=
  match frame.phase with
  | .recording _ child | .linking _ child | .activating _ child =>
    s.goTo frame.request (.cancelling child .interrupted)
  | _ => s.raise .interrupted

/-- One step of the spawn that is under way. -/
def advance (s : Delegating) (frame : SpawnFrame) (act : SpawnAct) : Option Delegating :=
  let q := frame.request
  match act, frame.phase with
  | .inspect, .found link => some (s.orRaises (s.inspected q link))
  | .activate now, .reactivating link =>
    some (s.orRaises (taskCall (do
      let s' ← s.activateChild now q.scope.principalId link.childTaskId
      return s'.finish link)))
  | .count, .counting kind policy (link :: remaining) active =>
    some (s.orRaises (do
      let counted ← s.counts q.scope.principalId link
      return s.goTo q (.counting kind policy remaining (active + counted))))
  | .prepare ports, .counting kind policy [] active =>
    some (s.orRaises (s.prepared env q kind policy active ports))
  | .create now taskIds, .creating staged =>
    let s' := s.orRaises (s.createdTask env q staged now taskIds)
    if s.Apart s'.store then some s' else none
  | .announce, .announcing staged child => some (s.goTo q (.recording staged child))
  | .record now, .recording staged child => some (s.recorded env q staged child now)
  | .link delegationId now, .linking staged child =>
    -- the id factory draws ids that are not in use
    if (s.links.lookup delegationId).isNone then
      some (s.linked env q staged child delegationId now)
    else none
  | .activate now, .activating link child =>
    match s.activateChild now q.scope.principalId child.taskId with
    | .ok s' => some (s'.finish link)
    | .error e => some (s.goTo q (.cancelling child (.task e)))
  | .cancel now, .cancelling child error => some (s.cancelled env q child error now)
  | .fail, _ => some (s.failed frame)
  | _, _ => none

def step (s : Delegating) (act : SpawnAct) : Option Delegating :=
  match act with
  | .repository op =>
    (Tasks.step env.tasks s.store op).bind (fun store =>
      if s.Apart store then some { s with store } else none)
  | .configure resolver => some { s with resolver }
  | .observe now turnId principalId sessionHandle policy =>
    if s.Executes turnId then
      match s.snapshots.record env.policyDigest now turnId principalId sessionHandle policy with
      | .ok snapshots => some { s with snapshots }
      | .error _ => none
    else none
  | .spawn request =>
    if s.serving = true ∧ s.spawning = none then some (s.orRaises (s.begun request)) else none
  | .crash =>
    some { s with serving := false, spawning := none, recovering := none, outcome := none }
  | .recover =>
    if s.serving = false ∧ s.recovering = none then some { s with recovering := some s.listStaged }
    else none
  | .recoverNext now =>
    match s.recovering with
    | some (task :: rest) =>
      match s.recoveredNext env task rest now with
      | .ok s' => some s'
      -- the start of the Core fails
      | .error _ => some { s with recovering := none }
    | _ => none
  | .recovered =>
    if s.recovering = some [] then some { s with recovering := none, serving := true } else none
  | act => s.spawning.bind (fun frame => s.advance env frame act)

def initial (sessions : Table Tasks.SessionRow.sessionHandle)
    (definitions : Table Tasks.DefinitionRow.taskId)
    (executions : Table Tasks.ExecutionRow.executionId) (resolver : NodeAgentResolver)
    (turns : List (String × String)) : Delegating where
  store := .initial sessions definitions executions
  resolver := resolver
  turns := turns

end Delegating

end Knoa.Agents
