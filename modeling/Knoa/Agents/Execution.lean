import Knoa.Agents.Delegation

/-!
# Execution

`AgentExecutionService` from the request of a turn to its capability grant, and what
`TaskExecutor._execute` reads before. The configuration may be replaced in between.
-/
namespace Knoa.Agents
open Knoa.Tasks Relational
open Transaction (require orRaise)

structure RegisteredTool where
  name : String
  configured : Bool
  requiredCapabilities : Finset String
  deriving DecidableEq

/-- `ToolRegistry.list_for`. -/
def listFor (registry : List RegisteredTool) (capabilities : Finset String) : Finset String :=
  ((registry.filter (fun tool =>
    tool.configured && decide (tool.requiredCapabilities ⊆ capabilities))).map
      RegisteredTool.name).toFinset

def attachmentIds (attachments : List ArtifactAttachment) : Finset String :=
  (attachments.map ArtifactAttachment.artifactId).toFinset

/-- What the service asks of the rest of the platform as it resolves a policy. -/
structure ExecutionPorts where
  principalCapabilities : Finset String
  registry : List RegisteredTool
  installedSkills : Finset String
  artifactSize : String → Except AgentError Nat

structure Moment where
  resolver : NodeAgentResolver
  ports : ExecutionPorts

structure ExecuteAgentTurn where
  scope : RuntimeScope
  turnId : String
  attachments : List ArtifactAttachment
  toolsEnabled : Bool
  agentId : Option String := none
  invocationKind : InvocationKind := .user
  callerId : String := ""
  parentPolicy : Option ResolvedInvocationPolicy := none
  resolvedPolicy : Option ResolvedInvocationPolicy := none

structure InvocationBudget where
  maxToolCalls : Nat
  maxArtifactBytes : Nat
  artifactBytes : Nat
  within : artifactBytes ≤ maxArtifactBytes
  deriving DecidableEq

structure CapabilityGrant where
  scope : RuntimeScope
  runId : String
  capabilities : Finset String
  artifactIds : Finset String
  toolNames : Finset String
  allowTools : Bool
  budget : InvocationBudget
  deriving DecidableEq

def CapabilityGrant.authorizedToolNames (grant : CapabilityGrant)
    (registry : List RegisteredTool) : Finset String :=
  if grant.allowTools then listFor registry grant.capabilities ∩ grant.toolNames else ∅

/-- What the runtime is given for a turn. -/
structure AgentTurn where
  request : ExecuteAgentTurn
  policy : ResolvedInvocationPolicy
  grant : CapabilityGrant

/-- The policy of a turn whose attachments fit into its budget. -/
structure PreparedExecution where
  policy : ResolvedInvocationPolicy
  attachmentBytes : Nat
  within : attachmentBytes ≤ policy.limits.maxArtifactBytes

namespace Moment

variable (digest : NodeAgent → String)

/-- `AgentExecutionService.resolve_policy`, in the kind of the definition. -/
def resolvePolicy (m : Moment) (scope : RuntimeScope) (agentId : String) :
    Except AgentError ResolvedInvocationPolicy := do
  let agent ← m.resolver.agent agentId
  m.resolver.resolvePolicy digest
    { requested := some agentId, invocationKind := agent.visibility, callerId := scope.principalId,
      principalCapabilities := m.ports.principalCapabilities,
      availableTools := listFor m.ports.registry m.ports.principalCapabilities,
      installedSkills := m.ports.installedSkills }

/-- The arguments `_prepare_execution` resolves with: those of a policy that is at
hand, else those of the request. -/
def policyRequest (m : Moment) (q : ExecuteAgentTurn) :
    Option ResolvedInvocationPolicy → PolicyRequest
  | some snapshot =>
    { requested := some snapshot.agentId, invocationKind := snapshot.invocationKind,
      callerId := snapshot.callerId, principalCapabilities := m.ports.principalCapabilities,
      availableTools := listFor m.ports.registry m.ports.principalCapabilities,
      installedSkills := m.ports.installedSkills,
      requestedCapabilities := some snapshot.platformCapabilities,
      requestedTools := some snapshot.allowedPlatformTools,
      requestedSkills := some snapshot.allowedSkills,
      requestedNativeCapabilities := some snapshot.runtimeNativeCapabilities,
      parent := q.parentPolicy, artifactIds := snapshot.artifactIds }
  | none =>
    { requested := q.agentId, invocationKind := q.invocationKind,
      callerId := if q.callerId ≠ "" then q.callerId else q.scope.principalId,
      principalCapabilities := m.ports.principalCapabilities,
      availableTools := listFor m.ports.registry m.ports.principalCapabilities,
      installedSkills := m.ports.installedSkills,
      requestedTools := if q.toolsEnabled then none else some ∅, parent := q.parentPolicy,
      artifactIds := attachmentIds q.attachments }

/-- A policy at hand is used as long as its Agent is still defined as it was. -/
def checkSnapshot (m : Moment) (q : ExecuteAgentTurn) :
    Option ResolvedInvocationPolicy → Except AgentError Unit
  | none => require (q.invocationKind ≠ .delegate) (.permission "missing_delegation_policy")
  | some snapshot => do
    let current ← m.resolver.agentDigest digest snapshot.agentId
    require (current = snapshot.nodeAgentDigest) (.runtime "node_agent_changed")

/-- `_prepare_execution`: the policy of a turn, and the bytes attached to it. The
policy that comes with the request wins over the one on record. -/
def prepareExecution (m : Moment) (snapshots : Snapshots) (q : ExecuteAgentTurn) :
    Except AgentError PreparedExecution := do
  let snapshot := q.resolvedPolicy.orElse (fun _ => (snapshots.get q.turnId).toOption)
  m.checkSnapshot digest q snapshot
  let policy ← m.resolver.resolvePolicy digest (m.policyRequest q snapshot)
  let sizes ← q.attachments.mapM (fun attachment => m.ports.artifactSize attachment.artifactId)
  if within : sizes.sum ≤ policy.limits.maxArtifactBytes then
    return { policy, attachmentBytes := sizes.sum, within }
  else throw (.permission "Invocation Artifacts exceed the byte budget")

/-- The arguments of `grants.issue`, with what else the runtime is given. -/
def issue (m : Moment) (q : ExecuteAgentTurn) (prepared : PreparedExecution) : AgentTurn where
  request := q
  policy := prepared.policy
  grant := {
    scope := q.scope
    runId := q.turnId
    capabilities := m.ports.principalCapabilities ∩ prepared.policy.platformCapabilities
    artifactIds := attachmentIds q.attachments
    toolNames := prepared.policy.allowedPlatformTools
    allowTools := decide (prepared.policy.allowedPlatformTools ≠ ∅)
    budget := {
      maxToolCalls := prepared.policy.limits.maxGatewayToolCalls
      maxArtifactBytes := prepared.policy.limits.maxArtifactBytes
      artifactBytes := prepared.attachmentBytes
      within := prepared.within } }

end Moment

structure TaskCall where
  agentId : String
  assigned : Moment
  request : ExecuteAgentTurn

structure TaskAttempt where
  call : TaskCall
  prepared : Moment
  turn : AgentTurn

/-- The platform, the calls of the executor that wait for their turn, and the attempts
so far. -/
structure Executing where
  platform : Delegating
  calls : List TaskCall := []
  attempts : List TaskAttempt := []

inductive ExecAct
  | platform (act : SpawnAct)
  /-- A turn of a conversation, or of the reviewer. -/
  | converse (now : Time) (ports : ExecutionPorts) (request : ExecuteAgentTurn)
  /-- The executor resolves the policy of a Task that it runs. -/
  | assign (ports : ExecutionPorts) (taskId : String)
  /-- The call of a Task is prepared, recorded and granted. -/
  | execute (now : Time) (ports : ExecutionPorts) (position : Nat)

namespace Executing

variable (env : SpawnEnv) (s : Executing)

def moment (ports : ExecutionPorts) : Moment := ⟨s.platform.resolver, ports⟩

/-- `_sessions.agent_id`. -/
def sessionAgent (scope : RuntimeScope) : Except AgentError String :=
  orRaise (((s.platform.store.sessions.lookup scope.sessionHandle).filter
    (fun session => session.principalId == scope.principalId)).map Tasks.SessionRow.agentId)
    (.lookup "Session not found")

/-- `_execute` up to the call of `execute_turn`. -/
def assigned (ports : ExecutionPorts) (task : TaskRow) : Except AgentError TaskCall := do
  let scope : RuntimeScope := ⟨task.principalId, task.sessionHandle⟩
  let agentId ← s.sessionAgent scope
  let policy ← (s.moment ports).resolvePolicy env.agentDigest scope agentId
  return {
    agentId, assigned := s.moment ports
    request := {
      scope, turnId := task.taskId
      attachments := task.attachments
      toolsEnabled := task.toolsEnabled
      agentId := some agentId
      invocationKind := policy.invocationKind
      resolvedPolicy := some policy } }

/-- The part of `_execute_turn_locked` that ends with the grant. The policy observer
records the policy of the turn. -/
def begun (now : Time) (ports : ExecutionPorts) (q : ExecuteAgentTurn) :
    Except AgentError (Snapshots × AgentTurn) := do
  let prepared ← (s.moment ports).prepareExecution env.agentDigest s.platform.snapshots q
  let snapshots ← s.platform.snapshots.record env.policyDigest now q.turnId q.scope.principalId
    q.scope.sessionHandle prepared.policy
  return (snapshots, (s.moment ports).issue q prepared)

def withSnapshots (snapshots : Snapshots) : Executing :=
  { s with platform := { s.platform with snapshots } }

def step (s : Executing) : ExecAct → Option Executing
  -- the turns below record the policies
  | .platform (.observe ..) => none
  | .platform act =>
    (s.platform.step env act).map (fun platform =>
      -- the calls that wait are lost with the process
      { s with platform, calls := if act matches .crash then [] else s.calls })
  | .converse now ports q =>
    if q.resolvedPolicy = none ∧ q.parentPolicy = none ∧
        s.platform.store.tasks.lookup q.turnId = none then
      match s.begun env now ports q with
      | .ok (snapshots, _) => some (s.withSnapshots snapshots)
      | .error _ => none
    else none
  | .assign ports taskId =>
    match (s.platform.store.tasks.lookup taskId).filter (fun task => task.state == .running) with
    | none => none
    | some task =>
      match s.assigned env ports task with
      | .ok call => some { s with calls := s.calls ++ [call] }
      | .error _ => none
  | .execute now ports position =>
    match s.calls[position]? with
    | none => none
    | some call =>
      let taken := { s with calls := s.calls.eraseIdx position }
      match s.begun env now ports call.request with
      | .ok (snapshots, turn) =>
        some { taken.withSnapshots snapshots with
          attempts := s.attempts ++ [⟨call, s.moment ports, turn⟩] }
      | .error _ => some taken

/-- The platform before anything ran. -/
def initial (sessions : Table Tasks.SessionRow.sessionHandle)
    (definitions : Table Tasks.DefinitionRow.taskId)
    (executions : Table Tasks.ExecutionRow.executionId) (resolver : NodeAgentResolver)
    (turns : List (String × String)) : Executing where
  platform := .initial sessions definitions executions resolver turns

end Executing

end Knoa.Agents
