import Mathlib.Algebra.Order.Ring.Rat
import Mathlib.Data.Finset.Insert
import Mathlib.Data.Finset.Lattice.Basic
import Mathlib.Tactic.NormNum
import Knoa.Tasks.Repository

/-!
# Agent definitions and invocation policies

The configuration models of `agents/definitions.py` with their validators, and
`NodeAgentResolver`.
-/
namespace Knoa.Agents
open Knoa.Tasks (Time strip)
open Relational (Table)
open Transaction (require orRaise)

inductive AgentError
  | value (text : String)
  | lookup (text : String)
  | notCallable (text : String)
  | permission (text : String)
  | runtime (text : String)
  deriving DecidableEq, Repr

/-- Visibilities and invocation kinds share their values. -/
inductive InvocationKind
  | user
  | delegate
  | system
  deriving DecidableEq, Repr

def InvocationKind.value : InvocationKind → String
  | .user => "user"
  | .delegate => "delegate"
  | .system => "system"

inductive AgentKind
  | knoa
  | codex
  deriving DecidableEq, Repr

inductive CodexBackend
  | appServer
  | execJson
  deriving DecidableEq, Repr

inductive Sandbox
  | readOnly
  | workspaceWrite
  deriving DecidableEq, Repr

inductive ApprovalPolicy
  | untrusted
  | onRequest
  | never
  deriving DecidableEq, Repr

inductive ModelOwnership
  | platform
  | runtime
  deriving DecidableEq, Repr

inductive NativeCapability
  | workspaceRead
  | workspaceWrite
  | commandExecution
  | nativeFileEdit
  deriving DecidableEq, Repr

def codexReadOnlyCapabilities : Finset NativeCapability := {.workspaceRead, .commandExecution}

def codexWorkspaceWriteCapabilities : Finset NativeCapability :=
  {.workspaceRead, .workspaceWrite, .commandExecution, .nativeFileEdit}

/-- `_delegable_native_capabilities`. -/
def delegableNativeCapabilities (platformCapabilities : Finset String) : Finset NativeCapability :=
  (if "host_read" ∈ platformCapabilities then {.workspaceRead} else ∅) ∪
    (if "host_write" ∈ platformCapabilities then {.workspaceWrite, .nativeFileEdit} else ∅) ∪
      (if "shell" ∈ platformCapabilities then {.commandExecution} else ∅)

/-- `[a-z][a-z0-9_-]{0,63}`, matched in full. -/
def isAgentId (agentId : String) : Bool :=
  match agentId.toList with
  | [] => false
  | first :: rest =>
    first.isLower && decide (rest.length ≤ 63) &&
      rest.all (fun c => c.isLower || c.isDigit || c == '_' || c == '-')

/-- `[A-Za-z][A-Za-z0-9_.-]{0,127}`, matched in full. -/
def isResourceId (resourceId : String) : Bool :=
  match resourceId.toList with
  | [] => false
  | first :: rest =>
    first.isAlpha && decide (rest.length ≤ 127) &&
      rest.all (fun c => c.isAlphanum || c == '_' || c == '.' || c == '-')

structure ModelBindingFields where
  ownership : ModelOwnership
  model : String := ""
  hint : String := ""
  deriving DecidableEq, Repr

def ModelBindingFields.validateBinding (f : ModelBindingFields) : Except AgentError Unit := do
  require (¬(f.ownership = .platform ∧ strip f.model = ""))
    (.value "Platform-managed model binding requires a model alias")
  require (¬(f.ownership = .runtime ∧ f.model ≠ ""))
    (.value "Runtime-managed model binding cannot set a platform model")

structure ModelBindingSpec extends ModelBindingFields where
  valid : toModelBindingFields.validateBinding = .ok ⟨⟩
  deriving DecidableEq, Repr

structure AgentRuntimeLimits where
  maxIterations : Option Nat := none
  maxOutputTokens : Option Nat := none
  iterations : ∀ n ∈ maxIterations, 1 ≤ n ∧ n ≤ 128 := by decide
  outputTokens : ∀ n ∈ maxOutputTokens, 64 ≤ n ∧ n ≤ 131072 := by decide
  deriving DecidableEq, Repr

structure DelegationFields where
  allowed : Bool := false
  targets : Finset String := ∅
  maxDepth : Nat := 0
  maxChildren : Nat := 0
  maxParallelChildren : Nat := 0
  maxDeadlineSeconds : Time := 0
  deriving DecidableEq

structure DelegationFields.InRange (f : DelegationFields) : Prop where
  targets : ∀ target ∈ f.targets, isAgentId target = true
  depth : f.maxDepth ≤ 8
  children : f.maxChildren ≤ 32
  parallel : f.maxParallelChildren ≤ 32
  deadline : 0 ≤ f.maxDeadlineSeconds ∧ f.maxDeadlineSeconds ≤ 86400

def DelegationFields.validateDelegation (f : DelegationFields) : Except AgentError Unit := do
  require (¬(f.allowed = false ∧
      (f.targets ≠ ∅ ∨ f.maxDepth ≠ 0 ∨ f.maxChildren ≠ 0 ∨ f.maxParallelChildren ≠ 0)))
    (.value "Disabled delegation cannot define targets or child limits")
  require (¬(f.allowed = true ∧
      (f.maxDepth < 1 ∨ f.maxChildren < 1 ∨ f.maxParallelChildren < 1 ∨ f.maxDeadlineSeconds ≤ 0)))
    (.value "Enabled delegation requires positive bounded limits")
  require (¬f.maxChildren < f.maxParallelChildren)
    (.value "Parallel child limit cannot exceed total child limit")

structure DelegationPolicy extends DelegationFields where
  inRange : toDelegationFields.InRange
  valid : toDelegationFields.validateDelegation = .ok ⟨⟩
  deriving DecidableEq

/-- `DelegationPolicy()`. -/
def DelegationPolicy.default : DelegationPolicy where
  inRange := ⟨by simp, by decide, by decide, by decide, by norm_num⟩
  valid := by decide

structure NodeAgentFields where
  kind : AgentKind
  displayName : String
  instructions : String := ""
  instructionsRef : String := ""
  instructionsRequired : Bool := true
  visibility : InvocationKind := .delegate
  enabled : Bool := true
  modelBinding : ModelBindingSpec
  maxConcurrency : Nat := 1
  defaultSkillRefs : Finset String := ∅
  allowedSkillRefs : Finset String := ∅
  allowedPlatformTools : Finset String := ∅
  platformCapabilityCeiling : Finset String := ∅
  nativeCapabilityCeiling : Finset NativeCapability := ∅
  runtimeLimits : AgentRuntimeLimits := {}
  delegation : DelegationPolicy := .default
  callableBy : Finset String := ∅
  command : List String := []
  backend : CodexBackend := .appServer
  home : String := ""
  cwd : String := ""
  sandbox : Sandbox := .readOnly
  approvalPolicy : ApprovalPolicy := .never
  requestTimeoutSeconds : Time := 600
  maxLineBytes : Nat := 4 * 1024 * 1024
  maxEventQueue : Nat := 1024
  deriving DecidableEq

structure NodeAgentFields.InRange (f : NodeAgentFields) : Prop where
  displayName : 1 ≤ f.displayName.length ∧ f.displayName.length ≤ 128
  instructions : f.instructions.length ≤ 200000
  instructionsRef : f.instructionsRef.length ≤ 4096
  concurrency : 1 ≤ f.maxConcurrency ∧ f.maxConcurrency ≤ 32
  timeout : 0 < f.requestTimeoutSeconds ∧ f.requestTimeoutSeconds ≤ 3600
  lineBytes : 4096 ≤ f.maxLineBytes
  eventQueue : 16 ≤ f.maxEventQueue ∧ f.maxEventQueue ≤ 16384
  skillRefs : ∀ ref ∈ f.allowedSkillRefs, isResourceId ref = true

def NodeAgentFields.validateAgent (f : NodeAgentFields) : Except AgentError Unit := do
  require (decide (f.instructions = "") ≠ decide (f.instructionsRef = ""))
    (.value "NodeAgent requires exactly one instructions source")
  require (f.defaultSkillRefs ⊆ f.allowedSkillRefs)
    (.value "Default Skill refs must be allowed by the NodeAgent")
  require (¬(f.visibility = .system ∧ f.callableBy = ∅))
    (.value "System NodeAgent requires a caller allowlist")
  match f.kind with
  | .knoa => do
    require (f.modelBinding.ownership = .platform)
      (.value "Knoa Agent requires a platform-managed model")
    require (f.command = [] ∧ f.home = "" ∧ f.cwd = "")
      (.value "Knoa Agent cannot configure an external command")
    require (f.nativeCapabilityCeiling = ∅)
      (.value "Knoa Agent cannot request external runtime capabilities")
  | .codex => do
    require (f.command ≠ []) (.value "Codex Agent requires a command")
    require (f.modelBinding.ownership = .runtime)
      (.value "Codex Agent requires a runtime-managed model")
    require (f.nativeCapabilityCeiling =
        if f.sandbox = .readOnly then codexReadOnlyCapabilities
        else codexWorkspaceWriteCapabilities)
      (.value "Codex Agent capabilities must match its sandbox bundle")

/-- One complete Agent owned and executed by a Node. -/
structure NodeAgent extends NodeAgentFields where
  inRange : toNodeAgentFields.InRange
  valid : toNodeAgentFields.validateAgent = .ok ⟨⟩
  deriving DecidableEq

structure InvocationLimits where
  deadlineSeconds : Time := 120
  maxGatewayToolCalls : Nat := 50
  maxArtifactBytes : Nat := 32 * 1024 * 1024
  maxChildren : Nat := 0
  maxParallelChildren : Nat := 0
  deadline : 0 < deadlineSeconds ∧ deadlineSeconds ≤ 86400 := by norm_num
  toolCalls : maxGatewayToolCalls ≤ 10000 := by decide
  children : maxChildren ≤ 32 := by decide
  parallel : maxParallelChildren ≤ 32 := by decide
  deriving DecidableEq

/-- The limits of one policy under those of another, field by field. -/
def InvocationLimits.under (own parent : InvocationLimits) : InvocationLimits where
  deadlineSeconds := min own.deadlineSeconds parent.deadlineSeconds
  maxGatewayToolCalls := min own.maxGatewayToolCalls parent.maxGatewayToolCalls
  maxArtifactBytes := min own.maxArtifactBytes parent.maxArtifactBytes
  maxChildren := min own.maxChildren parent.maxChildren
  maxParallelChildren := min own.maxParallelChildren parent.maxParallelChildren
  deadline := ⟨lt_min own.deadline.1 parent.deadline.1, (min_le_left _ _).trans own.deadline.2⟩
  toolCalls := (min_le_left _ _).trans own.toolCalls
  children := (min_le_left _ _).trans own.children
  parallel := (min_le_left _ _).trans own.parallel

structure ResolvedInvocationPolicy where
  agentId : String
  nodeAgentDigest : String
  invocationKind : InvocationKind
  callerId : String
  platformCapabilities : Finset String
  allowedPlatformTools : Finset String
  allowedSkills : Finset String
  runtimeNativeCapabilities : Finset NativeCapability
  delegationTargets : Finset String := ∅
  delegationMaxDepth : Nat := 0
  delegationMaxDeadlineSeconds : Time := 0
  artifactIds : Finset String := ∅
  limits : InvocationLimits := {}
  configRevisionId : String := ""
  depth : delegationMaxDepth ≤ 8 := by decide
  deadline : 0 ≤ delegationMaxDeadlineSeconds ∧ delegationMaxDeadlineSeconds ≤ 86400 := by norm_num
  deriving DecidableEq

structure CatalogEntry where
  agentId : String
  agent : NodeAgent
  deriving DecidableEq

structure CatalogFields where
  agents : Table CatalogEntry.agentId
  defaultAgent : String

def CatalogFields.agent (f : CatalogFields) (agentId : String) : Option NodeAgent :=
  (f.agents.lookup agentId).map CatalogEntry.agent

def CatalogFields.validateTargets (f : CatalogFields) (entry : CatalogEntry) :
    Except AgentError Unit := do
  require (∀ target ∈ entry.agent.delegation.targets, (f.agent target).isSome = true)
    (.value s!"NodeAgent '{entry.agentId}' delegation references unknown targets")
  require (∀ target ∈ entry.agent.delegation.targets, ∀ agent ∈ f.agent target,
      agent.visibility = .delegate)
    (.value s!"NodeAgent '{entry.agentId}' delegation targets must be delegate-visible")

/-- The validator of `NodeAgentCatalog`. -/
def CatalogFields.validateAgents (f : CatalogFields) : Except AgentError Unit := do
  require ((f.agent f.defaultAgent).any (fun agent => agent.enabled) = true)
    (.value "default_agent must reference an enabled NodeAgent")
  require ((f.agent f.defaultAgent).any (fun agent => agent.visibility == .user) = true)
    (.value "default_agent must reference a user-visible NodeAgent")
  f.agents.rows.forM f.validateTargets

structure NodeAgentCatalog extends CatalogFields where
  ids : ∀ entry ∈ agents.rows, isAgentId entry.agentId = true
  valid : toCatalogFields.validateAgents = .ok ⟨⟩

structure NodeAgentResolver where
  config : NodeAgentCatalog
  configRevisionId : String := ""

/-- The arguments of `resolve_policy`. -/
structure PolicyRequest where
  requested : Option String
  invocationKind : InvocationKind
  callerId : String
  principalCapabilities : Finset String
  availableTools : Finset String
  installedSkills : Finset String
  requestedCapabilities : Option (Finset String) := none
  requestedTools : Option (Finset String) := none
  requestedSkills : Option (Finset String) := none
  requestedNativeCapabilities : Option (Finset NativeCapability) := none
  parent : Option ResolvedInvocationPolicy := none
  artifactIds : Finset String := ∅
  limits : Option InvocationLimits := none

/-- `&=` with a bound that may be absent. -/
def narrow {α : Type} [DecidableEq α] (own : Finset α) : Option (Finset α) → Finset α
  | none => own
  | some bound => own ∩ bound

/-- A ceiling of the configuration, where "*" leaves everything. -/
def withinCeiling (given ceiling : Finset String) : Finset String :=
  if "*" ∈ ceiling then given else given ∩ ceiling

/-- The limits of a definition, used where the caller sets none. -/
def NodeAgent.limits (agent : NodeAgent) : InvocationLimits where
  deadlineSeconds := agent.requestTimeoutSeconds
  maxChildren := agent.delegation.maxChildren
  maxParallelChildren := agent.delegation.maxParallelChildren
  deadline := ⟨agent.inRange.timeout.1, agent.inRange.timeout.2.trans (by norm_num)⟩
  children := agent.delegation.inRange.children
  parallel := agent.delegation.inRange.parallel

namespace NodeAgentResolver

variable (digest : NodeAgent → String)

def agent (r : NodeAgentResolver) (agentId : String) : Except AgentError NodeAgent := do
  require (isAgentId agentId = true) (.lookup "Invalid Agent ID")
  orRaise (r.config.agent agentId) (.lookup s!"Unknown NodeAgent '{agentId}'")

def agentDigest (r : NodeAgentResolver) (agentId : String) : Except AgentError String := do
  let agent ← r.agent agentId
  return digest agent

def resolveAgentId (r : NodeAgentResolver) (requested : Option String)
    (invocationKind : InvocationKind) (callerId : String) : Except AgentError String := do
  let agentId := strip ((requested.filter (· ≠ "")).getD r.config.defaultAgent)
  let agent ← r.agent agentId
  require (agent.enabled = true) (.notCallable s!"NodeAgent '{agentId}' is disabled")
  require (invocationKind = agent.visibility)
    (.notCallable s!"NodeAgent '{agentId}' is not callable as {invocationKind.value}")
  require (agent.callableBy = ∅ ∨ callerId ∈ agent.callableBy)
    (.notCallable s!"Caller cannot invoke NodeAgent '{agentId}'")
  return agentId

end NodeAgentResolver

namespace PolicyRequest

variable (q : PolicyRequest) (agent : NodeAgent)

def capabilities : Finset String :=
  narrow (narrow (withinCeiling q.principalCapabilities agent.platformCapabilityCeiling)
    q.requestedCapabilities) (q.parent.map ResolvedInvocationPolicy.platformCapabilities)

def tools : Finset String :=
  narrow (narrow (withinCeiling q.availableTools agent.allowedPlatformTools) q.requestedTools)
    (q.parent.map ResolvedInvocationPolicy.allowedPlatformTools)

def skills : Finset String :=
  narrow
    (match q.requestedSkills with
      | none => q.installedSkills ∩ agent.defaultSkillRefs
      | some requested => q.installedSkills ∩ agent.allowedSkillRefs ∩ requested)
    (q.parent.map ResolvedInvocationPolicy.allowedSkills)

def native : Finset NativeCapability :=
  narrow (narrow agent.nativeCapabilityCeiling q.requestedNativeCapabilities)
    (q.parent.map (fun parent => delegableNativeCapabilities parent.platformCapabilities))

def resolvedLimits : InvocationLimits :=
  match q.parent with
  | none => q.limits.getD agent.limits
  | some parent => (q.limits.getD agent.limits).under parent.limits

def delegationMaxDepth : Nat :=
  match q.parent with
  | none => agent.delegation.maxDepth
  | some parent => min agent.delegation.maxDepth (parent.delegationMaxDepth - 1)

def delegationMaxDeadlineSeconds : Time :=
  match q.parent with
  | none => agent.delegation.maxDeadlineSeconds
  | some parent =>
    if parent.delegationMaxDeadlineSeconds ≠ 0 then
      min agent.delegation.maxDeadlineSeconds parent.delegationMaxDeadlineSeconds
    else agent.delegation.maxDeadlineSeconds

theorem delegationMaxDepth_le : q.delegationMaxDepth agent ≤ agent.delegation.maxDepth := by
  unfold delegationMaxDepth
  split
  · exact le_refl _
  · exact min_le_left _ _

theorem delegationMaxDeadlineSeconds_range : 0 ≤ q.delegationMaxDeadlineSeconds agent ∧
    q.delegationMaxDeadlineSeconds agent ≤ agent.delegation.maxDeadlineSeconds := by
  have own := agent.delegation.inRange.deadline.1
  unfold delegationMaxDeadlineSeconds
  split
  · exact ⟨own, le_refl _⟩
  · rename_i parent _
    split
    · exact ⟨le_min own parent.deadline.1, min_le_left _ _⟩
    · exact ⟨own, le_refl _⟩

end PolicyRequest

namespace NodeAgentResolver

variable (digest : NodeAgent → String)

def policy (r : NodeAgentResolver) (q : PolicyRequest) (agentId : String) (agent : NodeAgent) :
    ResolvedInvocationPolicy where
  agentId := agentId
  nodeAgentDigest := digest agent
  invocationKind := q.invocationKind
  callerId := q.callerId
  platformCapabilities := q.capabilities agent
  allowedPlatformTools := q.tools agent
  allowedSkills := q.skills agent
  runtimeNativeCapabilities := q.native agent
  delegationTargets := agent.delegation.targets
  delegationMaxDepth := q.delegationMaxDepth agent
  delegationMaxDeadlineSeconds := q.delegationMaxDeadlineSeconds agent
  artifactIds := narrow q.artifactIds (q.parent.map ResolvedInvocationPolicy.artifactIds)
  limits := q.resolvedLimits agent
  configRevisionId := r.configRevisionId
  depth := (q.delegationMaxDepth_le agent).trans agent.delegation.inRange.depth
  deadline := ⟨(q.delegationMaxDeadlineSeconds_range agent).1,
    (q.delegationMaxDeadlineSeconds_range agent).2.trans agent.delegation.inRange.deadline.2⟩

def resolvePolicy (r : NodeAgentResolver) (q : PolicyRequest) :
    Except AgentError ResolvedInvocationPolicy := do
  let agentId ← r.resolveAgentId q.requested q.invocationKind q.callerId
  let agent ← r.agent agentId
  require (agent.kind = .codex → q.native agent = codexReadOnlyCapabilities ∨
      q.native agent = codexWorkspaceWriteCapabilities)
    (.notCallable "Codex invocation requires one supported native capability bundle")
  return r.policy digest q agentId agent

end NodeAgentResolver

end Knoa.Agents
