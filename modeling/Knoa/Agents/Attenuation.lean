import Mathlib.Data.List.Chain
import Knoa.Agents.Definitions

/-!
# Attenuation along delegation

What `resolve_policy` derives from a parent is within the authority of every ancestor.
The depth left to delegate goes down by one, down to nought.
-/
namespace Knoa.Agents
open Knoa.Tasks (Time strip)
open Transaction

theorem narrow_some_subset {α : Type} [DecidableEq α] (own bound : Finset α) :
    narrow own (some bound) ⊆ bound := Finset.inter_subset_right

theorem delegableNativeCapabilities_mono {child parent : Finset String} (h : child ⊆ parent) :
    delegableNativeCapabilities child ⊆ delegableNativeCapabilities parent := by
  have kept : ∀ (name : String) (native : Finset NativeCapability),
      (if name ∈ child then native else ∅) ⊆ (if name ∈ parent then native else ∅) := by
    intro name native
    by_cases held : name ∈ child
    · rw [if_pos held, if_pos (h held)]
    · rw [if_neg held]
      exact Finset.empty_subset _
  exact Finset.union_subset_union (Finset.union_subset_union (kept _ _) (kept _ _)) (kept _ _)

structure InvocationLimits.Within (child parent : InvocationLimits) : Prop where
  deadlineSeconds : child.deadlineSeconds ≤ parent.deadlineSeconds
  maxGatewayToolCalls : child.maxGatewayToolCalls ≤ parent.maxGatewayToolCalls
  maxArtifactBytes : child.maxArtifactBytes ≤ parent.maxArtifactBytes
  maxChildren : child.maxChildren ≤ parent.maxChildren
  maxParallelChildren : child.maxParallelChildren ≤ parent.maxParallelChildren

theorem InvocationLimits.under_within (own parent : InvocationLimits) :
    (own.under parent).Within parent :=
  ⟨min_le_right _ _, min_le_right _ _, min_le_right _ _, min_le_right _ _, min_le_right _ _⟩

theorem InvocationLimits.Within.trans {a b c : InvocationLimits} (first : a.Within b)
    (second : b.Within c) : a.Within c :=
  ⟨first.deadlineSeconds.trans second.deadlineSeconds,
    first.maxGatewayToolCalls.trans second.maxGatewayToolCalls,
    first.maxArtifactBytes.trans second.maxArtifactBytes,
    first.maxChildren.trans second.maxChildren,
    first.maxParallelChildren.trans second.maxParallelChildren⟩

structure Within (child ancestor : ResolvedInvocationPolicy) : Prop where
  capabilities : child.platformCapabilities ⊆ ancestor.platformCapabilities
  tools : child.allowedPlatformTools ⊆ ancestor.allowedPlatformTools
  skills : child.allowedSkills ⊆ ancestor.allowedSkills
  artifacts : child.artifactIds ⊆ ancestor.artifactIds
  delegable : delegableNativeCapabilities child.platformCapabilities ⊆
    delegableNativeCapabilities ancestor.platformCapabilities
  native : child.runtimeNativeCapabilities ⊆
    delegableNativeCapabilities ancestor.platformCapabilities
  limits : child.limits.Within ancestor.limits
  depth : child.delegationMaxDepth ≤ ancestor.delegationMaxDepth

theorem Within.trans {a b c : ResolvedInvocationPolicy} (first : Within a b)
    (second : Within b c) : Within a c where
  capabilities := first.capabilities.trans second.capabilities
  tools := first.tools.trans second.tools
  skills := first.skills.trans second.skills
  artifacts := first.artifacts.trans second.artifacts
  delegable := first.delegable.trans second.delegable
  native := first.native.trans second.delegable
  limits := first.limits.trans second.limits
  depth := first.depth.trans second.depth

structure Lowered (child parent : ResolvedInvocationPolicy) : Prop where
  depth : child.delegationMaxDepth ≤ parent.delegationMaxDepth - 1
  deadline : parent.delegationMaxDeadlineSeconds ≠ 0 →
    child.delegationMaxDeadlineSeconds ≤ parent.delegationMaxDeadlineSeconds

section Resolving

variable {digest : NodeAgent → String} {r : NodeAgentResolver} {q : PolicyRequest}
  {policy parent : ResolvedInvocationPolicy}

theorem agent_ok_iff {agentId : String} {agent : NodeAgent} :
    r.agent agentId = .ok agent ↔ isAgentId agentId = true ∧ r.config.agent agentId = some agent := by
  unfold NodeAgentResolver.agent
  rw [bind_ok_iff]
  constructor
  · rintro ⟨_, named, found⟩
    exact ⟨require_ok_iff.mp named, orRaise_ok_iff.mp found⟩
  · rintro ⟨named, found⟩
    exact ⟨⟨⟩, require_ok_iff.mpr named, orRaise_ok_iff.mpr found⟩

section
variable (h : r.resolvePolicy digest q = .ok policy)
include h

theorem resolvePolicy_ok : ∃ agentId agent, r.agent agentId = .ok agent ∧ agent.enabled = true ∧
      q.invocationKind = agent.visibility ∧ policy = r.policy digest q agentId agent := by
  obtain ⟨agentId, resolved, agent, found, -, -, h⟩ := of_bind₃ h
  cases h
  obtain ⟨callable, read, _, enabled, _, visible, -, -, resolved⟩ := of_bind₄ resolved
  cases resolved
  have same : agent = callable := Except.ok.inj (found.symm.trans read)
  subst same
  exact ⟨_, agent, found, require_ok_iff.mp enabled, require_ok_iff.mp visible, rfl⟩

theorem resolvePolicy_within (given : q.parent = some parent) : Within policy parent := by
  obtain ⟨agentId, agent, -, -, -, rfl⟩ := resolvePolicy_ok h
  have capabilities : q.capabilities agent ⊆ parent.platformCapabilities := by
    rw [PolicyRequest.capabilities, given]
    exact narrow_some_subset _ _
  refine ⟨capabilities, ?_, ?_, ?_, delegableNativeCapabilities_mono capabilities, ?_, ?_, ?_⟩
  · change q.tools agent ⊆ _
    rw [PolicyRequest.tools, given]
    exact narrow_some_subset _ _
  · change q.skills agent ⊆ _
    rw [PolicyRequest.skills, given]
    exact narrow_some_subset _ _
  · change narrow q.artifactIds _ ⊆ _
    rw [given]
    exact narrow_some_subset _ _
  · change q.native agent ⊆ _
    rw [PolicyRequest.native, given]
    exact narrow_some_subset _ _
  · change (q.resolvedLimits agent).Within _
    rw [PolicyRequest.resolvedLimits, given]
    exact InvocationLimits.under_within _ _
  · change q.delegationMaxDepth agent ≤ _
    rw [PolicyRequest.delegationMaxDepth, given]
    exact (min_le_right _ _).trans (Nat.sub_le _ _)

theorem resolvePolicy_lowered (given : q.parent = some parent) : Lowered policy parent := by
  obtain ⟨agentId, agent, -, -, -, rfl⟩ := resolvePolicy_ok h
  constructor
  · change q.delegationMaxDepth agent ≤ _
    rw [PolicyRequest.delegationMaxDepth, given]
    exact min_le_right _ _
  · intro bounded
    change q.delegationMaxDeadlineSeconds agent ≤ _
    rw [PolicyRequest.delegationMaxDeadlineSeconds, given]
    dsimp only
    rw [if_pos bounded]
    exact min_le_right _ _

end

def Deadlined (policy : ResolvedInvocationPolicy) : Prop :=
  1 ≤ policy.delegationMaxDepth → 0 < policy.delegationMaxDeadlineSeconds

theorem delegation_deadlined (f : DelegationPolicy) (deep : 1 ≤ f.maxDepth) :
    0 < f.maxDeadlineSeconds := by
  obtain ⟨_, disabled, rest⟩ := of_bind f.valid
  obtain ⟨_, enabled, -⟩ := of_bind rest
  have disabled := require_ok_iff.mp disabled
  have enabled := require_ok_iff.mp enabled
  cases allowed : f.allowed with
  | false => exact absurd ⟨allowed, Or.inr (Or.inl (by omega))⟩ disabled
  | true =>
    by_contra short
    exact enabled ⟨allowed, Or.inr (Or.inr (Or.inr (not_lt.mp short)))⟩

theorem resolvePolicy_deadlined (h : r.resolvePolicy digest q = .ok policy)
    (inherited : ∀ parent ∈ q.parent, Deadlined parent) : Deadlined policy := by
  obtain ⟨agentId, agent, -, -, -, rfl⟩ := resolvePolicy_ok h
  intro deep
  change 1 ≤ q.delegationMaxDepth agent at deep
  have own := delegation_deadlined agent.delegation (deep.trans (q.delegationMaxDepth_le agent))
  change 0 < q.delegationMaxDeadlineSeconds agent
  unfold PolicyRequest.delegationMaxDeadlineSeconds
  cases given : q.parent with
  | none => exact own
  | some parent =>
    dsimp only
    split
    · have below : 1 ≤ parent.delegationMaxDepth := by
        rw [PolicyRequest.delegationMaxDepth, given] at deep
        have left := deep.trans (min_le_right _ _)
        omega
      exact lt_min own (inherited parent given below)
    · exact own

end Resolving

/-- The policies of a chain of delegations: each is resolved under the one before it,
from whatever configuration holds by then. -/
def resolveChain (digest : NodeAgent → String) (parent : Option ResolvedInvocationPolicy) :
    List (NodeAgentResolver × PolicyRequest) → Except AgentError (List ResolvedInvocationPolicy)
  | [] => .ok []
  | (r, q) :: rest => do
    let policy ← r.resolvePolicy digest { q with parent }
    let below ← resolveChain digest (some policy) rest
    return policy :: below

/-- Every policy but the last may delegate, as `_spawn_unlocked` demands of a parent. -/
def MayDelegate (policies : List ResolvedInvocationPolicy) : Prop :=
  ∀ parent ∈ policies.dropLast, 1 ≤ parent.delegationMaxDepth

section Chains

variable {digest : NodeAgent → String} {policy : ResolvedInvocationPolicy}
  {policies : List ResolvedInvocationPolicy} {parent : Option ResolvedInvocationPolicy}
  {links : List (NodeAgentResolver × PolicyRequest)}

theorem resolveChain_isChain {R : ResolvedInvocationPolicy → ResolvedInvocationPolicy → Prop}
    (step : ∀ (r : NodeAgentResolver) q parent policy, q.parent = some parent →
      r.resolvePolicy digest q = .ok policy → R parent policy)
    (h : resolveChain digest parent links = .ok policies) :
    policies.IsChain R ∧ ∀ above ∈ parent, ∀ policy ∈ policies.head?, R above policy := by
  induction links generalizing parent policies with
  | nil =>
    cases h
    exact ⟨.nil, fun _ _ _ listed => by cases listed⟩
  | cons link rest ih =>
    obtain ⟨r, q⟩ := link
    obtain ⟨policy, resolved, below, resolved_below, h⟩ := of_bind₂ h
    cases h
    obtain ⟨chain, first⟩ := ih resolved_below
    constructor
    · exact List.isChain_cons.mpr ⟨first policy rfl, chain⟩
    · intro above given child listed
      cases listed
      exact step r { q with parent } above policy given resolved

theorem resolveChain_deadlined (inherited : ∀ above ∈ parent, Deadlined above)
    (h : resolveChain digest parent links = .ok policies) :
      ∀ policy ∈ policies, Deadlined policy := by
  induction links generalizing parent policies with
  | nil =>
    cases h
    intro policy member
    cases member
  | cons link rest ih =>
    obtain ⟨r, q⟩ := link
    obtain ⟨policy, resolved, below, resolved_below, h⟩ := of_bind₂ h
    cases h
    have own : Deadlined policy := resolvePolicy_deadlined resolved inherited
    intro other member
    rcases List.mem_cons.mp member with rfl | later
    · exact own
    · exact ih (fun above given => by cases given; exact own) resolved_below other later

/-- Strictly less depth, and no longer deadline. -/
structure Spent (ancestor policy : ResolvedInvocationPolicy) : Prop where
  depth : policy.delegationMaxDepth < ancestor.delegationMaxDepth
  deadline : policy.delegationMaxDeadlineSeconds ≤ ancestor.delegationMaxDeadlineSeconds

theorem Spent.trans {a b c : ResolvedInvocationPolicy} (first : Spent a b) (second : Spent b c) :
    Spent a c := ⟨second.depth.trans first.depth, second.deadline.trans first.deadline⟩

theorem spent_of_lowered (chain : policies.IsChain (fun parent child => Lowered child parent))
    (deadlined : ∀ policy ∈ policies, Deadlined policy) (may : MayDelegate policies) :
    policies.IsChain Spent := by
  induction policies with
  | nil => exact .nil
  | cons policy rest ih =>
    obtain ⟨first, below⟩ := List.isChain_cons.mp chain
    cases rest with
    | nil => exact .singleton policy
    | cons child rest =>
      have deep : 1 ≤ policy.delegationMaxDepth := may policy List.mem_cons_self
      have lowered := first child rfl
      have depth := lowered.depth
      refine List.isChain_cons.mpr ⟨?_, ih below ?_ ?_⟩
      · intro next listed
        cases listed
        exact ⟨by omega, lowered.deadline (deadlined policy List.mem_cons_self deep).ne'⟩
      · exact fun other member => deadlined other (List.mem_cons_of_mem _ member)
      · exact fun other member => may other (List.mem_cons_of_mem _ member)

theorem length_le_depth (spent : policies.Pairwise Spent) :
    ∀ root ∈ policies.head?, policies.length - 1 ≤ root.delegationMaxDepth := by
  induction policies with
  | nil =>
    intro root listed
    cases listed
  | cons policy rest ih =>
    obtain ⟨below, spent⟩ := List.pairwise_cons.mp spent
    intro root listed
    cases listed
    cases rest with
    | nil => exact Nat.zero_le _
    | cons child rest =>
      have shorter := ih spent child rfl
      have lower := (below child List.mem_cons_self).depth
      simp only [List.length_cons] at shorter ⊢
      omega

end Chains

theorem delegation_attenuates (digest : NodeAgent → String)
    (links : List (NodeAgentResolver × PolicyRequest)) (policies : List ResolvedInvocationPolicy)
    (h : resolveChain digest none links = .ok policies) :
    policies.Pairwise (fun ancestor policy => Within policy ancestor) ∧
      policies.IsChain (fun parent child => Lowered child parent) ∧
      (MayDelegate policies → policies.Pairwise Spent ∧
        ∀ root ∈ policies.head?, policies.length - 1 ≤ root.delegationMaxDepth) := by
  have within := (resolveChain_isChain
    (fun _ _ _ _ given resolved => resolvePolicy_within resolved given) h).1
  have lowered := (resolveChain_isChain
    (fun _ _ _ _ given resolved => resolvePolicy_lowered resolved given) h).1
  have deadlined := resolveChain_deadlined (fun above given => by cases given) h
  have narrows : Trans (fun ancestor policy => Within policy ancestor)
      (fun ancestor policy => Within policy ancestor)
      (fun ancestor policy => Within policy ancestor) := ⟨fun first second => second.trans first⟩
  have spends : Trans Spent Spent Spent := ⟨Spent.trans⟩
  refine ⟨List.isChain_iff_pairwise.mp within, lowered, ?_⟩
  intro may
  have spent := List.isChain_iff_pairwise.mp (spent_of_lowered lowered deadlined may)
  exact ⟨spent, length_le_depth spent⟩

section Sample

def sampleDigest (agent : NodeAgent) : String := agent.displayName

def sampleBinding : ModelBindingSpec where
  ownership := .platform
  model := "m"
  valid := by decide

def sampleDelegation : DelegationPolicy where
  allowed := true
  targets := {"worker"}
  maxDepth := 1
  maxChildren := 2
  maxParallelChildren := 1
  maxDeadlineSeconds := 60
  inRange := ⟨by decide, by decide, by decide, by decide, by norm_num⟩
  valid := by decide +kernel

def mainAgent : NodeAgent where
  kind := .knoa
  displayName := "Main"
  instructions := "answer"
  visibility := .user
  modelBinding := sampleBinding
  allowedPlatformTools := {"*"}
  platformCapabilityCeiling := {"*"}
  delegation := sampleDelegation
  inRange := ⟨by decide, by decide, by decide, by decide, by norm_num, by decide, by decide,
    by decide⟩
  valid := by decide +kernel

/-- Its delegate, whose definition leaves the tools to the parent. -/
def workerAgent : NodeAgent where
  kind := .knoa
  displayName := "Worker"
  instructions := "work"
  modelBinding := sampleBinding
  allowedPlatformTools := {"*"}
  platformCapabilityCeiling := {"*"}
  inRange := ⟨by decide, by decide, by decide, by decide, by norm_num, by decide, by decide,
    by decide⟩
  valid := by decide +kernel

def sampleCatalog : NodeAgentCatalog where
  agents := ⟨[⟨"main", mainAgent⟩, ⟨"worker", workerAgent⟩], by decide⟩
  defaultAgent := "main"
  ids := by decide
  valid := by decide +kernel

def sampleResolver : NodeAgentResolver := ⟨sampleCatalog, ""⟩

def rootRequest : PolicyRequest where
  requested := none
  invocationKind := .user
  callerId := "p"
  principalCapabilities := {"shell", "host_read"}
  availableTools := {"read_file", "run_command"}
  installedSkills := ∅

def workerRequest : PolicyRequest where
  requested := some "worker"
  invocationKind := .delegate
  callerId := "main"
  principalCapabilities := {"shell", "host_read"}
  availableTools := {"read_file", "run_command"}
  installedSkills := ∅
  requestedTools := some {"read_file"}

def samplePolicies (requests : List PolicyRequest) : List ResolvedInvocationPolicy :=
  ((resolveChain sampleDigest none (requests.map (fun q => (sampleResolver, q)))).toOption).getD []

instance : DecidableRel Spent := fun ancestor policy =>
  decidable_of_iff (policy.delegationMaxDepth < ancestor.delegationMaxDepth ∧
      policy.delegationMaxDeadlineSeconds ≤ ancestor.delegationMaxDeadlineSeconds)
    ⟨fun h => ⟨h.1, h.2⟩, fun h => ⟨h.depth, h.deadline⟩⟩

theorem delegation_attenuates_worker : (samplePolicies [rootRequest, workerRequest]).Pairwise
        (fun ancestor policy => Within policy ancestor) ∧
      (samplePolicies [rootRequest, workerRequest]).Pairwise Spent := by
  obtain ⟨within, -, spends⟩ := delegation_attenuates sampleDigest
    ([rootRequest, workerRequest].map (fun q => (sampleResolver, q)))
    (samplePolicies [rootRequest, workerRequest]) (by decide +kernel)
  exact ⟨within, (spends (by unfold MayDelegate; decide +kernel)).1⟩

/-- The worker, which may not delegate, is given as a parent once more. -/
theorem chain_outlasts_depth : resolveChain sampleDigest none
        ([rootRequest, workerRequest, workerRequest].map (fun q => (sampleResolver, q))) =
        .ok (samplePolicies [rootRequest, workerRequest, workerRequest]) ∧
      ¬ (samplePolicies [rootRequest, workerRequest, workerRequest]).Pairwise Spent ∧
      ¬ ∀ root ∈ (samplePolicies [rootRequest, workerRequest, workerRequest]).head?,
        (samplePolicies [rootRequest, workerRequest, workerRequest]).length - 1 ≤
          root.delegationMaxDepth := by
  decide +kernel

end Sample

end Knoa.Agents
