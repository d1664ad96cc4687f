import Mathlib.Logic.Function.Basic
import Mathlib.Data.List.Sort
import Knoa.Capabilities.Gateway
import Knoa.Library.KeyedFold
import Knoa.Library.Loops
import Knoa.Library.Table

/-!
# Capability Bundles

What a Bundle brings into the managed configuration, the plan of its installation and the record
of what is installed.
-/
namespace Knoa.Extensions.Installs
open Knoa.Capabilities (Time ToolPolicy)

/-- `"mcp:" + server_id` or `"skill:" + skill_id` -/
inductive ComponentId
  | mcp (serverId : String)
  | skill (skillId : String)
  deriving DecidableEq

def ComponentId.text : ComponentId → String
  | .mcp serverId => "mcp:" ++ serverId
  | .skill skillId => "skill:" ++ skillId

inductive Transport
  | stdio
  | streamableHttp
  deriving DecidableEq

structure ManagedMCPConfig where
  transport : Transport
  packageId : String := ""
  inventoryDigest : String := ""
  enabled : Bool := true
  command : List String := []
  url : String := ""
  workingDirectory : String := ""
  inheritEnv : List String := []
  optionalEnv : List String := []
  secretRefs : List (String × String) := []
  timeoutSeconds : Rat := 30
  tools : List (String × ToolPolicy) := []
  deriving DecidableEq

structure ManagedSkillConfig where
  packageId : String := ""
  source : String := ""
  enabled : Bool := true
  contentDigest : String := ""
  deriving DecidableEq

/-- The document of a revision; `Settings` is all that the installer copies without a look. -/
structure ManagedConfig (Settings : Type) where
  mcpServers : String → Option ManagedMCPConfig
  skills : String → Option ManagedSkillConfig
  settings : Settings

variable {Settings : Type}

namespace ManagedConfig
variable (d : ManagedConfig Settings)

def enabled? : ComponentId → Option Bool
  | .mcp serverId => (d.mcpServers serverId).map ManagedMCPConfig.enabled
  | .skill skillId => (d.skills skillId).map ManagedSkillConfig.enabled

def AllEnabled (ids : List ComponentId) : Prop := ∀ c ∈ ids, d.enabled? c = some true

instance (ids : List ComponentId) : Decidable (d.AllEnabled ids) :=
  inferInstanceAs (Decidable (∀ c ∈ ids, _ = _))

def Same (d d' : ManagedConfig Settings) : ComponentId → Prop
  | .mcp serverId => d'.mcpServers serverId = d.mcpServers serverId
  | .skill skillId => d'.skills skillId = d.skills skillId

end ManagedConfig

structure ChangesOnly (own : ComponentId → Prop) (d d' : ManagedConfig Settings) : Prop where
  settings : d'.settings = d.settings
  components : ∀ c, ¬ own c → d.Same d' c

structure InspectedServer where
  serverId : String
  transport : Transport
  inheritEnv : List String
  optionalEnv : List String
  timeoutSeconds : Rat
  packageId : String
  inventoryDigest : String
  inventory : List String
  deriving DecidableEq

structure LoadedSkill where
  skillId : String
  packageId : String
  source : String
  contentDigest : String
  deriving DecidableEq

structure CapabilityRequestedTool where
  name : String
  policy : ToolPolicy
  deriving DecidableEq

structure CapabilityBundle where
  capabilityId : String
  version : String
  displayName : String
  packageId : String
  packageDigest : String
  mcp : List InspectedServer
  skills : List LoadedSkill
  requestedTools : List CapabilityRequestedTool
  setupInputs : List String
  checks : List String
  nonempty : mcp ≠ [] ∨ skills ≠ []

namespace CapabilityBundle
variable (bundle : CapabilityBundle)

def components : List ComponentId :=
  bundle.mcp.map (fun server => .mcp server.serverId) ++
    bundle.skills.map (fun skill => .skill skill.skillId)

def componentPackages : List (ComponentId × String) :=
  let servers := bundle.mcp.foldl (fun packages server =>
    KeyedFold.put (fun _ => server.packageId) (.mcp server.serverId) packages) []
  bundle.skills.foldl (fun packages skill =>
    KeyedFold.put (fun _ => skill.packageId) (.skill skill.skillId) packages) servers

def inventoryTools : List String := bundle.mcp.flatMap InspectedServer.inventory

def missing : List CapabilityRequestedTool :=
  bundle.requestedTools.filter fun tool => !bundle.inventoryTools.contains tool.name

def withheldTools : List String :=
  (bundle.inventoryTools.dedup.filter fun name =>
    !(bundle.requestedTools.map CapabilityRequestedTool.name).contains name).insertionSort (· ≤ ·)

def managed (server : InspectedServer) : ManagedMCPConfig where
  transport := server.transport
  packageId := server.packageId
  inventoryDigest := server.inventoryDigest
  enabled := true
  inheritEnv := server.inheritEnv
  optionalEnv := server.optionalEnv
  timeoutSeconds := server.timeoutSeconds
  tools := (bundle.requestedTools.filter fun tool => server.inventory.contains tool.name).map
    fun tool => (tool.name, tool.policy)

def putServer (d : ManagedConfig Settings) (server : InspectedServer) : ManagedConfig Settings :=
  { d with mcpServers := Function.update d.mcpServers server.serverId (some (bundle.managed server)) }

end CapabilityBundle

def putSkill (d : ManagedConfig Settings) (skill : LoadedSkill) : ManagedConfig Settings :=
  { d with
    skills := Function.update d.skills skill.skillId
      (some
        { packageId := skill.packageId, source := skill.source, enabled := true,
          contentDigest := skill.contentDigest }) }

/-- The document that `prepare` puts into its draft. -/
def CapabilityBundle.install (bundle : CapabilityBundle) (d : ManagedConfig Settings) :
    ManagedConfig Settings :=
  bundle.skills.foldl putSkill (bundle.mcp.foldl bundle.putServer d)

/-- One component of `set_enabled`: it is copied with the flag where it is present. -/
def ManagedConfig.setComponent (enabled : Bool) (d : ManagedConfig Settings) :
    ComponentId → ManagedConfig Settings
  | .mcp serverId =>
    { d with
      mcpServers := Function.update d.mcpServers serverId
        ((d.mcpServers serverId).map fun server => { server with enabled }) }
  | .skill skillId =>
    { d with
      skills := Function.update d.skills skillId
        ((d.skills skillId).map fun skill => { skill with enabled }) }

def ManagedConfig.setComponents (ids : List ComponentId) (enabled : Bool)
    (d : ManagedConfig Settings) : ManagedConfig Settings :=
  ids.foldl (ManagedConfig.setComponent enabled) d

inductive PlanState
  | awaitingConfirmation
  | installing
  | installed
  | failed
  deriving DecidableEq

structure CapabilityInstallPlan where
  operationId : String
  capabilityId : String
  version : String
  displayName : String
  packageId : String
  packageDigest : String
  componentPackages : List (ComponentId × String)
  requestedTools : List CapabilityRequestedTool
  withheldTools : List String
  setupInputs : List String
  checks : List String
  draftId : String
  draftVersion : Nat
  previousRevisionId : String
  planDigest : String
  state : PlanState
  deriving DecidableEq

inductive Health
  | healthy
  | failed
  | disabled
  deriving DecidableEq

structure CapabilityInstallation where
  capabilityId : String
  version : String
  displayName : String
  packageId : String
  componentPackages : List (ComponentId × String)
  componentIds : List ComponentId
  activeRevisionId : String
  previousRevisionId : String
  enabled : Bool
  health : Health
  installedAt : Time
  updatedAt : Time
  deriving DecidableEq

/-- The plan of a Bundle; its digest is taken over all its other fields but the state. -/
def CapabilityBundle.plan (bundle : CapabilityBundle) (digest : CapabilityInstallPlan → String)
    (operationId draftId : String) (draftVersion : Nat) (previousRevisionId : String) :
    CapabilityInstallPlan :=
  let base : CapabilityInstallPlan :=
    { operationId, capabilityId := bundle.capabilityId, version := bundle.version,
      displayName := bundle.displayName, packageId := bundle.packageId,
      packageDigest := bundle.packageDigest, componentPackages := bundle.componentPackages,
      requestedTools := bundle.requestedTools, withheldTools := bundle.withheldTools,
      setupInputs := bundle.setupInputs, checks := bundle.checks, draftId,
      draftVersion, previousRevisionId, planDigest := "", state := .awaitingConfirmation }
  { base with planDigest := digest base }

/-- `sorted(plan.component_packages)` -/
def CapabilityInstallPlan.componentIds (plan : CapabilityInstallPlan) : List ComponentId :=
  (plan.componentPackages.map Prod.fst).insertionSort fun c c' => c.text ≤ c'.text

/-- The record of a confirmed plan. -/
def CapabilityInstallPlan.installation (plan : CapabilityInstallPlan) (now : Time)
    (revisionId : String) : CapabilityInstallation where
  capabilityId := plan.capabilityId
  version := plan.version
  displayName := plan.displayName
  packageId := plan.packageId
  componentPackages := plan.componentPackages
  componentIds := plan.componentIds
  activeRevisionId := revisionId
  previousRevisionId := plan.previousRevisionId
  enabled := true
  health := .healthy
  installedAt := now
  updatedAt := now

section Documents
variable {own : ComponentId → Prop} {d d' d'' : ManagedConfig Settings}

variable {c : ComponentId}

theorem ManagedConfig.Same.enabled? (same : d.Same d' c) : d'.enabled? c = d.enabled? c := by
  cases c with
  | mcp serverId => exact congrArg (Option.map ManagedMCPConfig.enabled) same
  | skill skillId => exact congrArg (Option.map ManagedSkillConfig.enabled) same

theorem ManagedConfig.same_refl (d : ManagedConfig Settings) (c : ComponentId) : d.Same d c := by
  cases c with
  | mcp serverId | skill skillId => rfl

theorem ManagedConfig.Same.trans (first : d.Same d' c) (second : d'.Same d'' c) : d.Same d'' c := by
  cases c with
  | mcp serverId | skill skillId => exact Eq.trans second first

theorem ChangesOnly.refl (d : ManagedConfig Settings) : ChangesOnly own d d :=
  ⟨rfl, fun c _ => d.same_refl c⟩

theorem ChangesOnly.trans (first : ChangesOnly own d d') (second : ChangesOnly own d' d'') :
    ChangesOnly own d d'' :=
  ⟨second.settings.trans first.settings, fun c foreign =>
    (first.components c foreign).trans (second.components c foreign)⟩

theorem changesOnly_putServer (bundle : CapabilityBundle) (d : ManagedConfig Settings)
    {server : InspectedServer} (mine : own (.mcp server.serverId)) :
    ChangesOnly own d (bundle.putServer d server) := by
  refine ⟨rfl, fun c foreign => ?_⟩
  cases c with
  | mcp serverId =>
    refine Function.update_of_ne ?_ _ _
    rintro rfl
    exact foreign mine
  | skill skillId => rfl

theorem changesOnly_putSkill (d : ManagedConfig Settings) {skill : LoadedSkill}
    (mine : own (.skill skill.skillId)) : ChangesOnly own d (putSkill d skill) := by
  refine ⟨rfl, fun c foreign => ?_⟩
  cases c with
  | mcp serverId => rfl
  | skill skillId =>
    refine Function.update_of_ne ?_ _ _
    rintro rfl
    exact foreign mine

theorem changesOnly_install (bundle : CapabilityBundle) (d : ManagedConfig Settings)
    (mine : ∀ c ∈ bundle.components, own c) : ChangesOnly own d (bundle.install d) := by
  have servers : ChangesOnly own d (bundle.mcp.foldl bundle.putServer d) := by
    refine Loops.foldl_relates ChangesOnly.refl ChangesOnly.trans (fun d server member => ?_) d
    exact changesOnly_putServer bundle d
      (mine _ (List.mem_append_left _ (List.mem_map_of_mem member)))
  refine servers.trans ?_
  refine Loops.foldl_relates ChangesOnly.refl ChangesOnly.trans (fun d skill member => ?_) _
  exact changesOnly_putSkill d (mine _ (List.mem_append_right _ (List.mem_map_of_mem member)))

theorem enabled_putServer (bundle : CapabilityBundle) (d : ManagedConfig Settings)
    (server : InspectedServer) (c : ComponentId) : (bundle.putServer d server).enabled? c =
      if c = .mcp server.serverId then some true else d.enabled? c := by
  cases c with
  | mcp serverId =>
    simp only [ManagedConfig.enabled?, CapabilityBundle.putServer, Function.update_apply]
    by_cases same : serverId = server.serverId
    · rw [if_pos same, if_pos (congrArg _ same)]
      rfl
    · rw [if_neg same, if_neg (fun equal => same (ComponentId.mcp.inj equal))]
  | skill skillId => rfl

theorem enabled_putSkill (d : ManagedConfig Settings) (skill : LoadedSkill) (c : ComponentId) :
    (putSkill d skill).enabled? c =
      if c = .skill skill.skillId then some true else d.enabled? c := by
  cases c with
  | mcp serverId => rfl
  | skill skillId =>
    simp only [ManagedConfig.enabled?, putSkill, Function.update_apply]
    by_cases same : skillId = skill.skillId
    · rw [if_pos same, if_pos (congrArg _ same)]
      rfl
    · rw [if_neg same, if_neg (fun equal => same (ComponentId.skill.inj equal))]

theorem allEnabled_install (bundle : CapabilityBundle) (d : ManagedConfig Settings) :
    (bundle.install d).AllEnabled bundle.components := by
  intro c member
  rcases List.mem_append.mp member with isServer | isSkill
  · obtain ⟨server, listed, rfl⟩ := List.mem_map.mp isServer
    have servers : (bundle.mcp.foldl bundle.putServer d).enabled? (.mcp server.serverId) =
        some true := by
      refine Loops.foldl_each (P := fun (server : InspectedServer) (d : ManagedConfig Settings) =>
        d.enabled? (.mcp server.serverId) = some true) (fun d server => ?_)
        (fun d server other done => ?_) bundle.mcp d server listed
      · rw [enabled_putServer, if_pos rfl]
      · rw [enabled_putServer, done, ite_self]
    have skills : ∀ (skills : List LoadedSkill) (d : ManagedConfig Settings),
        d.enabled? (.mcp server.serverId) = some true →
          (skills.foldl putSkill d).enabled? (.mcp server.serverId) = some true := by
      intro skills
      induction skills with
      | nil => exact fun d done => done
      | cons skill rest ih =>
        intro d done
        refine ih (putSkill d skill) ?_
        rw [enabled_putSkill, done, ite_self]
    exact skills bundle.skills _ servers
  · obtain ⟨skill, listed, rfl⟩ := List.mem_map.mp isSkill
    refine Loops.foldl_each (P := fun (skill : LoadedSkill) (d : ManagedConfig Settings) =>
      d.enabled? (.skill skill.skillId) = some true) (fun d skill => ?_)
      (fun d skill other done => ?_) bundle.skills _ skill listed
    · rw [enabled_putSkill, if_pos rfl]
    · rw [enabled_putSkill, done, ite_self]

theorem changesOnly_setComponent (enabled : Bool) (d : ManagedConfig Settings) (mine : own c) :
    ChangesOnly own d (d.setComponent enabled c) := by
  cases c with
  | mcp serverId =>
    refine ⟨rfl, fun other foreign => ?_⟩
    cases other with
    | mcp otherId =>
      refine Function.update_of_ne ?_ _ _
      rintro rfl
      exact foreign mine
    | skill skillId => rfl
  | skill skillId =>
    refine ⟨rfl, fun other foreign => ?_⟩
    cases other with
    | mcp serverId => rfl
    | skill otherId =>
      refine Function.update_of_ne ?_ _ _
      rintro rfl
      exact foreign mine

theorem enabled_setComponent (enabled : Bool) (d : ManagedConfig Settings) (c other : ComponentId) :
    (d.setComponent enabled c).enabled? other =
      if other = c then (d.enabled? c).map fun _ => enabled else d.enabled? other := by
  by_cases same : other = c
  · subst same
    rw [if_pos rfl]
    cases other with
    | mcp serverId | skill skillId =>
      simp only [ManagedConfig.enabled?, ManagedConfig.setComponent, Function.update_self,
        Option.map_map]
      rfl
  · rw [if_neg same]
    have kept : ChangesOnly (· = c) d (d.setComponent enabled c) :=
      changesOnly_setComponent enabled d rfl
    exact (kept.components other same).enabled?

theorem changesOnly_setComponents (ids : List ComponentId) (enabled : Bool)
    (d : ManagedConfig Settings) (mine : ∀ c ∈ ids, own c) :
    ChangesOnly own d (d.setComponents ids enabled) :=
  Loops.foldl_relates ChangesOnly.refl ChangesOnly.trans
    (fun d c member => changesOnly_setComponent enabled d (mine c member)) d

theorem enabled_setComponents (ids : List ComponentId) (enabled : Bool) (d : ManagedConfig Settings)
    (named : c ∈ ids) :
    (d.setComponents ids enabled).enabled? c = (d.enabled? c).map fun _ => enabled := by
  have flagged : ∀ e ∈ (d.setComponents ids enabled).enabled? c, e = enabled := by
    refine Loops.foldl_each (P := fun c (d : ManagedConfig Settings) =>
      ∀ e ∈ d.enabled? c, e = enabled) (fun d c => ?_) (fun d c other done => ?_) ids d c named
    · intro e found
      rw [enabled_setComponent, if_pos rfl] at found
      obtain ⟨-, -, rfl⟩ := Option.map_eq_some_iff.mp found
      rfl
    · intro e found
      rw [enabled_setComponent] at found
      split at found
      · obtain ⟨-, -, rfl⟩ := Option.map_eq_some_iff.mp found
        rfl
      · exact done e found
  have present : (d.setComponents ids enabled).enabled? c = none ↔ d.enabled? c = none := by
    refine Loops.foldl_relates (R := fun (d d' : ManagedConfig Settings) =>
      d'.enabled? c = none ↔ d.enabled? c = none) (fun _ => Iff.rfl)
      (fun first second => second.trans first) (fun d other _ => ?_) d
    rw [enabled_setComponent]
    split
    next same => rw [same, Option.map_eq_none_iff]
    next => rfl
  cases found : d.enabled? c with
  | none => exact present.mpr found
  | some before =>
    cases after : (d.setComponents ids enabled).enabled? c with
    | none =>
      rw [present.mp after] at found
      cases found
    | some e => rw [flagged e after, Option.map_some]

end Documents

theorem mem_componentPackages (bundle : CapabilityBundle) (c : ComponentId) :
    c ∈ bundle.componentPackages.map Prod.fst ↔ c ∈ bundle.components := by
  have servers : ∀ (servers : List InspectedServer) (packages : List (ComponentId × String)),
      c ∈ (servers.foldl (fun packages server =>
        KeyedFold.put (fun _ => server.packageId) (.mcp server.serverId) packages)
        packages).map Prod.fst ↔
        c ∈ packages.map Prod.fst ∨ c ∈ servers.map fun server => .mcp server.serverId := by
    intro servers
    induction servers with
    | nil => simp
    | cons server rest ih =>
      intro packages
      rw [List.foldl_cons, ih, KeyedFold.keys_put, KeyedFold.see, List.map_cons, List.mem_cons]
      grind
  have skills : ∀ (skills : List LoadedSkill) (packages : List (ComponentId × String)),
      c ∈ (skills.foldl (fun packages skill =>
        KeyedFold.put (fun _ => skill.packageId) (.skill skill.skillId) packages)
        packages).map Prod.fst ↔
        c ∈ packages.map Prod.fst ∨ c ∈ skills.map fun skill => .skill skill.skillId := by
    intro skills
    induction skills with
    | nil => simp
    | cons skill rest ih =>
      intro packages
      rw [List.foldl_cons, ih, KeyedFold.keys_put, KeyedFold.see, List.map_cons, List.mem_cons]
      grind
  rw [CapabilityBundle.componentPackages, skills, servers, CapabilityBundle.components,
    List.mem_append]
  simp

end Knoa.Extensions.Installs
