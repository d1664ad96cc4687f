import Mathlib.Data.Finset.Lattice.Lemmas
import Knoa.Agents.Execution
import Knoa.Agents.SpawnSteps

/-!
# The recorded policy and the executed one

A spawn records the policy of its child. An attempt of the child runs under what the definition
allows by then, twice read.
-/
namespace Knoa.Agents
open Knoa.Tasks Relational Transaction Transition

structure Contained (turn : AgentTurn) (recorded : ResolvedInvocationPolicy) : Prop where
  capabilities : turn.grant.capabilities ⊆ recorded.platformCapabilities
  tools : turn.grant.toolNames ⊆ recorded.allowedPlatformTools
  skills : turn.policy.allowedSkills ⊆ recorded.allowedSkills
  artifacts : turn.grant.artifactIds ⊆ recorded.artifactIds
  toolCalls : turn.grant.budget.maxToolCalls ≤ recorded.limits.maxGatewayToolCalls

namespace Moment

variable (m : Moment) (agent : NodeAgent)

/-- What the ceilings of a definition leave of what there is at a moment. -/
def capabilities : Finset String :=
  withinCeiling m.ports.principalCapabilities agent.platformCapabilityCeiling

def tools : Finset String :=
  withinCeiling (listFor m.ports.registry m.ports.principalCapabilities) agent.allowedPlatformTools

def defaultSkills : Finset String := m.ports.installedSkills ∩ agent.defaultSkillRefs

def allowedSkills : Finset String := m.ports.installedSkills ∩ agent.allowedSkillRefs

end Moment

namespace TaskAttempt

variable (attempt : TaskAttempt) (agent agent' : NodeAgent)

structure Defined : Prop where
  assigned : attempt.call.assigned.resolver.config.agent (strip attempt.call.agentId) = some agent
  prepared : attempt.prepared.resolver.config.agent (strip attempt.call.agentId) = some agent'

/-- What both definitions leave. -/
def capabilities : Finset String :=
  attempt.call.assigned.capabilities agent ∩ attempt.prepared.capabilities agent'

def tools : Finset String := attempt.call.assigned.tools agent ∩ attempt.prepared.tools agent'

def skills : Finset String :=
  attempt.call.assigned.defaultSkills agent ∩ attempt.prepared.allowedSkills agent'

structure Covered (recorded : ResolvedInvocationPolicy) : Prop where
  capabilities : attempt.capabilities agent agent' ⊆ recorded.platformCapabilities
  tools : attempt.tools agent agent' ⊆ recorded.allowedPlatformTools
  skills : attempt.skills agent agent' ⊆ recorded.allowedSkills

/-- The definitions leave no tool that the capabilities they leave would list. -/
def Toolless : Prop :=
  listFor attempt.prepared.ports.registry (attempt.capabilities agent agent') ∩
    attempt.tools agent agent' = ∅

structure Granted : Prop where
  defined : attempt.Defined agent agent'
  request : attempt.turn.request = attempt.call.request
  capabilities : attempt.turn.grant.capabilities = attempt.capabilities agent agent'
  tools : attempt.turn.grant.toolNames = attempt.tools agent agent'
  skills : attempt.turn.policy.allowedSkills = attempt.skills agent agent'
  artifacts : attempt.turn.grant.artifactIds = attachmentIds attempt.turn.request.attachments
  allowTools : attempt.turn.grant.allowTools = decide (attempt.turn.grant.toolNames ≠ ∅)
  toolCalls : attempt.turn.grant.budget.maxToolCalls = 50

end TaskAttempt

section Resolving

variable {digest : NodeAgent → String} {r : NodeAgentResolver} {q : PolicyRequest}
  {policy : ResolvedInvocationPolicy} {agentId : String}

theorem isAgentId_ne_empty (h : isAgentId agentId = true) : agentId ≠ "" := by
  rintro rfl
  exact absurd h (by decide)

theorem resolvePolicy_named (named : q.requested = some agentId) (given : agentId ≠ "")
    (h : r.resolvePolicy digest q = .ok policy) : ∃ agent, r.agent (strip agentId) = .ok agent ∧
      policy = r.policy digest q (strip agentId) agent := by
  obtain ⟨resolved, resolves, agent, found, -, -, h⟩ := of_bind₃ h
  cases h
  obtain ⟨callable, -, -, -, -, -, -, -, resolves⟩ := of_bind₄ resolves
  cases resolves
  have same : strip ((q.requested.filter (· ≠ "")).getD r.config.defaultAgent) = strip agentId := by
    rw [named, Option.filter_some, if_pos (by simpa using given)]
    rfl
  rw [same] at found ⊢
  exact ⟨agent, found, rfl⟩

theorem withinCeiling_subset (given ceiling : Finset String) :
    withinCeiling given ceiling ⊆ given := by
  unfold withinCeiling
  split
  · exact Finset.Subset.refl given
  · exact Finset.inter_subset_left

end Resolving

theorem Moment.capabilities_subset (m : Moment) (agent : NodeAgent) :
    m.capabilities agent ⊆ m.ports.principalCapabilities := withinCeiling_subset _ _

structure TaskCall.Assigned (call : TaskCall) (agent : NodeAgent) : Prop where
  defined : call.assigned.resolver.config.agent (strip call.agentId) = some agent
  named : isAgentId (strip call.agentId) = true
  policy : ∃ policy, call.request.resolvedPolicy = some policy ∧
    policy.agentId = strip call.agentId ∧
      policy.platformCapabilities = call.assigned.capabilities agent ∧
        policy.allowedPlatformTools = call.assigned.tools agent ∧
          policy.allowedSkills = call.assigned.defaultSkills agent
  unparented : call.request.parentPolicy = none

section Calls

variable {env : SpawnEnv} {s : Executing} {ports : ExecutionPorts} {task : TaskRow}
  {call : TaskCall} {now : Time} {turn : AgentTurn} {snapshots : Snapshots} {q : ExecuteAgentTurn}
  {agent : NodeAgent}

theorem assigned_ok (h : s.assigned env ports task = .ok call) :
    (∃ agent, call.Assigned agent) ∧ call.request.turnId = task.taskId ∧
      call.request.attachments = task.attachments ∧
        call.request.toolsEnabled = task.toolsEnabled := by
  obtain ⟨agentId, -, policy, resolved, h⟩ := of_bind₂ h
  cases h
  obtain ⟨visible, known, resolved⟩ := of_bind resolved
  have given := isAgentId_ne_empty (agent_ok_iff.mp known).1
  obtain ⟨agent, found, rfl⟩ := resolvePolicy_named rfl given resolved
  obtain ⟨named, defined⟩ := agent_ok_iff.mp found
  exact ⟨⟨agent, defined, named, ⟨_, rfl, rfl, rfl, rfl, rfl⟩, rfl⟩, rfl, rfl, rfl⟩

theorem begun_ok_iff : s.begun env now ports q = .ok (snapshots, turn) ↔
    ∃ prepared, (s.moment ports).prepareExecution env.agentDigest s.platform.snapshots q =
        .ok prepared ∧
      s.platform.snapshots.record env.policyDigest now q.turnId q.scope.principalId
        q.scope.sessionHandle prepared.policy = .ok snapshots ∧
          turn = (s.moment ports).issue q prepared := by
  unfold Executing.begun
  simp only [bind_ok_iff]
  constructor
  · rintro ⟨prepared, resolved, stored, recorded, h⟩
    cases h
    exact ⟨prepared, resolved, recorded, rfl⟩
  · rintro ⟨prepared, resolved, recorded, rfl⟩
    exact ⟨prepared, resolved, snapshots, recorded, rfl⟩

theorem prepareExecution_ok {digest : NodeAgent → String} {m : Moment} {prepared : PreparedExecution}
    (h : m.prepareExecution digest snapshots q = .ok prepared) :
    ∃ snapshot, m.resolver.resolvePolicy digest (m.policyRequest q snapshot) =
        .ok prepared.policy ∧
      ∀ policy, q.resolvedPolicy = some policy → snapshot = some policy := by
  obtain ⟨_, -, policy, resolved, sizes, -, h⟩ := of_bind₃ h
  split at h <;> cases h
  refine ⟨_, resolved, ?_⟩
  intro policy given
  rw [given]
  rfl

theorem prepareExecution_toolCalls {digest : NodeAgent → String} {m : Moment}
    {prepared : PreparedExecution} (unparented : q.parentPolicy = none)
    (h : m.prepareExecution digest snapshots q = .ok prepared) :
    prepared.policy.limits.maxGatewayToolCalls = 50 := by
  obtain ⟨snapshot, resolved, -⟩ := prepareExecution_ok h
  obtain ⟨agentId, agent, -, -, -, same⟩ := resolvePolicy_ok resolved
  rw [same]
  change ((m.policyRequest q snapshot).resolvedLimits agent).maxGatewayToolCalls = 50
  cases snapshot with
  | none | some policy =>
    simp only [Moment.policyRequest, unparented]
    rfl

theorem begun_granted (assigned : call.Assigned agent)
    (h : s.begun env now ports call.request = .ok (snapshots, turn)) :
    ∃ agent', TaskAttempt.Granted ⟨call, s.moment ports, turn⟩ agent agent' := by
  obtain ⟨prepared, prepares, -, rfl⟩ := begun_ok_iff.mp h
  obtain ⟨policy, given, name, capabilities, tools, skills⟩ := assigned.policy
  obtain ⟨snapshot, resolved, taken⟩ := prepareExecution_ok prepares
  have taken := taken policy given
  subst taken
  have named : strip call.agentId ≠ "" := isAgentId_ne_empty assigned.named
  have asked : ((s.moment ports).policyRequest call.request (some policy)).requested =
      some policy.agentId := rfl
  obtain ⟨agent', found, same⟩ := resolvePolicy_named asked (by rw [name]; exact named) resolved
  rw [name, Tasks.strip_strip] at found
  have unparented := assigned.unparented
  refine ⟨agent', ⟨assigned.defined, (agent_ok_iff.mp found).2⟩, rfl, ?_, ?_, ?_, rfl, rfl,
    prepareExecution_toolCalls unparented prepares⟩
  · have own : prepared.policy.platformCapabilities =
        (s.moment ports).capabilities agent' ∩ policy.platformCapabilities := by
      rw [same]
      simp only [Moment.policyRequest, unparented]
      rfl
    change (s.moment ports).ports.principalCapabilities ∩ prepared.policy.platformCapabilities = _
    rw [own, ← Finset.inter_assoc, Finset.inter_eq_right.mpr (Moment.capabilities_subset _ _),
      Finset.inter_comm, capabilities]
    rfl
  · change prepared.policy.allowedPlatformTools = _
    rw [same]
    change ((s.moment ports).policyRequest call.request (some policy)).tools agent' = _
    simp only [PolicyRequest.tools, Moment.policyRequest, unparented, narrow, Option.map_none]
    rw [Finset.inter_comm, tools]
    rfl
  · change prepared.policy.allowedSkills = _
    rw [same]
    change ((s.moment ports).policyRequest call.request (some policy)).skills agent' = _
    simp only [PolicyRequest.skills, Moment.policyRequest, unparented, narrow, Option.map_none]
    rw [Finset.inter_comm, skills]
    rfl

end Calls

/-- A recorded policy fits the Task it was recorded for. -/
def Faithful (store : Store) (taskId : String) (policy : ResolvedInvocationPolicy) : Prop :=
  policy.limits.maxGatewayToolCalls = 50 ∧ ∃ id ∈ store.tasks.rows.map TaskRow.identity,
    id.taskId = taskId ∧ attachmentIds id.attachments = policy.artifactIds

def FrameFaithful (store : Store) : SpawnPhase → Prop
  | .counting _ policy _ _ => policy.limits.maxGatewayToolCalls = 50
  | .creating staged => staged.childPolicy.limits.maxGatewayToolCalls = 50 ∧
      attachmentIds staged.attachments = staged.childPolicy.artifactIds
  | .announcing staged child | .recording staged child | .linking staged child =>
    Faithful store child.taskId staged.childPolicy
  | _ => True

/-- Every policy on record has the default tool calls, and every link the policy of
its Task. -/
structure Recorded (s : Delegating) : Prop where
  sound : Sound s.store
  snapshots : ∀ row ∈ s.snapshots.rows, row.policy.limits.maxGatewayToolCalls = 50
  links : ∀ link ∈ s.links.rows, Faithful s.store link.childTaskId link.invocationPolicy
  frame : ∀ frame ∈ s.spawning, FrameFaithful s.store frame.phase

section Platform

variable {env : SpawnEnv} {s s' : Delegating} {act : SpawnAct} {store store' : Store}
  {snapshots snapshots' : Snapshots}

variable {taskId : String} {policy : ResolvedInvocationPolicy}

theorem Faithful.kept (h : Faithful store taskId policy) (taken : StoreTaken env store store')
    (sound : Sound store) : Faithful store' taskId policy := by
  obtain ⟨limit, id, member, names⟩ := h
  exact ⟨limit, id, taken.identity sound member, names⟩

theorem FrameFaithful.kept {phase : SpawnPhase} (h : FrameFaithful store phase)
    (taken : StoreTaken env store store') (sound : Sound store) : FrameFaithful store' phase := by
  cases phase with
  | announcing staged child | recording staged child | linking staged child =>
    exact Faithful.kept h taken sound
  | _ => exact h

variable {now : Time} {principalId : String}

theorem record_limited {policyDigest : ResolvedInvocationPolicy → String}
    {turnId sessionHandle : String}
    (h : snapshots.record policyDigest now turnId principalId sessionHandle policy = .ok snapshots')
    (before : ∀ row ∈ snapshots.rows, row.policy.limits.maxGatewayToolCalls = 50)
    (limit : policy.limits.maxGatewayToolCalls = 50) :
    ∀ row ∈ snapshots'.rows, row.policy.limits.maxGatewayToolCalls = 50 := by
  rcases Snapshots.record_ok h with rfl | ⟨added, -, rfl, inserted⟩
  · exact before
  · intro row member
    rw [Table.insert_rows inserted] at member
    rcases List.mem_concat.mp member with old | new
    · exact before row old
    · rw [new]
      exact limit

theorem Prepared.faithful {q : SpawnRequest} {kind : ParentKind} {active : Nat} {ports : SpawnPorts}
    {staged : StagedChild} (h : Prepared env s q kind policy active ports staged store)
    (limit : policy.limits.maxGatewayToolCalls = 50) : FrameFaithful store (.creating staged) := by
  obtain ⟨resolved, shared, child, same, attached⟩ := h.child
  constructor
  · rw [same]
    exact (childPolicy_ok child).2.trans limit
  · rw [same, attached]
    ext id
    simp [attachmentIds, mem_sortedIds]

theorem create_faithful {q : SpawnRequest} {staged : StagedChild} {taskIds : Nat → String}
    {child : Tasks.TaskRecord} {born : Bool}
    (made : Tasks.create env.tasks now taskIds (staged.createRequest q) store =
      (.ok (child, born), store'))
    (sound : Sound store') (h : FrameFaithful store (.creating staged)) :
    Faithful store' child.taskId staged.childPolicy := by
  obtain ⟨fields, session, -, -, -, present, same⟩ := Tasks.create_ok made sound
  refine ⟨h.1, child.identity, List.mem_map_of_mem present, rfl, ?_⟩
  rw [same.attachments]
  exact h.2

namespace Recorded

section
variable (h : Recorded s)
include h

theorem stored (taken : StoreTaken env s.store store) : Recorded { s with store } where
  sound := taken.sound h.sound
  snapshots := h.snapshots
  links link member := (h.links link member).kept taken h.sound
  frame frame spawning := (h.frame frame spawning).kept taken h.sound

theorem ended (outcome : Option (Except SpawnError DelegationLink)) :
    Recorded { s with spawning := none, outcome } :=
  { h with
    frame := fun frame spawning => by cases spawning }

theorem goTo (q : SpawnRequest) {phase : SpawnPhase}
    (faithful : FrameFaithful s.store phase) : Recorded (s.goTo q phase) :=
  { h with
    frame := fun frame spawning => by
      cases spawning
      exact faithful }

theorem activateChild (env : SpawnEnv)
    (activated : s.activateChild now principalId taskId = .ok s') : Recorded s' := by
  have stepped := activateChild_store env activated
  obtain ⟨task, store, -, rfl⟩ := activateChild_ok activated
  have stored := h.stored (.call stepped)
  exact ⟨stored.sound, stored.snapshots, stored.links, stored.frame⟩

theorem cancelChild {reason : String}
    (cancelled : s.cancelChild env now principalId taskId reason = .ok s') : Recorded s' := by
  have stepped := cancelChild_store cancelled
  obtain ⟨result, store, -, rfl⟩ := cancelChild_ok cancelled
  exact h.stored (.call stepped)

theorem kept (taken : Taken env s act s') (observed : ∀ now turnId principalId sessionHandle policy,
      act = .observe now turnId principalId sessionHandle policy →
        policy.limits.maxGatewayToolCalls = 50) : Recorded s' := by
  have frame : ∀ q phase, s.spawning = some ⟨q, phase⟩ → FrameFaithful s.store phase :=
    fun q phase spawning => h.frame ⟨q, phase⟩ spawning
  cases taken with
  | repository stepped => exact h.stored (.call stepped)
  | configure | recover | unrecovered | recovered => exact ⟨h.sound, h.snapshots, h.links, h.frame⟩
  | observe executes recorded =>
    exact ⟨h.sound, record_limited recorded h.snapshots (observed _ _ _ _ _ rfl), h.links, h.frame⟩
  | refused | missing | returned | unreactivated | uncounted | unprepared | uncreated =>
    exact h.ended _
  | found | staged | unrecorded | unlinked | unactivated => exact h.goTo _ trivial
  | begun _ _ begun =>
    obtain ⟨row, read, same⟩ := Snapshots.get_ok_iff.mp begun.read
    refine h.goTo _ ?_
    rw [FrameFaithful, ← same]
    exact h.snapshots row (Table.lookup_mem read)
  | reactivated _ activated | activated _ activated => exact (h.activateChild env activated).ended _
  | counted spawning =>
    have limit : FrameFaithful s.store _ := frame _ _ spawning
    exact h.goTo _ limit
  | unshared _ session => exact (h.stored (createSession_store env session)).ended _
  | prepared spawning prepared =>
    exact (h.stored (createSession_store env prepared.session)).goTo _
      (prepared.faithful (frame _ _ spawning))
  | created spawning made =>
    have stored := h.stored (.call (created_store made))
    refine ⟨stored.sound, stored.snapshots, stored.links, ?_⟩
    intro next spawning'
    cases spawning'
    exact create_faithful made stored.sound (frame _ _ spawning)
  | announced spawning =>
    have faithful : FrameFaithful s.store _ := frame _ _ spawning
    exact h.goTo _ faithful
  | recorded spawning recorded =>
    have faithful := frame _ _ spawning
    have limited := record_limited recorded h.snapshots faithful.1
    exact ⟨h.sound, limited, h.links, fun next spawning' => by cases spawning'; exact faithful⟩
  | @linked q staged child now delegationId link links spawning _ created =>
    have faithful : Faithful s.store _ _ := frame _ _ spawning
    have added : ∀ link ∈ links.rows, Faithful s.store link.childTaskId link.invocationPolicy := by
      rcases links_create_ok created with ⟨rfl, inserted, -⟩ | ⟨rfl, -⟩
      · intro link member
        rw [Table.insert_rows inserted] at member
        rcases List.mem_concat.mp member with old | new
        · exact h.links link old
        · rw [new]
          exact faithful
      · exact h.links
    exact ⟨h.sound, h.snapshots, added, fun next spawning' => by cases spawning'; trivial⟩
  | cancelled =>
    unfold Delegating.cancelled
    split
    · rename_i cancelled
      exact (h.cancelChild cancelled).ended _
    · exact h.ended _
  | failed =>
    unfold Delegating.failed
    split
    · exact h.goTo _ trivial
    · exact h.goTo _ trivial
    · exact h.goTo _ trivial
    · exact h.ended _
  | crash => exact ⟨h.sound, h.snapshots, h.links, fun frame spawning => by cases spawning⟩
  | recoveredNext _ settled =>
    obtain ⟨s₁, rfl, ⟨-, activated⟩ | ⟨-, cancelled⟩⟩ := recoveredNext_ok settled
    · have kept := h.activateChild env activated
      exact ⟨kept.sound, kept.snapshots, kept.links, kept.frame⟩
    · have kept := h.cancelChild cancelled
      exact ⟨kept.sound, kept.snapshots, kept.links, kept.frame⟩

end

end Recorded

end Platform

/-- The request of a turn carries the columns of its Task. -/
def Known (store : Store) (q : ExecuteAgentTurn) : Prop :=
  ∃ id ∈ store.tasks.rows.map TaskRow.identity, id.taskId = q.turnId ∧
    id.attachments = q.attachments ∧ id.toolsEnabled = q.toolsEnabled

theorem Known.kept {store store' : Store} {q : ExecuteAgentTurn} {env : SpawnEnv}
    (h : Known store q) (taken : StoreTaken env store store') (sound : Sound store) :
    Known store' q := by
  obtain ⟨id, member, names⟩ := h
  exact ⟨id, taken.identity sound member, names⟩

structure Kept (s : Executing) : Prop where
  platform : Recorded s.platform
  calls : ∀ call ∈ s.calls, (∃ agent, call.Assigned agent) ∧ Known s.platform.store call.request
  attempts : ∀ attempt ∈ s.attempts, (∃ agent agent', attempt.Granted agent agent') ∧
    Known s.platform.store attempt.turn.request

section Executions

variable {env : SpawnEnv} {s s' : Executing} {act : ExecAct} {now : Time} {ports : ExecutionPorts}
  {q : ExecuteAgentTurn} {snapshots : Snapshots} {turn : AgentTurn}

theorem Recorded.begun (h : Recorded s.platform) (unparented : q.parentPolicy = none)
    (begun : s.begun env now ports q = .ok (snapshots, turn)) :
    Recorded (s.withSnapshots snapshots).platform := by
  obtain ⟨prepared, prepares, recorded, rfl⟩ := begun_ok_iff.mp begun
  have limited := record_limited recorded h.snapshots (prepareExecution_toolCalls unparented prepares)
  exact ⟨h.sound, limited, h.links, h.frame⟩

theorem platform_taken {act : SpawnAct} (stepped : s.step env (.platform act) = some s') :
    (∀ now turnId principalId sessionHandle policy,
        act ≠ .observe now turnId principalId sessionHandle policy) ∧
      ∃ platform, s.platform.step env act = some platform ∧
        ∃ calls : List TaskCall, (∀ call ∈ calls, call ∈ s.calls) ∧
          s' = { s with platform, calls } := by
  cases act with
  | observe => cases stepped
  | crash =>
    simp only [Executing.step] at stepped
    obtain ⟨platform, taken, rfl⟩ := Option.map_eq_some_iff.mp stepped
    exact ⟨fun _ _ _ _ _ => by simp, platform, taken, [],
      ⟨fun call member => absurd member List.not_mem_nil, rfl⟩⟩
  | _ =>
    simp only [Executing.step] at stepped
    obtain ⟨platform, taken, rfl⟩ := Option.map_eq_some_iff.mp stepped
    exact ⟨fun _ _ _ _ _ => by simp, platform, taken, s.calls, fun call member => member, rfl⟩

theorem Kept.platformed (h : Kept s) {act : SpawnAct} {platform : Delegating}
    (unobserved : ∀ now turnId principalId sessionHandle policy,
      act ≠ .observe now turnId principalId sessionHandle policy)
    (stepped : s.platform.step env act = some platform) {calls : List TaskCall}
    (fewer : ∀ call ∈ calls, call ∈ s.calls) : Kept { s with platform, calls } := by
  have taken := step_taken stepped
  have sound := h.platform.sound
  refine ⟨h.platform.kept taken ?_, ?_, ?_⟩
  · intro now turnId principalId sessionHandle policy same
    exact absurd same (unobserved _ _ _ _ _)
  · intro call member
    obtain ⟨assigned, known⟩ := h.calls call (fewer call member)
    exact ⟨assigned, known.kept taken.store sound⟩
  · intro attempt member
    obtain ⟨granted, known⟩ := h.attempts attempt member
    exact ⟨granted, known.kept taken.store sound⟩

theorem Kept.kept (h : Kept s) (stepped : s.step env act = some s') : Kept s' := by
  cases act with
  | platform act =>
    obtain ⟨unobserved, platform, taken, calls, fewer, rfl⟩ := platform_taken stepped
    exact h.platformed unobserved taken fewer
  | converse now ports q =>
    obtain ⟨⟨-, unparented, -⟩, stepped⟩ := Option.ite_none_right_eq_some.mp stepped
    split at stepped <;> cases stepped
    rename_i begun
    exact ⟨h.platform.begun unparented begun, h.calls, h.attempts⟩
  | assign ports taskId =>
    simp only [Executing.step] at stepped
    split at stepped
    · cases stepped
    · rename_i task found
      have present := Table.lookup_mem (Option.filter_eq_some_iff.mp found).1
      split at stepped <;> cases stepped
      rename_i call assigned
      obtain ⟨defined, id, attachments, tools⟩ := assigned_ok assigned
      refine ⟨h.platform, ?_, h.attempts⟩
      intro other member
      rcases List.mem_concat.mp member with old | new
      · exact h.calls other old
      · rw [new]
        exact ⟨defined, task.identity, List.mem_map_of_mem present, id.symm, attachments.symm,
          tools.symm⟩
  | execute now ports position =>
    simp only [Executing.step] at stepped
    split at stepped
    · cases stepped
    · rename_i call found
      have fewer : ∀ other ∈ s.calls.eraseIdx position, other ∈ s.calls :=
        fun other member => List.mem_of_mem_eraseIdx member
      obtain ⟨⟨agent, assigned⟩, known⟩ := h.calls call (List.mem_of_getElem? found)
      split at stepped
      · rename_i snapshots turn begun
        cases stepped
        refine ⟨h.platform.begun assigned.unparented begun,
          fun other member => h.calls other (fewer other member), ?_⟩
        intro attempt member
        rcases List.mem_concat.mp member with old | new
        · exact h.attempts attempt old
        · rw [new]
          obtain ⟨agent', granted⟩ := begun_granted assigned begun
          refine ⟨⟨agent, agent', granted⟩, ?_⟩
          rw [granted.request]
          exact known
      · cases stepped
        exact ⟨h.platform, fun other member => h.calls other (fewer other member), h.attempts⟩

variable (env) in
theorem final_kept (sessions : Table Tasks.SessionRow.sessionHandle)
    (definitions : Table Tasks.DefinitionRow.taskId)
    (executions : Table Tasks.ExecutionRow.executionId) (resolver : NodeAgentResolver)
    (turns : List (String × String)) (acts : List ExecAct) :
    Kept (final (Executing.step env) (.initial sessions definitions executions resolver turns)
      acts) := by
  refine final_invariant (fun _ _ _ kept stepped => kept.kept stepped) ?_ acts
  refine ⟨⟨Tasks.initial_sound sessions definitions executions, ?_, ?_, ?_⟩, ?_, ?_⟩
  all_goals
    intro row member
    cases member

end Executions

section Attempts

variable {attempt : TaskAttempt} {agent agent' : NodeAgent} {recorded : ResolvedInvocationPolicy}

theorem TaskAttempt.Granted.contained_iff (granted : attempt.Granted agent agent')
    (attached : attachmentIds attempt.turn.request.attachments = recorded.artifactIds)
    (limit : recorded.limits.maxGatewayToolCalls = 50) :
    Contained attempt.turn recorded ↔ attempt.Covered agent agent' recorded := by
  constructor
  · rintro ⟨capabilities, tools, skills, -, -⟩
    rw [granted.capabilities] at capabilities
    rw [granted.tools] at tools
    rw [granted.skills] at skills
    exact ⟨capabilities, tools, skills⟩
  · rintro ⟨capabilities, tools, skills⟩
    rw [← granted.capabilities] at capabilities
    rw [← granted.tools] at tools
    rw [← granted.skills] at skills
    refine ⟨capabilities, tools, skills, ?_, ?_⟩
    · rw [granted.artifacts, attached]
    · rw [granted.toolCalls, limit]

theorem TaskAttempt.Granted.toolless_iff (granted : attempt.Granted agent agent') :
    attempt.turn.grant.authorizedToolNames attempt.prepared.ports.registry = ∅ ↔
      attempt.Toolless agent agent' := by
  unfold CapabilityGrant.authorizedToolNames TaskAttempt.Toolless
  rw [← granted.capabilities, ← granted.tools]
  by_cases none_ : attempt.turn.grant.toolNames = ∅
  · rw [none_, Finset.inter_empty, ite_self]
  · rw [if_pos (by rw [granted.allowTools]; exact decide_eq_true none_)]

end Attempts

theorem attempts_within_record (env : SpawnEnv) (sessions : Table Tasks.SessionRow.sessionHandle)
    (definitions : Table Tasks.DefinitionRow.taskId)
    (executions : Table Tasks.ExecutionRow.executionId) (resolver : NodeAgentResolver)
    (turns : List (String × String)) (acts : List ExecAct) (s : Executing)
    (run : final (Executing.step env) (.initial sessions definitions executions resolver turns)
      acts = s) : ∀ attempt ∈ s.attempts, ∃ agent agent', attempt.Defined agent agent' ∧
      (∀ link ∈ s.platform.links.rows, link.childTaskId = attempt.turn.request.turnId →
        (Contained attempt.turn link.invocationPolicy ↔
          attempt.Covered agent agent' link.invocationPolicy)) ∧
      (∀ task ∈ s.platform.store.tasks.rows, task.taskId = attempt.turn.request.turnId →
        task.toolsEnabled = false →
          (attempt.turn.grant.authorizedToolNames attempt.prepared.ports.registry = ∅ ↔
            attempt.Toolless agent agent')) := by
  subst run
  have kept := final_kept env sessions definitions executions resolver turns acts
  intro attempt ran
  obtain ⟨⟨agent, agent', granted⟩, id, known, name, attached, -⟩ := kept.attempts attempt ran
  refine ⟨agent, agent', granted.defined, ?_, fun _ _ _ _ => granted.toolless_iff⟩
  intro link stored child
  obtain ⟨limit, other, listed, named, artifacts⟩ := kept.platform.links link stored
  have same : id = other := by
    obtain ⟨row, present, rfl⟩ := List.mem_map.mp known
    obtain ⟨row', present', rfl⟩ := List.mem_map.mp listed
    have key : row.taskId = row'.taskId := name.trans (child.symm.trans named.symm)
    rw [Table.mem_unique present present' key]
  subst same
  rw [attached] at artifacts
  exact granted.contained_iff artifacts limit

section Sample

def sampleSpawnEnv : SpawnEnv where
  tasks := Tasks.sampleEnv
  agentDigest := sampleDigest
  policyDigest policy := policy.agentId

def samplePorts : ExecutionPorts where
  principalCapabilities := {"shell", "host_read"}
  registry := [⟨"read_file", true, {"host_read"}⟩, ⟨"run_command", true, {"shell"}⟩]
  installedSkills := ∅
  artifactSize _ := .ok 0

def sampleSpawnPorts : SpawnPorts where
  principalCapabilities := {"shell", "host_read"}
  availableTools := {"read_file", "run_command"}
  installedSkills := ∅
  artifactSize _ := .ok 0
  shareArtifact id := .ok id
  sessionHandles _ := "k"

/-- A turn of the user's Agent delegates to the worker, with the tools it names. -/
def sampleSpawn (capabilities tools : Finset String) : SpawnRequest where
  scope := ⟨"p", "s"⟩
  parentId := "t"
  targetAgentId := "worker"
  goal := "goal"
  requestedCapabilities := capabilities
  requestedTools := tools
  deadlineSeconds := 60
  idempotencyKey := "i"
  normal := by decide +kernel

def sampleExecuting : Executing :=
  .initial (.single { sessionHandle := "s", principalId := "p", agentId := "main" }) .empty
    .empty sampleResolver [("p", "t")]

/-- The delegation, and the attempt of the child. -/
def sampleAttempt (q : SpawnRequest) : List ExecAct :=
  [ .platform .recover, .platform .recovered, .converse 0 samplePorts
      { scope := ⟨"p", "s"⟩, turnId := "t", attachments := [], toolsEnabled := true },
    .platform (.spawn q), .platform (.prepare sampleSpawnPorts),
    .platform (.create 1 (fun _ => "c")), .platform .announce, .platform (.record 1),
    .platform (.link "d" 1), .platform (.activate 1),
    .platform (.repository (.claimNext 2 "w" 60 "p")), .assign samplePorts "c",
    .execute 2 samplePorts 0 ]

def sampleExecuted (q : SpawnRequest) : Executing :=
  final (Executing.step sampleSpawnEnv) sampleExecuting (sampleAttempt q)

/-- A worker that was given all it may have stays within its record. -/
theorem attempts_within_record_full :
    ∃ attempt ∈ (sampleExecuted (sampleSpawn {"shell", "host_read"}
        {"read_file", "run_command"})).attempts,
      ∃ link ∈ (sampleExecuted (sampleSpawn {"shell", "host_read"}
          {"read_file", "run_command"})).platform.links.rows,
        link.childTaskId = attempt.turn.request.turnId ∧
          Contained attempt.turn link.invocationPolicy := by
  have ran : ∃ attempt ∈ (sampleExecuted (sampleSpawn {"shell", "host_read"}
        {"read_file", "run_command"})).attempts,
      attempt.call.assigned.resolver.config.agent (strip attempt.call.agentId) = some workerAgent ∧
      attempt.prepared.resolver.config.agent (strip attempt.call.agentId) = some workerAgent ∧
      ∃ link ∈ (sampleExecuted (sampleSpawn {"shell", "host_read"}
          {"read_file", "run_command"})).platform.links.rows,
        link.childTaskId = attempt.turn.request.turnId ∧
          attempt.capabilities workerAgent workerAgent ⊆ link.invocationPolicy.platformCapabilities ∧
          attempt.tools workerAgent workerAgent ⊆ link.invocationPolicy.allowedPlatformTools ∧
          attempt.skills workerAgent workerAgent ⊆ link.invocationPolicy.allowedSkills := by
    decide +kernel
  obtain ⟨attempt, member, assigned, prepared, link, stored, child, covered⟩ := ran
  obtain ⟨agent, agent', defined, contained, -⟩ := attempts_within_record sampleSpawnEnv
    ⟨[{ sessionHandle := "s", principalId := "p", agentId := "main" }], by decide⟩ .empty .empty
    sampleResolver [("p", "t")] (sampleAttempt (sampleSpawn {"shell", "host_read"}
      {"read_file", "run_command"})) _ rfl attempt member
  obtain rfl : workerAgent = agent := Option.some.inj (assigned.symm.trans defined.assigned)
  obtain rfl : workerAgent = agent' := Option.some.inj (prepared.symm.trans defined.prepared)
  exact ⟨attempt, member, link, stored, child,
    (contained link stored child).mpr ⟨covered.1, covered.2.1, covered.2.2⟩⟩

/-- A worker that was given no tools runs with all of them. -/
theorem attempt_escapes_record : ∃ attempt ∈ (sampleExecuted (sampleSpawn ∅ ∅)).attempts,
      (∃ link ∈ (sampleExecuted (sampleSpawn ∅ ∅)).platform.links.rows,
        link.childTaskId = attempt.turn.request.turnId ∧
        (sampleExecuted (sampleSpawn ∅ ∅)).platform.snapshots.get link.childTaskId =
          .ok link.invocationPolicy ∧
        ¬ attempt.turn.grant.toolNames ⊆ link.invocationPolicy.allowedPlatformTools ∧
        ¬ attempt.turn.grant.capabilities ⊆ link.invocationPolicy.platformCapabilities) ∧
      (∃ task ∈ (sampleExecuted (sampleSpawn ∅ ∅)).platform.store.tasks.rows,
        task.taskId = attempt.turn.request.turnId ∧ task.toolsEnabled = false) ∧
      attempt.turn.grant.authorizedToolNames attempt.prepared.ports.registry ≠ ∅ := by
  decide +kernel

end Sample

end Knoa.Agents
