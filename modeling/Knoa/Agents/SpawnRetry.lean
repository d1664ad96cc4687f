import Knoa.Agents.RecordedPolicy
import Knoa.Agents.SpawnBounds

/-!
# Delegation after a crash

The recovery settles every child. The limits hold, and a retry returns its child, as
long as no spawn is cut off between its child and the link.
-/
namespace Knoa.Agents
open Knoa.Tasks Relational Transaction Transition

def Retried (env : SpawnEnv) (s : Delegating) : Prop :=
  s.serving = true → s.spawning = none → ∀ child ∈ s.children, ∀ q : SpawnRequest,
    q.key child.kind = child.key → q.mode = child.request.mode → ∀ now,
      let t := final (Delegating.step env) s [.spawn q, .inspect, .activate now]
      t.spawning = none ∧ t.children = s.children ∧ child.taskId ∈ t.activated ∧
        ∃ link, t.outcome = some (.ok link) ∧ link.childTaskId = child.taskId

/-- A spawn whose key has a child creates none, and ends with that child unless an
exception or the end of the process cuts it off. -/
def Returns (env : SpawnEnv) (s : Delegating) (act : SpawnAct) : Prop :=
  ∀ q s', s.step env act = some s' →
    (act = .spawn q ∨ ∃ phase, s.spawning = some ⟨q, phase⟩) → act ≠ .fail → act ≠ .crash →
      ∀ child ∈ s.children, q.key child.kind = child.key → q.mode = child.request.mode →
        s'.children = s.children ∧ (s'.spawning = none →
          ∃ link, s'.outcome = some (.ok link) ∧ link.childTaskId = child.taskId)

section Retries

variable {env : SpawnEnv} {s s' : Delegating} {q : SpawnRequest} {kind : ParentKind}
  {policy : ResolvedInvocationPolicy} {act : SpawnAct} {phase : SpawnPhase}
  {child : SpawnedChild} {link : DelegationLink}

section
variable (h : Punctual env s)
include h

theorem Punctual.known (member : child ∈ s.children)
    (key : q.key child.kind = child.key) (mode : q.mode = child.request.mode) :
    s.parentKind q.scope.principalId q.parentId = .ok child.kind ∧
      ¬(child.kind = .taskExecution ∧ q.mode = .join) := by
  obtain ⟨policy, parented⟩ := h.parents child member
  have principal : q.scope.principalId = child.request.scope.principalId :=
    congrArg LinkKey.principalId key
  have parent : q.parentId = child.request.parentId := congrArg LinkKey.parentId key
  rw [principal, parent, mode]
  exact ⟨parented.known, parented.detached⟩

theorem Punctual.link_child (member : child ∈ s.children)
    (found : Found s q link) (key : q.key child.kind = child.key)
    (mode : q.mode = child.request.mode) : link.childTaskId = child.taskId := by
  obtain ⟨known, -⟩ := h.known member key mode
  obtain ⟨owner, present, names, same, -⟩ := found.owner h.orderly.settling
  obtain ⟨-, kind, keyed, found⟩ := found
  rw [known] at found
  cases found
  have one : owner = child := List.inj_on_of_nodup_map h.single present member
    (same.trans (keyed.trans key))
  rw [names, one]

theorem Punctual.linked (unlinked : s.unlinked = []) (member : child ∈ s.children) :
    ∃ link ∈ s.links.rows, link.key = child.key := by
  have listed : child.entry ∈ s.links.rows.map DelegationLink.entry := by
    rw [← h.entries_of unlinked]
    exact List.mem_map_of_mem member
  obtain ⟨link, present, same⟩ := List.mem_map.mp listed
  exact ⟨link, present, congrArg Prod.fst same⟩

theorem Punctual.no_child (unlinked : s.unlinked = [])
    (known : s.parentKind q.scope.principalId q.parentId = .ok kind)
    (none : s.links.findIdempotent (q.key kind) = none) (member : child ∈ s.children)
    (key : q.key child.kind = child.key) (mode : q.mode = child.request.mode) : False := by
  rw [(h.known member key mode).1] at known
  cases known
  obtain ⟨link, present, same⟩ := h.linked unlinked member
  have missing := List.find?_eq_none.mp none link present
  simp [same, key] at missing

theorem Punctual.begun_found (idle : s.spawning = none)
    (member : child ∈ s.children) (key : q.key child.kind = child.key)
    (mode : q.mode = child.request.mode) :
    ∃ link, Found s q link ∧ s.begun q = .ok (s.goTo q (.found link)) := by
  obtain ⟨known, detached⟩ := h.known member key mode
  have present : ∃ link, s.links.findIdempotent (q.key child.kind) = some link := by
    obtain ⟨link, present, same⟩ := h.linked (unlinked_idle idle) member
    apply Option.isSome_iff_exists.mp
    exact List.find?_isSome.mpr ⟨link, present, by simp [same, key]⟩
  obtain ⟨link, linked⟩ := present
  have keyed : link.key = q.key child.kind := by simpa using List.find?_some linked
  refine ⟨link, ⟨List.mem_of_find?_eq_some linked, child.kind, keyed, known⟩, ?_⟩
  unfold Delegating.begun
  rw [known, Transaction.ok_bind, Transaction.require_of detached, Transaction.ok_bind, linked]
  rfl

theorem Punctual.returns (quiet : Undisturbed s act) (timely : Timely s act) :
    Returns env s act := by
  intro q s' stepped running unfailed uncrashed child member key mode
  have taken := step_taken stepped
  have settling := h.orderly.settling
  have onRecord := settling.children child member
  have principal : child.request.scope.principalId = q.scope.principalId :=
    (congrArg LinkKey.principalId key).symm
  cases taken with
  | repository | configure | observe =>
    obtain same | ⟨phase, spawning⟩ := running
    · cases same
    · exact ⟨rfl, fun idle => absurd (idle.symm.trans spawning) (by simp)⟩
  | refused serving idle refused =>
    obtain same | ⟨phase, spawning⟩ := running
    · cases same
      obtain ⟨link, -, begun⟩ := h.begun_found idle member key mode
      rw [begun] at refused
      cases refused
    · rw [idle] at spawning
      cases spawning
  | found | begun => exact ⟨rfl, nofun⟩
  | missing spawning missing =>
    obtain same | ⟨phase, spawns⟩ := running
    · cases same
    · rw [spawning] at spawns
      cases spawns
      have found := h.frame _ _ spawning
      obtain ⟨v, seen, -⟩ := onRecord.view
      rw [h.link_child member found key mode, reads onRecord principal seen] at missing
      cases missing
  | @returned _ link _ spawning =>
    obtain same | ⟨phase, spawns⟩ := running
    · cases same
    · rw [spawning] at spawns
      cases spawns
      have found := h.frame _ _ spawning
      exact ⟨rfl, fun _ => ⟨link, rfl, h.link_child member found key mode⟩⟩
  | @reactivated _ link _ s' spawning activated | @activated _ link _ _ s' spawning activated =>
    obtain same | ⟨phase, spawns⟩ := running
    · cases same
    · rw [spawning] at spawns
      cases spawns
      obtain ⟨found, -⟩ := h.frame _ _ spawning
      have same : SameTables s (s'.finish link) := (activateChild_same activated).finish
      exact ⟨same.children, fun _ => ⟨link, rfl, h.link_child member found key mode⟩⟩
  | unreactivated spawning refused =>
    obtain same | ⟨phase, spawns⟩ := running
    · cases same
    · rw [spawning] at spawns
      cases spawns
      obtain ⟨found, idle⟩ := h.frame _ _ spawning
      have names := h.link_child member found key mode
      rw [names] at idle refused
      obtain ⟨s₁, activated⟩ := activates _ onRecord principal (h.attended child member) idle
      rw [activated] at refused
      cases refused
  | uncounted spawning | unprepared spawning | unshared spawning =>
    obtain same | ⟨phase, spawns⟩ := running
    · cases same
    · rw [spawning] at spawns
      cases spawns
      obtain ⟨parented, -⟩ := h.frame _ _ spawning
      have none := h.orderly.frame _ _ spawning
      exact (h.no_child (unlinked_of spawning) parented.known none member key mode).elim
  | uncreated spawning | created spawning =>
    obtain same | ⟨phase, spawns⟩ := running
    · cases same
    · rw [spawning] at spawns
      cases spawns
      obtain ⟨parented, -⟩ := h.frame _ _ spawning
      obtain ⟨none, -⟩ := h.orderly.frame _ _ spawning
      exact (h.no_child (unlinked_of spawning) parented.known none member key mode).elim
  | staged | counted | prepared | announced | recorded | linked => exact ⟨rfl, nofun⟩
  | unrecorded spawning refused => exact (h.records spawning refused).elim
  | unlinked spawning fresh refused => exact (h.links_child spawning fresh refused).elim
  | unactivated spawning refused =>
    obtain ⟨found, names, idle⟩ := h.frame _ _ spawning
    exact (h.activates_child found names idle refused).elim
  | cancelled spawning => exact (h.frame _ _ spawning).elim
  | failed => exact absurd rfl unfailed
  | crash => exact absurd rfl uncrashed
  | recover starting =>
    obtain same | ⟨phase, spawning⟩ := running
    · cases same
    · exact absurd ((h.orderly.starting starting).symm.trans spawning) (by simp)
  | recoveredNext recovering | unrecovered recovering | recovered recovering =>
    obtain same | ⟨phase, spawning⟩ := running
    · cases same
    · have idle := h.orderly.starting (h.orderly.recovers _ recovering)
      exact absurd (idle.symm.trans spawning) (by simp)

theorem Punctual.retried : Retried env s := by
  intro serving idle child member q key mode now
  have settling := h.orderly.settling
  have onRecord := settling.children child member
  have principal : child.request.scope.principalId = q.scope.principalId :=
    (congrArg LinkKey.principalId key).symm
  obtain ⟨link, found, begun⟩ := h.begun_found idle member key mode
  have names := h.link_child member found key mode
  obtain ⟨v, seen, waits, -⟩ := h.attended child member
  have spawned : s.step env (.spawn q) = some (s.goTo q (.found link)) := by
    change (if s.serving = true ∧ s.spawning = none then some (s.orRaises (s.begun q))
      else none) = _
    rw [if_pos ⟨serving, idle⟩, begun]
    rfl
  have read : getTask s.store q.scope.principalId link.childTaskId = .ok v.row := by
    rw [names]
    exact reads onRecord principal seen
  have inspected : (s.goTo q (.found link)).step env .inspect = some (if v.row.phase =
      "delegation_staged" then s.goTo q (.reactivating link) else s.finish link) := by
    change some ((s.goTo q (.found link)).orRaises ((s.goTo q (.found link)).inspected q link)) = _
    rw [inspected_ok (s := s.goTo q (.found link)) read]
    split <;> rfl
  rw [final, Transition.next_of_some spawned, final, Transition.next_of_some inspected, final]
  by_cases staged : v.row.phase = "delegation_staged"
  · rw [if_pos staged]
    have unactivated : child.taskId ∉ s.activated := by
      intro listed
      obtain ⟨w, again, -, active⟩ := h.attended child member
      rw [seen] at again
      cases again
      exact active listed staged
    have waiting : OnRecord (s.goTo q (.reactivating link)) child :=
      ⟨onRecord.trimmed, onRecord.sized, onRecord.view⟩
    obtain ⟨s₁, activated⟩ := activates now waiting principal (h.attended child member) unactivated
    obtain ⟨task, store, returned, rfl⟩ := activateChild_ok activated
    obtain ⟨named, -⟩ := Tasks.activateStaged_ok (commit_ok_iff.mp returned) onRecord.trimmed
    have stepped : (s.goTo q (.reactivating link)).step env (.activate now) =
        some (Delegating.finish { s.goTo q (.reactivating link) with
          store, activated := s.activated ++ [task.taskId] } link) := by
      change some ((s.goTo q (.reactivating link)).orRaises (taskCall (do
        let s' ← (s.goTo q (.reactivating link)).activateChild now q.scope.principalId
          link.childTaskId
        return s'.finish link))) = _
      rw [names, activated]
      rfl
    rw [Transition.next_of_some stepped, final]
    exact ⟨rfl, rfl, List.mem_append_right _ (List.mem_singleton.mpr named.symm), link, rfl, names⟩
  · rw [if_neg staged]
    have refused : (s.finish link).step env (.activate now) = none := rfl
    rw [Transition.next_of_none refused, final]
    refine ⟨rfl, rfl, ?_, link, rfl, names⟩
    by_contra unactivated
    exact staged (waits unactivated).staged

end

theorem initial_orderly (env : SpawnEnv) (sessions : Table Tasks.SessionRow.sessionHandle)
    (definitions : Table Tasks.DefinitionRow.taskId)
    (executions : Table Tasks.ExecutionRow.executionId) (resolver : NodeAgentResolver)
    (turns : List (String × String)) :
    Orderly env (.initial sessions definitions executions resolver turns) where
  settling :=
    { sound := Tasks.initial_sound sessions definitions executions
      housed := fun _ member => by cases member
      apart := fun _ member => by cases member
      distinct := List.nodup_nil
      children := fun _ member => by cases member
      activated := fun _ member => by cases member
      linked := fun _ member => by cases member
      links := fun _ member => by cases member
      snapshots := fun _ member => by cases member }
  frame _ _ spawning := by cases spawning
  pending _ recovering := by cases recovering
  starting _ := rfl
  recovers _ recovering := by cases recovering

theorem initial_punctual (env : SpawnEnv) (sessions : Table Tasks.SessionRow.sessionHandle)
    (definitions : Table Tasks.DefinitionRow.taskId)
    (executions : Table Tasks.ExecutionRow.executionId) (resolver : NodeAgentResolver)
    (turns : List (String × String)) :
    Punctual env (.initial sessions definitions executions resolver turns) where
  orderly := initial_orderly env sessions definitions executions resolver turns
  trimmed _ _ seen := by cases seen
  attended _ member := by cases member
  parents _ member := by cases member
  entries := rfl
  single := List.nodup_nil
  depth _ member := by cases member
  bounded _ member := by cases member
  frame _ _ spawning := by cases spawning
  recovering _ recovering := by cases recovering

end Retries

theorem spawn_crash_safe (env : SpawnEnv) (sessions : Table Tasks.SessionRow.sessionHandle)
    (definitions : Table Tasks.DefinitionRow.taskId)
    (executions : Table Tasks.ExecutionRow.executionId) (resolver : NodeAgentResolver)
    (turns : List (String × String)) (acts : List SpawnAct) (s : Delegating)
    (start : Delegating.initial sessions definitions executions resolver turns = s)
    (undisturbed : ∀ taken ∈ accepted (Delegating.step env) s acts, Undisturbed taken.1 taken.2) :
    (∀ t ∈ trace (Delegating.step env) s acts, t.recovering = some [] →
      ∀ child ∈ t.children, Settled env t child) ∧
    ((∀ taken ∈ accepted (Delegating.step env) s acts, Timely taken.1 taken.2) →
      (∀ t ∈ trace (Delegating.step env) s acts, Bounded t ∧
        (t.children.map SpawnedChild.key).Nodup ∧ Retried env t) ∧
      ∀ taken ∈ accepted (Delegating.step env) s acts, Returns env taken.1 taken.2) := by
  subst start
  constructor
  · have kept : ∀ s act s', Orderly env s → Undisturbed s act → s.step env act = some s' →
        Orderly env s' := fun s act s' safe quiet stepped => safe.kept quiet (step_taken stepped)
    have start := initial_orderly env sessions definitions executions resolver turns
    intro t reached done
    exact (trace_safe_of_clean kept start undisturbed t reached).settled done
  · intro timely
    have kept : ∀ s act s', Punctual env s → (Undisturbed s act ∧ Timely s act) →
        s.step env act = some s' → Punctual env s' :=
      fun s act s' safe clean stepped => safe.kept clean.1 clean.2 (step_taken stepped)
    have start := initial_punctual env sessions definitions executions resolver turns
    have clean := fun taken member => And.intro (undisturbed taken member) (timely taken member)
    constructor
    · intro t reached
      have punctual := trace_safe_of_clean kept start clean t reached
      exact ⟨punctual.bounded, punctual.single, punctual.retried⟩
    · exact accepted_of_clean kept
        (fun s act s' safe clean _ => safe.returns clean.1 clean.2) start clean

section Sample

theorem fifty_calls : 50 ≤ 10000 := by decide

def sampleParentPolicy : ResolvedInvocationPolicy where
  agentId := "main"
  nodeAgentDigest := ""
  invocationKind := .user
  callerId := "p"
  platformCapabilities := {"shell", "host_read"}
  allowedPlatformTools := {"read_file", "run_command"}
  allowedSkills := ∅
  runtimeNativeCapabilities := ∅
  delegationTargets := {"worker"}
  delegationMaxDepth := 1
  delegationMaxDeadlineSeconds := 60
  limits := { maxChildren := 1, maxParallelChildren := 1, toolCalls := fifty_calls }

def sampleDelegating : Delegating :=
  .initial (.single { sessionHandle := "s", principalId := "p", agentId := "main" }) .empty
    .empty sampleResolver [("p", "t")]

def sampleSpawning (handle taskId : String) : List SpawnAct :=
  [ .spawn (sampleSpawn ∅ ∅), .prepare { sampleSpawnPorts with sessionHandles := fun _ => handle },
    .create 1 (fun _ => taskId) ]

def sampleRestart : List SpawnAct := [.crash, .recover, .recoverNext 2, .recovered]

def sampleServed : Delegating :=
  final (Delegating.step sampleSpawnEnv) sampleDelegating
    [.recover, .recovered, .observe 0 "t" "p" "s" sampleParentPolicy]

/-- The process ends when the child is linked and not activated. -/
def sampleLinked : List SpawnAct :=
  [.recover, .recovered, .observe 0 "t" "p" "s" sampleParentPolicy] ++ sampleSpawning "k" "c" ++
    [.announce, .record 1, .link "d" 1] ++ sampleRestart

theorem spawn_crash_safe_linked :
    ∃ child ∈ (final (Delegating.step sampleSpawnEnv) sampleDelegating sampleLinked).children,
      child.taskId = "c" ∧
      Settled sampleSpawnEnv (final (Delegating.step sampleSpawnEnv) sampleDelegating
        (sampleLinked.take 12)) child ∧
      Retried sampleSpawnEnv (final (Delegating.step sampleSpawnEnv) sampleDelegating
        sampleLinked) := by
  have undisturbed : ∀ taken ∈ accepted (Delegating.step sampleSpawnEnv) sampleDelegating
      sampleLinked, Undisturbed taken.1 taken.2 := by decide +kernel
  have timely : ∀ taken ∈ accepted (Delegating.step sampleSpawnEnv) sampleDelegating
      sampleLinked, Timely taken.1 taken.2 := by decide +kernel
  obtain ⟨settled, orderly⟩ := spawn_crash_safe sampleSpawnEnv
    ⟨[{ sessionHandle := "s", principalId := "p", agentId := "main" }], by decide⟩ .empty .empty
    sampleResolver [("p", "t")] sampleLinked _ rfl undisturbed
  have through : final (Delegating.step sampleSpawnEnv) sampleDelegating (sampleLinked.take 12) ∈
      trace (Delegating.step sampleSpawnEnv) sampleDelegating sampleLinked :=
    Transition.mem_trace_iff.mpr ⟨sampleLinked.take 12, sampleLinked.drop 12, rfl, rfl⟩
  have present : ∃ child ∈ (final (Delegating.step sampleSpawnEnv) sampleDelegating
      sampleLinked).children, child.taskId = "c" ∧ child ∈ (final (Delegating.step sampleSpawnEnv)
        sampleDelegating (sampleLinked.take 12)).children := by
    decide +kernel
  obtain ⟨child, member, named, before⟩ := present
  refine ⟨child, member, named, settled _ through (by decide +kernel) child before, ?_⟩
  exact ((orderly timely).1 _ (Transition.mem_trace_final _ _)).2.2

/-- The process ends when the child is created and not linked. -/
def sampleCutOff : Delegating :=
  final (Delegating.step sampleSpawnEnv) sampleServed (sampleSpawning "k" "c" ++ sampleRestart)

def sampleRetried : Delegating :=
  final (Delegating.step sampleSpawnEnv) sampleCutOff (sampleSpawning "l" "e")

/-- The retry opens another session, and its request conflicts with that of the child. -/
theorem retry_conflicts : sampleCutOff.serving = true ∧ sampleCutOff.spawning = none ∧
      sampleCutOff.children = [⟨sampleSpawn ∅ ∅, .conversationTurn, "c"⟩] ∧
      sampleRetried.spawning = none ∧ sampleRetried.children = sampleCutOff.children ∧
      sampleRetried.outcome = some (.error (.task
        (.idempotencyConflict "client_request_id already belongs to another Task request"))) := by
  decide +kernel

end Sample

end Knoa.Agents
