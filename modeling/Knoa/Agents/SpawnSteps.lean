import Knoa.Agents.Attenuation
import Knoa.Agents.Delegation
import Knoa.Tasks.Idempotency

/-!
# The steps of a spawn

`Taken` says once, for every act, what it finds and what it leaves. What a spawn or
the recovery keeps is proved from it.
-/
namespace Knoa.Agents
open Knoa.Tasks Relational Transaction

structure Begun (s : Delegating) (q : SpawnRequest) (kind : ParentKind)
    (policy : ResolvedInvocationPolicy) : Prop where
  known : s.parentKind q.scope.principalId q.parentId = .ok kind
  detached : ¬(kind = .taskExecution ∧ q.mode = .join)
  unlinked : s.links.findIdempotent (q.key kind) = none
  read : s.snapshots.get q.parentId = .ok policy
  target : q.targetAgentId ∈ policy.delegationTargets
  room : (s.links.listParent q.scope.principalId kind q.parentId).length < policy.limits.maxChildren

structure Prepared (env : SpawnEnv) (s : Delegating) (q : SpawnRequest) (kind : ParentKind)
    (policy : ResolvedInvocationPolicy) (active : Nat) (ports : SpawnPorts) (staged : StagedChild)
    (store : Store) : Prop where
  checked : checkParentPolicy q policy active = .ok ⟨⟩
  child : ∃ resolved shared, childPolicy env.agentDigest s.resolver q policy ports = .ok resolved ∧
    staged.childPolicy = { resolved with artifactIds := shared } ∧
      staged.attachments = (sortedIds shared).map (fun id => { artifactId := id })
  session : createSession s.store q.scope.principalId q.targetAgentId ports.sessionHandles =
    .ok (staged.scope, store)
  kind : staged.kind = kind
  parent : staged.parentPolicy = policy
  goal : staged.goal = childGoal q

inductive Taken (env : SpawnEnv) (s : Delegating) : SpawnAct → Delegating → Prop
  | repository {op : Tasks.Op} {store : Store} (stepped : Tasks.step env.tasks s.store op = some store)
      (apart : s.Apart store) : Taken env s (.repository op) { s with store }
  | configure {resolver : NodeAgentResolver} :
      Taken env s (.configure resolver) { s with resolver }
  | observe {now : Time} {turnId principalId sessionHandle : String}
      {policy : ResolvedInvocationPolicy} {snapshots : Snapshots} (executes : s.Executes turnId)
      (recorded : s.snapshots.record env.policyDigest now turnId principalId sessionHandle policy =
        .ok snapshots) :
      Taken env s (.observe now turnId principalId sessionHandle policy) { s with snapshots }
  | refused {q : SpawnRequest} {error : SpawnError} (serving : s.serving = true)
      (idle : s.spawning = none) (refused : s.begun q = .error error) :
        Taken env s (.spawn q) (s.raise error)
  | found {q : SpawnRequest} {kind : ParentKind} {link : DelegationLink}
      (serving : s.serving = true) (idle : s.spawning = none)
      (known : s.parentKind q.scope.principalId q.parentId = .ok kind)
      (detached : ¬(kind = .taskExecution ∧ q.mode = .join))
      (linked : s.links.findIdempotent (q.key kind) = some link) :
      Taken env s (.spawn q) (s.goTo q (.found link))
  | begun {q : SpawnRequest} {kind : ParentKind} {policy : ResolvedInvocationPolicy}
      (serving : s.serving = true) (idle : s.spawning = none) (begun : Begun s q kind policy) :
      Taken env s (.spawn q) (s.goTo q (.counting kind policy
        (s.links.listParent q.scope.principalId kind q.parentId) 0))
  | missing {q : SpawnRequest} {link : DelegationLink} {error : TaskError}
      (spawning : s.spawning = some ⟨q, .found link⟩)
      (missing : getTask s.store q.scope.principalId link.childTaskId = .error error) :
      Taken env s .inspect (s.raise (.task error))
  | staged {q : SpawnRequest} {link : DelegationLink} {child : TaskRecord}
      (spawning : s.spawning = some ⟨q, .found link⟩)
      (read : getTask s.store q.scope.principalId link.childTaskId = .ok child)
      (staged : child.phase = "delegation_staged") :
      Taken env s .inspect (s.goTo q (.reactivating link))
  | returned {q : SpawnRequest} {link : DelegationLink} {child : TaskRecord}
      (spawning : s.spawning = some ⟨q, .found link⟩)
      (read : getTask s.store q.scope.principalId link.childTaskId = .ok child)
      (active : child.phase ≠ "delegation_staged") : Taken env s .inspect (s.finish link)
  | reactivated {q : SpawnRequest} {link : DelegationLink} {now : Time} {s' : Delegating}
      (spawning : s.spawning = some ⟨q, .reactivating link⟩)
      (activated : s.activateChild now q.scope.principalId link.childTaskId = .ok s') :
      Taken env s (.activate now) (s'.finish link)
  | unreactivated {q : SpawnRequest} {link : DelegationLink} {now : Time} {error : TaskError}
      (spawning : s.spawning = some ⟨q, .reactivating link⟩)
      (refused : s.activateChild now q.scope.principalId link.childTaskId = .error error) :
      Taken env s (.activate now) (s.raise (.task error))
  | counted {q : SpawnRequest} {kind : ParentKind} {policy : ResolvedInvocationPolicy}
      {link : DelegationLink} {remaining : List DelegationLink} {active live : Nat}
      (spawning : s.spawning = some ⟨q, .counting kind policy (link :: remaining) active⟩)
      (counted : s.counts q.scope.principalId link = .ok live) :
      Taken env s .count (s.goTo q (.counting kind policy remaining (active + live)))
  | uncounted {q : SpawnRequest} {kind : ParentKind} {policy : ResolvedInvocationPolicy}
      {link : DelegationLink} {remaining : List DelegationLink} {active : Nat} {error : SpawnError}
      (spawning : s.spawning = some ⟨q, .counting kind policy (link :: remaining) active⟩)
      (refused : s.counts q.scope.principalId link = .error error) :
      Taken env s .count (s.raise error)
  | unprepared {q : SpawnRequest} {kind : ParentKind} {policy : ResolvedInvocationPolicy}
      {active : Nat} {ports : SpawnPorts} {error : SpawnError}
      (spawning : s.spawning = some ⟨q, .counting kind policy [] active⟩)
      (refused : s.prepared env q kind policy active ports = .error error) :
      Taken env s (.prepare ports) (s.raise error)
  | unshared {q : SpawnRequest} {kind : ParentKind} {policy : ResolvedInvocationPolicy}
      {active : Nat} {ports : SpawnPorts} {opened : RuntimeScope × Store} {error : SpawnError}
      (spawning : s.spawning = some ⟨q, .counting kind policy [] active⟩)
      (session : createSession s.store q.scope.principalId q.targetAgentId ports.sessionHandles =
        .ok opened) :
      Taken env s (.prepare ports) ({ s with store := opened.2 }.raise error)
  | prepared {q : SpawnRequest} {kind : ParentKind} {policy : ResolvedInvocationPolicy}
      {active : Nat} {ports : SpawnPorts} {staged : StagedChild} {store : Store}
      (spawning : s.spawning = some ⟨q, .counting kind policy [] active⟩)
      (prepared : Prepared env s q kind policy active ports staged store) :
      Taken env s (.prepare ports) ({ s with store }.goTo q (.creating staged))
  | uncreated {q : SpawnRequest} {staged : StagedChild} {now : Time} {taskIds : Nat → String}
      {error : TaskError} {store : Store} (spawning : s.spawning = some ⟨q, .creating staged⟩)
      (refused : Tasks.create env.tasks now taskIds (staged.createRequest q) s.store =
        (.error error, store)) :
      Taken env s (.create now taskIds) (s.raise (.task error))
  | created {q : SpawnRequest} {staged : StagedChild} {now : Time} {taskIds : Nat → String}
      {child : TaskRecord} {born : Bool} {store : Store}
      (spawning : s.spawning = some ⟨q, .creating staged⟩)
      (created : Tasks.create env.tasks now taskIds (staged.createRequest q) s.store =
        (.ok (child, born), store))
      (apart : s.Apart store) :
      Taken env s (.create now taskIds)
        { s with
          store,
          children := s.children ++ [{ request := q, kind := staged.kind, taskId := child.taskId }]
          spawning := some { request := q, phase := .announcing staged child } }
  | announced {q : SpawnRequest} {staged : StagedChild} {child : TaskRecord}
      (spawning : s.spawning = some ⟨q, .announcing staged child⟩) :
      Taken env s .announce (s.goTo q (.recording staged child))
  | unrecorded {q : SpawnRequest} {staged : StagedChild} {child : TaskRecord} {now : Time}
      {error : AgentError} (spawning : s.spawning = some ⟨q, .recording staged child⟩)
      (refused : s.snapshots.record env.policyDigest now child.taskId q.scope.principalId
        child.sessionHandle staged.childPolicy = .error error) :
      Taken env s (.record now) (s.goTo q (.cancelling child (.agent error)))
  | recorded {q : SpawnRequest} {staged : StagedChild} {child : TaskRecord} {now : Time}
      {snapshots : Snapshots} (spawning : s.spawning = some ⟨q, .recording staged child⟩)
      (recorded : s.snapshots.record env.policyDigest now child.taskId q.scope.principalId
        child.sessionHandle staged.childPolicy = .ok snapshots) :
      Taken env s (.record now) ({ s with snapshots }.goTo q (.linking staged child))
  | unlinked {q : SpawnRequest} {staged : StagedChild} {child : TaskRecord} {now : Time}
      {delegationId : String} {error : AgentError}
      (spawning : s.spawning = some ⟨q, .linking staged child⟩)
      (fresh : s.links.lookup delegationId = none)
      (refused : s.links.create (s.linkOf env q staged child delegationId now) = .error error) :
      Taken env s (.link delegationId now) (s.goTo q (.cancelling child (.agent error)))
  | linked {q : SpawnRequest} {staged : StagedChild} {child : TaskRecord} {now : Time}
      {delegationId : String} {link : DelegationLink} {links : Links}
      (spawning : s.spawning = some ⟨q, .linking staged child⟩)
      (fresh : s.links.lookup delegationId = none)
      (created : s.links.create (s.linkOf env q staged child delegationId now) = .ok (link, links)) :
      Taken env s (.link delegationId now) ({ s with links }.goTo q (.activating link child))
  | activated {q : SpawnRequest} {link : DelegationLink} {child : TaskRecord} {now : Time}
      {s' : Delegating} (spawning : s.spawning = some ⟨q, .activating link child⟩)
      (activated : s.activateChild now q.scope.principalId child.taskId = .ok s') :
      Taken env s (.activate now) (s'.finish link)
  | unactivated {q : SpawnRequest} {link : DelegationLink} {child : TaskRecord} {now : Time}
      {error : TaskError} (spawning : s.spawning = some ⟨q, .activating link child⟩)
      (refused : s.activateChild now q.scope.principalId child.taskId = .error error) :
      Taken env s (.activate now) (s.goTo q (.cancelling child (.task error)))
  | cancelled {q : SpawnRequest} {child : TaskRecord} {error : SpawnError} {now : Time}
      (spawning : s.spawning = some ⟨q, .cancelling child error⟩) :
      Taken env s (.cancel now) (s.cancelled env q child error now)
  | failed {frame : SpawnFrame} (spawning : s.spawning = some frame) :
      Taken env s .fail (s.failed frame)
  | crash : Taken env s .crash
      { s with serving := false, spawning := none, recovering := none, outcome := none }
  | recover (starting : s.serving = false) (idle : s.recovering = none) :
      Taken env s .recover { s with recovering := some s.listStaged }
  | recoveredNext {task : TaskRecord} {rest : List TaskRecord} {now : Time} {s' : Delegating}
      (recovering : s.recovering = some (task :: rest))
      (settled : s.recoveredNext env task rest now = .ok s') :
      Taken env s (.recoverNext now) s'
  | unrecovered {task : TaskRecord} {rest : List TaskRecord} {now : Time} {error : TaskError}
      (recovering : s.recovering = some (task :: rest))
      (refused : s.recoveredNext env task rest now = .error error) :
      Taken env s (.recoverNext now) { s with recovering := none }
  | recovered (done : s.recovering = some []) :
      Taken env s .recovered { s with recovering := none, serving := true }

section Steps

variable {env : SpawnEnv} {s s' : Delegating} {q : SpawnRequest} {act : SpawnAct}

theorem agentCall_ok_iff {α : Type} {x : Except AgentError α} {a : α} :
    agentCall x = .ok a ↔ x = .ok a := by
  cases x with
  | ok b =>
    change Except.ok b = Except.ok a ↔ _
    rw [Except.ok.injEq, Except.ok.injEq]
  | error e =>
    constructor
    · nofun
    · nofun

theorem begun_ok (h : s.begun q = .ok s') :
    ∃ kind, s.parentKind q.scope.principalId q.parentId = .ok kind ∧
      ¬(kind = .taskExecution ∧ q.mode = .join) ∧
        ((∃ link, s.links.findIdempotent (q.key kind) = some link ∧ s' = s.goTo q (.found link)) ∨
          ∃ policy, Begun s q kind policy ∧ s' = s.goTo q (.counting kind policy
            (s.links.listParent q.scope.principalId kind q.parentId) 0)) := by
  obtain ⟨kind, known, _, detached, h⟩ := of_bind₂ h
  refine ⟨kind, known, require_ok_iff.mp detached, ?_⟩
  split at h
  · rename_i link found
    cases h
    exact Or.inl ⟨link, found, rfl⟩
  · rename_i unlinked
    obtain ⟨policy, read, _, target, _, room, h⟩ := of_bind₃ h
    cases h
    exact Or.inr ⟨policy, ⟨known, require_ok_iff.mp detached, unlinked, agentCall_ok_iff.mp read,
      require_ok_iff.mp target, require_ok_iff.mp room⟩, rfl⟩

theorem prepared_ok {kind : ParentKind} {policy : ResolvedInvocationPolicy} {active : Nat}
    {ports : SpawnPorts} (h : s.prepared env q kind policy active ports = .ok s') :
    ∃ opened, createSession s.store q.scope.principalId q.targetAgentId ports.sessionHandles =
        .ok opened ∧
      ((∃ error, s' = { s with store := opened.2 }.raise error) ∨
        ∃ staged, Prepared env s q kind policy active ports staged opened.2 ∧
          s' = { s with store := opened.2 }.goTo q (.creating staged)) := by
  obtain ⟨_, checked, resolved, child, opened, session, h⟩ := of_bind₃ h
  have session := agentCall_ok_iff.mp session
  refine ⟨opened, session, ?_⟩
  split at h
  · rename_i error _
    cases h
    exact Or.inl ⟨.agent error, rfl⟩
  · rename_i shared _
    cases h
    exact Or.inr ⟨_, ⟨agentCall_ok_iff.mp checked,
      ⟨resolved, shared.toFinset, agentCall_ok_iff.mp child, rfl, rfl⟩, session, rfl, rfl, rfl⟩, rfl⟩

variable {link : DelegationLink} {child : TaskRecord} {staged : StagedChild} {now : Time}
  {taskIds : Nat → String} {principalId taskId agentId : String}

theorem inspected_ok (read : getTask s.store q.scope.principalId link.childTaskId = .ok child) :
    s.inspected q link = .ok (if child.phase = "delegation_staged" then s.goTo q (.reactivating link)
      else s.finish link) := by
  unfold Delegating.inspected
  rw [read]
  change (if child.phase = "delegation_staged" then Except.ok (s.goTo q (.reactivating link))
    else Except.ok (s.finish link)) = _
  split <;> rfl

theorem inspected_error {error : TaskError}
    (refused : getTask s.store q.scope.principalId link.childTaskId = .error error) :
    s.inspected q link = .error (.task error) := by
  unfold Delegating.inspected
  rw [refused]
  rfl

theorem createdTask_ok {born : Bool} {store : Store}
    (made : Tasks.create env.tasks now taskIds (staged.createRequest q) s.store =
      (.ok (child, born), store)) : s.createdTask env q staged now taskIds = .ok { s with
      store,
      children := s.children ++ [{ request := q, kind := staged.kind, taskId := child.taskId }]
      spawning := some { request := q, phase := .announcing staged child } } := by
  unfold Delegating.createdTask
  rw [made]

theorem createdTask_error {error : TaskError} {store : Store}
    (made : Tasks.create env.tasks now taskIds (staged.createRequest q) s.store =
      (.error error, store)) : s.createdTask env q staged now taskIds = .error (.task error) := by
  unfold Delegating.createdTask
  rw [made]

theorem advance_taken {frame : SpawnFrame} (spawning : s.spawning = some frame)
    (h : s.advance env frame act = some s') : Taken env s act s' := by
  obtain ⟨q, phase⟩ := frame
  unfold Delegating.advance at h
  dsimp only at h
  split at h
  · rename_i link
    cases h
    cases read : getTask s.store q.scope.principalId link.childTaskId with
    | error e =>
      rw [inspected_error read]
      exact .missing spawning read
    | ok child =>
      rw [inspected_ok read]
      by_cases staged : child.phase = "delegation_staged"
      · rw [if_pos staged]
        exact .staged spawning read staged
      · rw [if_neg staged]
        exact .returned spawning read staged
  · rename_i now link
    cases h
    cases activated : s.activateChild now q.scope.principalId link.childTaskId with
    | error e => exact .unreactivated spawning activated
    | ok s' => exact .reactivated spawning activated
  · rename_i kind policy link remaining active
    cases h
    cases counted : s.counts q.scope.principalId link with
    | error e => exact .uncounted spawning counted
    | ok live => exact .counted spawning counted
  · rename_i ports kind policy active
    cases h
    cases prepared : s.prepared env q kind policy active ports with
    | error e => exact .unprepared spawning prepared
    | ok s' =>
      obtain ⟨opened, session, ⟨error, rfl⟩ | ⟨staged, ready, rfl⟩⟩ := prepared_ok prepared
      · exact .unshared spawning session
      · exact .prepared spawning ready
  · rename_i now taskIds staged
    cases made : Tasks.create env.tasks now taskIds (staged.createRequest q) s.store with
    | mk result store =>
      cases result with
      | error e =>
        rw [createdTask_error made] at h
        obtain ⟨-, h⟩ := Option.ite_none_right_eq_some.mp h
        rw [← Option.some.inj h]
        exact .uncreated spawning made
      | ok result =>
        rw [createdTask_ok made] at h
        obtain ⟨apart, h⟩ := Option.ite_none_right_eq_some.mp h
        rw [← Option.some.inj h]
        exact .created spawning made apart
  · cases h
    exact .announced spawning
  · rename_i now staged child
    cases h
    unfold Delegating.recorded
    split
    · rename_i refused
      exact .unrecorded spawning refused
    · rename_i recorded
      exact .recorded spawning recorded
  · rename_i delegationId now staged child
    obtain ⟨fresh, h⟩ := Option.ite_none_right_eq_some.mp h
    have fresh := Option.isNone_iff_eq_none.mp fresh
    cases h
    unfold Delegating.linked
    split
    · rename_i refused
      exact .unlinked spawning fresh refused
    · rename_i created
      exact .linked spawning fresh created
  · rename_i now link child
    split at h
    · rename_i activated
      cases h
      exact .activated spawning activated
    · rename_i refused
      cases h
      exact .unactivated spawning refused
  · cases h
    exact .cancelled spawning
  · cases h
    exact .failed spawning
  · cases h

theorem step_taken (h : s.step env act = some s') : Taken env s act s' := by
  have advanced : s.spawning.bind (fun frame => s.advance env frame act) = some s' →
      Taken env s act s' := by
    intro h
    obtain ⟨frame, spawning, h⟩ := Option.bind_eq_some_iff.mp h
    exact advance_taken spawning h
  cases act with
  | repository op =>
    obtain ⟨store, stepped, h⟩ := Option.bind_eq_some_iff.mp h
    obtain ⟨apart, h⟩ := Option.ite_none_right_eq_some.mp h
    cases h
    exact .repository stepped apart
  | configure resolver =>
    cases h
    exact .configure
  | observe now turnId principalId sessionHandle policy =>
    obtain ⟨executes, h⟩ := Option.ite_none_right_eq_some.mp h
    split at h <;> cases h
    rename_i recorded
    exact .observe executes recorded
  | spawn q =>
    obtain ⟨⟨serving, idle⟩, h⟩ := Option.ite_none_right_eq_some.mp h
    cases h
    cases started : s.begun q with
    | error e => exact .refused serving idle started
    | ok s' =>
      obtain ⟨kind, known, detached, ⟨link, linked, rfl⟩ | ⟨policy, begun, rfl⟩⟩ := begun_ok started
      · exact .found serving idle known detached linked
      · exact .begun serving idle begun
  | crash =>
    cases h
    exact .crash
  | recover =>
    obtain ⟨⟨starting, idle⟩, h⟩ := Option.ite_none_right_eq_some.mp h
    cases h
    exact .recover starting idle
  | recoverNext now =>
    simp only [Delegating.step] at h
    split at h
    · rename_i task rest recovering
      split at h
      · rename_i settled
        cases h
        exact .recoveredNext recovering settled
      · rename_i refused
        cases h
        exact .unrecovered recovering refused
    · cases h
  | recovered =>
    obtain ⟨done, h⟩ := Option.ite_none_right_eq_some.mp h
    cases h
    exact .recovered done
  | _ => exact advanced h

theorem activateChild_ok (h : s.activateChild now principalId taskId = .ok s') :
    ∃ task store, commit (Tasks.activateStaged now principalId taskId) s.store = (.ok task, store) ∧
      s' = { s with store, activated := s.activated ++ [task.taskId] } := by
  unfold Delegating.activateChild at h
  split at h <;> cases h
  rename_i task store returned
  exact ⟨task, store, returned, rfl⟩

theorem cancelChild_ok {reason : String}
    (h : s.cancelChild env now principalId taskId reason = .ok s') :
    ∃ result store, commit (Tasks.requestCancel env.tasks now principalId taskId reason) s.store =
      (.ok result, store) ∧ s' = { s with store } := by
  unfold Delegating.cancelChild at h
  split at h <;> cases h
  rename_i result store returned
  exact ⟨result, store, returned, rfl⟩

/-- What the recovery asks before it activates a child. -/
def Complete (env : SpawnEnv) (s : Delegating) (task : TaskRecord) : Prop :=
  ∃ link policy, s.links.findForChildTask task.principalId task.taskId = some link ∧
    s.snapshots.get task.taskId = .ok policy ∧ link.invocationPolicyDigest = env.policyDigest policy

theorem recoveredNext_ok {task : TaskRecord} {rest : List TaskRecord}
    (h : s.recoveredNext env task rest now = .ok s') :
    ∃ s₁, s' = { s₁ with recovering := some rest } ∧
      ((Complete env s task ∧ s.activateChild now task.principalId task.taskId = .ok s₁) ∨
        (¬Complete env s task ∧ s.cancelChild env now task.principalId task.taskId
          "Delegation staging was incomplete during Core recovery" = .ok s₁)) := by
  unfold Delegating.recoveredNext at h
  dsimp only at h
  split at h
  · rename_i complete
    obtain ⟨present, same⟩ := complete
    obtain ⟨digest, mapped⟩ := Option.isSome_iff_exists.mp present
    rw [mapped] at same
    obtain ⟨link, found, rfl⟩ := Option.map_eq_some_iff.mp mapped
    obtain ⟨policy, read, equal⟩ := Option.map_eq_some_iff.mp same.symm
    obtain ⟨s₁, settled, h⟩ := of_bind h
    refine ⟨s₁, (Except.ok.inj h).symm, ?_⟩
    cases got : s.snapshots.get task.taskId with
    | error e =>
      rw [got] at read
      cases read
    | ok found' =>
      rw [got] at read
      cases read
      exact Or.inl ⟨⟨link, policy, found, got, equal.symm⟩, settled⟩
  · rename_i incomplete
    obtain ⟨s₁, settled, h⟩ := of_bind h
    refine ⟨s₁, (Except.ok.inj h).symm, Or.inr ⟨?_, settled⟩⟩
    rintro ⟨link, policy, found, got, equal⟩
    apply incomplete
    rw [found, got]
    exact ⟨rfl, congrArg some equal⟩

theorem createSession_attempt {store opened : Store} {scope : RuntimeScope} {handles : List String}
    (h : createSession.attempt store principalId agentId handles = .ok (scope, opened)) :
    ∃ (row : SessionRow) (sessions : Table SessionRow.sessionHandle),
      store.sessions.insert row = some sessions ∧ opened = { store with sessions } ∧
        row.principalId = strip principalId ∧ row.agentId = strip agentId ∧
          scope = ⟨strip principalId, row.sessionHandle⟩ := by
  induction handles with
  | nil => cases h
  | cons handle rest ih =>
    obtain ⟨_, -, h⟩ := of_bind h
    split at h
    · rename_i sessions inserted
      cases h
      exact ⟨_, sessions, inserted, rfl, rfl, rfl, rfl⟩
    · exact ih h

theorem createSession_ok {store opened : Store} {scope : RuntimeScope} {handles : Nat → String}
    (h : createSession store principalId agentId handles = .ok (scope, opened)) :
    ∃ (row : SessionRow) (sessions : Table SessionRow.sessionHandle),
      store.sessions.insert row = some sessions ∧ opened = { store with sessions } ∧
        row.principalId = strip principalId ∧ row.agentId = strip agentId ∧
          scope = ⟨strip principalId, row.sessionHandle⟩ := by
  obtain ⟨_, -, _, -, h⟩ := of_bind₂ h
  exact createSession_attempt h

theorem links_create_ok {links links' : Links} {found : DelegationLink}
    (h : links.create link = .ok (found, links')) :
    (found = link ∧ links.insert link = some links' ∧ ∀ other ∈ links.rows,
        other.childTaskId ≠ link.childTaskId ∧ other.key ≠ link.key) ∨
      (links' = links ∧ links.findIdempotent link.key = some found) := by
  have existing : Links.create.existing link links = .ok (found, links') →
      links' = links ∧ links.findIdempotent link.key = some found := by
    intro h
    obtain ⟨other, read, h⟩ := of_bind h
    cases h
    exact ⟨rfl, Transaction.orRaise_ok_iff.mp read⟩
  obtain ⟨_, -, h⟩ := of_bind h
  dsimp only at h
  split at h
  · rename_i inserted
    split at h
    · exact Or.inr (existing h)
    · rename_i apart
      cases h
      refine Or.inl ⟨rfl, inserted, ?_⟩
      intro other member
      simp only [List.any_eq_true, not_exists, not_and, Bool.or_eq_true, beq_iff_eq, not_or] at apart
      exact apart other member
  · exact Or.inr (existing h)

theorem mem_sortedIds {ids : Finset String} {id : String} : id ∈ sortedIds ids ↔ id ∈ ids := by
  obtain ⟨members, distinct⟩ := ids
  induction members using Quotient.inductionOn with
  | h rows => exact List.mem_insertionSort (· ≤ ·)

theorem childPolicy_ok {digest : NodeAgent → String} {resolver : NodeAgentResolver}
    {parent policy : ResolvedInvocationPolicy} {ports : SpawnPorts}
    (h : childPolicy digest resolver q parent ports = .ok policy) : Lowered policy parent ∧
      policy.limits.maxGatewayToolCalls = parent.limits.maxGatewayToolCalls := by
  obtain ⟨agent, -, limits, limited, resolved, resolves, _, -, h⟩ := of_bind₄ h
  obtain ⟨_, -, _, -, h⟩ := of_bind₂ h
  cases h
  have lowered := resolvePolicy_lowered resolves rfl
  refine ⟨⟨lowered.depth, lowered.deadline⟩, ?_⟩
  obtain ⟨_, _, -, -, -, rfl⟩ := resolvePolicy_ok resolves
  unfold spawnLimits at limited
  split at limited <;> cases limited
  exact min_self _

inductive StoreTaken (env : SpawnEnv) (store : Store) : Store → Prop
  | same : StoreTaken env store store
  | call {op : Tasks.Op} {store' : Store} (stepped : Tasks.step env.tasks store op = some store') :
      StoreTaken env store store'
  | session {row : SessionRow} {sessions : Table SessionRow.sessionHandle}
      (inserted : store.sessions.insert row = some sessions) :
      StoreTaken env store { store with sessions }

variable (env) in
theorem activateChild_store (h : s.activateChild now principalId taskId = .ok s') :
    Tasks.step env.tasks s.store (.activateStaged now principalId taskId) = some s'.store := by
  obtain ⟨task, store, returned, rfl⟩ := activateChild_ok h
  exact Tasks.step_of_outcome rfl returned

theorem cancelChild_store {reason : String}
    (h : s.cancelChild env now principalId taskId reason = .ok s') :
    Tasks.step env.tasks s.store (.requestCancel now principalId taskId reason) = some s'.store := by
  obtain ⟨task, store, returned, rfl⟩ := cancelChild_ok h
  exact Tasks.step_of_outcome rfl returned

theorem created_store {born : Bool} {store : Store}
    (made : Tasks.create env.tasks now taskIds (staged.createRequest q) s.store =
      (.ok (child, born), store)) :
    Tasks.step env.tasks s.store (.create now taskIds (staged.createRequest q)) = some store :=
  Tasks.step_of_outcome rfl made

variable (env) in
theorem createSession_store {store : Store} {opened : RuntimeScope × Store} {handles : Nat → String}
    (h : createSession store principalId agentId handles = .ok opened) :
    StoreTaken env store opened.2 := by
  obtain ⟨scope, after⟩ := opened
  obtain ⟨row, sessions, inserted, rfl, -⟩ := createSession_ok h
  exact .session inserted

theorem Taken.store (h : Taken env s act s') : StoreTaken env s.store s'.store := by
  cases h with
  | repository stepped => exact .call stepped
  | reactivated _ activated | activated _ activated =>
    have stepped := activateChild_store env activated
    exact .call stepped
  | unshared _ session => exact createSession_store env session
  | prepared _ prepared => exact createSession_store env prepared.session
  | created _ made => exact .call (created_store made)
  | @cancelled q child error now _ =>
    unfold Delegating.cancelled
    split
    · rename_i cancelled
      have stepped := cancelChild_store cancelled
      exact .call stepped
    · exact .same
  | @failed frame _ =>
    unfold Delegating.failed
    split <;> exact .same
  | recoveredNext _ settled =>
    obtain ⟨s₁, rfl, ⟨-, activated⟩ | ⟨-, cancelled⟩⟩ := recoveredNext_ok settled
    · have stepped := activateChild_store env activated
      exact .call stepped
    · have stepped := cancelChild_store cancelled
      exact .call stepped
  | _ => exact .same

theorem StoreTaken.sound {store store' : Store} (h : StoreTaken env store store')
    (sound : Sound store) : Sound store' := by
  cases h with
  | same => exact sound
  | call stepped => exact sound.kept stepped
  | session inserted =>
    exact ⟨sound.rooted, sound.numbered, sound.stepsOwned,
      ⟨sound.feed.increasing, sound.feed.bounded⟩, sound.requests⟩

theorem StoreTaken.identity {store store' : Store} (h : StoreTaken env store store')
    (sound : Sound store) {id : TaskIdentity} (member : id ∈ store.tasks.rows.map TaskRow.identity) :
    id ∈ store'.tasks.rows.map TaskRow.identity := by
  cases h with
  | same | session inserted => exact member
  | call stepped => exact (Tasks.step_refines sound.rooted stepped).journal.tasks id member

end Steps

end Knoa.Agents
