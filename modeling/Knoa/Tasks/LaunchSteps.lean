import Knoa.Tasks.AttemptEnds
import Knoa.Tasks.Launches

/-!
# The steps of the launches

`LaunchMoved` says for every await of a launch what it finds and what it writes,
`LaunchTaken` for every step of the service.
-/
namespace Knoa.Tasks
open Relational Transaction

namespace LaunchStore

def live (s : LaunchStore) (taskId : String) : Prop :=
  ∃ row ∈ s.runtime.tasks.rows, row.taskId = taskId ∧ row.state.isTerminal = false

def ended (s : LaunchStore) (taskId : String) : Prop :=
  ∃ row ∈ s.runtime.tasks.rows, row.taskId = taskId ∧ row.state.isTerminal = true

instance (s : LaunchStore) (taskId : String) : Decidable (s.live taskId) := by
  unfold live
  infer_instance

end LaunchStore

/-- What a launch that is about to link finds: the saved Task and the runtime Task, which go
together, and no link of the runtime Task. -/
structure Linking (s : LaunchStore) (launch : Launch) (listed : List String)
    (definition : TaskDefinitionRecord) (execution : TaskRecord) : Prop where
  stands : ∃ snapshot executionId, launch.phase = .linking snapshot listed executionId ∧
    getTaskDefinition s launch.request.principalId snapshot.taskId = .ok definition ∧
    getTask s.tables launch.request.principalId executionId = .ok execution ∧
    strip (launch.request.input.goal snapshot) ≠ "" ∧
    execution.agentId = launch.request.input.agentId snapshot
  unlinked : s.links.lookup execution.taskId = none

/-- The phases that go by no definition, and neither return. -/
def LaunchPhase.isFree : LaunchPhase → Bool
  | .bound .. | .preflight _ | .defining _ | .raised _ => true
  | _ => false

section Steps

/-- What the next await of a launch does. -/
inductive LaunchMoved (env : Env) (launch : Launch) (s : LaunchStore) :
    Launch → LaunchStore → Prop
  | free {phase : LaunchPhase} (free : phase.isFree = true)
      (loose : ∀ listed definition execution, ¬ Linking s launch listed definition execution) :
      LaunchMoved env launch s (launch.goTo phase) s
  | defined {taskId : String} {definition : TaskDefinitionRecord}
      (stands : launch.phase = .defining taskId)
      (found : getTaskDefinition s launch.request.principalId taskId = .ok definition) :
      LaunchMoved env launch s (launch.goTo (.listing definition)) s
  | listed {definition : TaskDefinitionRecord} (stands : launch.phase = .listing definition) :
      LaunchMoved env launch s
        (let listed := (executionMappings s definition.taskId 200).map TaskExecutionRow.executionId
        launch.goTo (Launch.readPhase definition listed false listed)) s
  | read {definition : TaskDefinitionRecord} {listed rest : List String} {executionId : String}
      {active : Bool} {execution : TaskRecord}
      (stands : launch.phase = .reading definition listed (executionId :: rest) active)
      (found : getTask s.tables launch.request.principalId executionId = .ok execution) :
      LaunchMoved env launch s
        (launch.goTo (Launch.readPhase definition listed (active || !execution.state.isTerminal) rest)) s
  | created {definition : TaskDefinitionRecord} {listed : List String} {tick : LaunchTick}
      {task : TaskRecord} {fresh : Bool} {runtime : Store}
      (stands : launch.phase = .creating definition listed)
      (made : create env tick.now tick.taskIds (launch.createRequest definition tick.token)
        s.tables = (.ok (task, fresh), runtime)) :
      LaunchMoved env launch s (launch.goTo (.linking definition listed task.taskId))
        { s with runtime }
  | linked {listed : List String} {definition : TaskDefinitionRecord} {execution : TaskRecord}
      {mapping : TaskExecutionRow} {store : LaunchStore}
      (linking : Linking s launch listed definition execution)
      (names : mapping.executionId = execution.taskId ∧ mapping.taskId = definition.taskId)
      (runtime : store.runtime = s.runtime)
      (inserted : s.links.insert mapping = some store.links) :
      LaunchMoved env launch s (launch.goTo (.returned mapping)) store
  | again {snapshot : TaskDefinitionRecord} {listed : List String} {executionId : String}
      {execution : TaskRecord} {mapping : TaskExecutionRow} {store : LaunchStore}
      (stands : launch.phase = .linking snapshot listed executionId)
      (found : getTask s.tables launch.request.principalId executionId = .ok execution)
      (known : s.links.lookup execution.taskId = some mapping)
      (runtime : store.runtime = s.runtime) (links : store.links = s.links) :
      LaunchMoved env launch s (launch.goTo (.returned mapping)) store

variable {env : Env} {tick : LaunchTick} {launch next : Launch} {s s' : LaunchStore}

theorem after_cases {α : Type} {read : Except TaskError α} {f : α → LaunchPhase} :
    (∃ a, read = .ok a ∧ launch.after read f = launch.goTo (f a)) ∨
      ∃ e, launch.after read f = launch.raise e := by
  cases read with
  | ok a => exact Or.inl ⟨a, rfl, rfl⟩
  | error e => exact Or.inr ⟨_, rfl⟩

theorem loose_of_phase (stands : ∀ definition listed executionId,
      launch.phase ≠ .linking definition listed executionId) :
    ∀ listed definition execution, ¬ Linking s launch listed definition execution := by
  rintro listed definition execution ⟨⟨snapshot, executionId, phase, -⟩, -⟩
  exact stands _ _ _ phase

theorem LaunchMoved.raise {e : LaunchError}
    (loose : ∀ listed definition execution, ¬ Linking s launch listed definition execution) :
    LaunchMoved env launch s (launch.raise e) s := .free rfl loose

theorem boundPhase_free (definition : TaskDefinitionRecord) :
    (Launch.boundPhase definition).isFree = true := by
  unfold Launch.boundPhase
  split <;> rfl

theorem preflightPhase_free (tick : LaunchTick) (taskId : String)
    (definition : TaskDefinitionRecord) :
    (Launch.preflightPhase tick taskId definition).isFree = true := by
  unfold Launch.preflightPhase
  split <;> rfl

variable {principalId taskId : String}

theorem link_ok {now : Time} {executionId : String} {input : LaunchInput}
    {snapshot : TaskDefinitionRecord} {mapping : TaskExecutionRow}
    (h : linkTaskExecution now principalId taskId executionId input snapshot s = .ok (mapping, s')) :
    ∃ definition execution, getTaskDefinition s principalId taskId = .ok definition ∧
      getTask s.tables principalId executionId = .ok execution ∧
      strip (input.goal snapshot) ≠ "" ∧ execution.agentId = input.agentId snapshot ∧
      s'.runtime = s.runtime ∧
      ((s.links.lookup execution.taskId = some mapping ∧ s'.links = s.links) ∨
        (s.links.lookup execution.taskId = none ∧ mapping.executionId = execution.taskId ∧
          mapping.taskId = definition.taskId ∧ s.links.insert mapping = some s'.links)) := by
  obtain ⟨definition, named, execution, found, _, goal, _, agent, h⟩ := of_bind₄ h
  refine ⟨definition, execution, named, found, require_ok_iff.mp goal, require_ok_iff.mp agent, ?_⟩
  split at h
  · rename_i existing known
    obtain ⟨_, -, h⟩ := of_bind h
    cases h
    exact ⟨rfl, Or.inl ⟨known, rfl⟩⟩
  · rename_i unknown
    obtain ⟨links, inserted, h⟩ := of_bind h
    cases h
    exact ⟨rfl, Or.inr ⟨unknown, rfl, rfl, orRaise_ok_iff.mp inserted⟩⟩

theorem link_of_linking {listed : List String} {definition : TaskDefinitionRecord}
    {execution : TaskRecord} (linking : Linking s launch listed definition execution) :
    ∃ snapshot executionId, launch.phase = .linking snapshot listed executionId ∧
      ∀ now, ∃ result, linkTaskExecution now launch.request.principalId snapshot.taskId executionId
        launch.request.input snapshot s = .ok result := by
  obtain ⟨⟨snapshot, executionId, phase, named, found, goal, agent⟩, unlinked⟩ := linking
  refine ⟨snapshot, executionId, phase, ?_⟩
  intro now
  unfold linkTaskExecution
  rw [named, ok_bind, found, ok_bind]
  dsimp only
  rw [require_of goal, ok_bind, require_of agent, ok_bind, unlinked]
  have free : ∃ links, s.links.insert
      { executionId := execution.taskId
        taskId := definition.taskId
        taskRevision := launch.request.input.revision snapshot
        agentIdSnapshot := launch.request.input.agentId snapshot
        launchReason := launch.request.input.reason
        goalSnapshot := strip (launch.request.input.goal snapshot)
        attachments := launch.request.input.attachments snapshot
        policySnapshot := launch.request.input.policy snapshot
        createdAt := execution.createdAt } = some links :=
    Table.insert_of_lookup_none unlinked
  obtain ⟨links, inserted⟩ := free
  rw [inserted]
  exact ⟨_, rfl⟩

theorem created_step {definition : TaskDefinitionRecord} {task : TaskRecord} {fresh : Bool}
    {runtime : Store}
    (made : create env tick.now tick.taskIds (launch.createRequest definition tick.token) s.tables =
      (.ok (task, fresh), runtime)) : Tasks.step env s.tables (.create tick.now tick.taskIds
      (launch.createRequest definition tick.token)) = some runtime :=
  step_of_outcome rfl made

theorem loose_of_known {snapshot : TaskDefinitionRecord} {listed : List String}
    {executionId : String} {execution : TaskRecord} {mapping : TaskExecutionRow}
    (stands : launch.phase = .linking snapshot listed executionId)
    (found : getTask s.tables launch.request.principalId executionId = .ok execution)
    (known : s.links.lookup execution.taskId = some mapping) :
    ∀ listed definition execution, ¬ Linking s launch listed definition execution := by
  rintro other definition execution' ⟨⟨snapshot', executionId', phase, -, found', -⟩, unlinked⟩
  rw [stands, LaunchPhase.linking.injEq] at phase
  obtain ⟨-, -, rfl⟩ := phase
  rw [found, Except.ok.injEq] at found'
  subst found'
  rw [known] at unlinked
  cases unlinked

theorem advance_moved (h : launch.advance env tick s = some (next, s')) :
    LaunchMoved env launch s next s' := by
  unfold Launch.advance at h
  dsimp only at h
  split at h
  · rename_i providerKind providerId phase
    cases h
    have loose := @loose_of_phase launch s (by simp [phase])
    rcases @after_cases launch _ (taskForLaunch s launch.request.principalId providerKind providerId)
      Launch.boundPhase with ⟨definition, -, moved⟩ | ⟨e, raised⟩
    · rw [moved]
      exact .free (boundPhase_free definition) loose
    · rw [raised]
      exact .raise loose
  · rename_i taskId phase
    have loose := @loose_of_phase launch s (by simp [phase])
    split at h
    · cases h
      exact .raise loose
    · cases h
      rcases @after_cases launch _ (getTaskDefinition s launch.request.principalId taskId)
        (Launch.preflightPhase tick taskId) with ⟨definition, -, moved⟩ | ⟨e, raised⟩
      · rw [moved]
        exact .free (preflightPhase_free tick taskId definition) loose
      · rw [raised]
        exact .raise loose
  · rename_i taskId phase
    cases h
    rcases @after_cases launch _ (getTaskDefinition s launch.request.principalId taskId)
      LaunchPhase.listing with ⟨definition, found, moved⟩ | ⟨e, raised⟩
    · rw [moved]
      exact .defined phase found
    · rw [raised]
      exact .raise (loose_of_phase (by simp [phase]))
  · rename_i definition phase
    cases h
    rcases @after_cases launch _
      (getTaskDefinition s launch.request.principalId definition.taskId) (fun _ =>
        Launch.readPhase definition
          ((executionMappings s definition.taskId 200).map TaskExecutionRow.executionId) false
          ((executionMappings s definition.taskId 200).map TaskExecutionRow.executionId))
      with ⟨_, -, moved⟩ | ⟨e, raised⟩
    · rw [moved]
      exact .listed phase
    · rw [raised]
      exact .raise (loose_of_phase (by simp [phase]))
  · cases h
  · rename_i definition listed executionId rest active phase
    cases h
    rcases @after_cases launch _ (getTask s.tables launch.request.principalId executionId)
      (fun execution =>
        Launch.readPhase definition listed (active || !execution.state.isTerminal) rest)
      with ⟨execution, found, moved⟩ | ⟨e, raised⟩
    · rw [moved]
      exact .read phase found
    · rw [raised]
      exact .raise (loose_of_phase (by simp [phase]))
  · rename_i definition listed phase
    have loose := @loose_of_phase launch s (by simp [phase])
    split at h
    · cases h
      exact .raise loose
    · split at h
      · rename_i task fresh runtime made
        cases h
        exact .created phase made
      · cases h
        exact .raise loose
  · rename_i definition listed executionId phase
    split at h
    · rename_i mapping store returned
      cases h
      obtain ⟨found, execution, named, read, goal, agent, runtime, rest⟩ :=
        link_ok (commit_ok_iff.mp returned)
      rcases rest with ⟨known, links⟩ | ⟨unknown, id, task, inserted⟩
      · exact .again phase read known runtime links
      · exact .linked ⟨⟨definition, executionId, phase, named, read, goal, agent⟩, unknown⟩ ⟨id, task⟩
          runtime inserted
    · rename_i e store raised
      cases h
      refine .raise ?_
      intro other definition' execution' linking
      obtain ⟨snapshot, id, phase', links⟩ := link_of_linking linking
      rw [phase, LaunchPhase.linking.injEq] at phase'
      obtain ⟨rfl, -, rfl⟩ := phase'
      obtain ⟨⟨mapping, s''⟩, returned⟩ := links tick.now
      rw [commit_ok_iff.mpr returned] at raised
      cases raised
  · cases h
  · cases h

inductive LaunchTaken (env : Env) (s : LaunchService) : LaunchAct → LaunchService → Prop
  | called {op : Op} {runtime : Store} (made : Tasks.step env s.store.tables op = some runtime) :
      LaunchTaken env s (.repository op) (s.withStore { s.store with runtime })
  | edited {act : LaunchAct} {store : LaunchStore} (apart : ∀ c tick, act ≠ .advance c tick)
      (runtime : store.runtime = s.store.runtime) (links : store.links = s.store.links) :
      LaunchTaken env s act (s.withStore store)
  | begun {act : LaunchAct} {request : LaunchRequest} {phase : LaunchPhase}
      (apart : ∀ c tick, act ≠ .advance c tick) (free : phase.isFree = true) :
      LaunchTaken env s act (s.begin request phase)
  | advanced {c : Nat} {tick : LaunchTick} {launch next : Launch} {store : LaunchStore}
      (found : s.launches[c]? = some launch) (moved : LaunchMoved env launch s.store next store) :
      LaunchTaken env s (.advance c tick) ((s.setLaunch c next).withStore store)
  | interrupted {c : Nat} {launch : Launch} (found : s.launches[c]? = some launch) :
      LaunchTaken env s (.interrupt c) (s.setLaunch c (launch.raise .interrupted))

theorem called_some {α : Type} {s t : LaunchService} {result : Except TaskError α × LaunchStore}
    (h : s.called result = some t) : ∃ a store, result = (.ok a, store) ∧ t = s.withStore store := by
  obtain ⟨returned, store⟩ := result
  cases returned with
  | error e => cases h
  | ok a =>
    cases h
    exact ⟨a, store, rfl, rfl⟩

theorem setTaskDefinitionState_ok {now : Time} {state : TaskDefinitionState}
    {result : TaskDefinitionRecord}
    (h : setTaskDefinitionState now principalId taskId state s = .ok (result, s')) :
    s'.runtime = s.runtime ∧ s'.links = s.links := by
  obtain ⟨current, -, h⟩ := of_bind h
  split at h
  · cases h
    exact ⟨rfl, rfl⟩
  · obtain ⟨updated, -, h⟩ := of_bind h
    cases h
    exact ⟨rfl, rfl⟩

theorem bindTaskLaunch_ok {providerKind providerId : String} {x : PUnit}
    (h : bindTaskLaunch principalId taskId providerKind providerId s = .ok (x, s')) :
    s'.runtime = s.runtime ∧ s'.links = s.links := by
  obtain ⟨definition, -, _, -, provider, -, _, -, h⟩ := of_bind₄ h
  split at h
  · cases h
    exact ⟨rfl, rfl⟩
  · obtain ⟨bindings, -, h⟩ := of_bind h
    cases h
    exact ⟨rfl, rfl⟩

theorem launch_step_taken {s t : LaunchService} {act : LaunchAct} (h : s.step env act = some t) :
    LaunchTaken env s act t := by
  cases act with
  | repository op =>
    obtain ⟨runtime, made, rfl⟩ := Option.map_eq_some_iff.mp h
    exact .called made
  | setDefinitionState now principalId taskId state =>
    obtain ⟨_, store, returned, rfl⟩ := called_some h
    obtain ⟨runtime, links⟩ := setTaskDefinitionState_ok (commit_ok_iff.mp returned)
    exact .edited (by simp) runtime links
  | bindLaunch principalId taskId providerKind providerId =>
    obtain ⟨_, store, returned, rfl⟩ := called_some h
    obtain ⟨runtime, links⟩ := bindTaskLaunch_ok (commit_ok_iff.mp returned)
    exact .edited (by simp) runtime links
  | executeDefinition request taskId | executeBoundLaunch request providerKind providerId =>
    cases h
    exact .begun (by simp) rfl
  | advance c tick =>
    obtain ⟨launch, found, h⟩ := Option.bind_eq_some_iff.mp h
    obtain ⟨⟨next, store⟩, moved, rfl⟩ := Option.map_eq_some_iff.mp h
    exact .advanced found (advance_moved moved)
  | interrupt c =>
    obtain ⟨launch, found, h⟩ := Option.bind_eq_some_iff.mp h
    obtain ⟨next, ended, rfl⟩ := Option.map_eq_some_iff.mp h
    have same : next = launch.raise .interrupted := by
      unfold Launch.interrupted at ended
      split at ended
      · cases ended
      · cases ended
      · exact (Option.some.inj ended).symm
    rw [same]
    exact .interrupted found

end Steps

section Stores

variable {env : Env} {s s' : LaunchStore}

def LaunchStore.stored (s : LaunchStore) (taskId : String) : Prop :=
  ∃ row ∈ s.runtime.tasks.rows, row.taskId = taskId

theorem not_live_of_ended {taskId : String} (h : s.ended taskId) : ¬ s.live taskId := by
  rintro ⟨row, member, key, live⟩
  obtain ⟨other, present, same, terminal⟩ := h
  rw [Table.mem_unique present member (same.trans key.symm), live] at terminal
  cases terminal

theorem live_or_ended {taskId : String} (h : s.stored taskId) : s.live taskId ∨ s.ended taskId := by
  obtain ⟨row, member, key⟩ := h
  cases terminal : row.state.isTerminal with
  | false => exact Or.inl ⟨row, member, key, terminal⟩
  | true => exact Or.inr ⟨row, member, key, terminal⟩

structure Lasts (s s' : LaunchStore) : Prop where
  stored : ∀ taskId, s.stored taskId → s'.stored taskId
  ended : ∀ taskId, s.ended taskId → s'.ended taskId

theorem Lasts.of_runtime (same : s'.runtime = s.runtime) : Lasts s s' := by
  refine ⟨?_, ?_⟩
  · intro taskId h
    unfold LaunchStore.stored
    rw [same]
    exact h
  · intro taskId h
    unfold LaunchStore.ended
    rw [same]
    exact h

theorem Lasts.live (h : Lasts s s') {taskId : String} (known : s.stored taskId)
    (live : s'.live taskId) : s.live taskId := by
  rcases live_or_ended known with before | before
  · exact before
  · exact absurd live (not_live_of_ended (h.ended taskId before))

theorem view_of_stored {taskId : String} {row : TaskRow} (member : row ∈ s.runtime.tasks.rows)
    (key : row.taskId = taskId) : ∃ v, s.tables.view taskId = some v ∧ v.row = row :=
  view_of_lookup (s := s.tables) (key ▸ Table.lookup_of_mem member)

theorem Journaled.tables (h : Journaled s.runtime) : Journaled s.tables where
  sound := ⟨h.sound.rooted, h.sound.numbered, h.sound.stepsOwned, ⟨h.sound.feed.1, h.sound.feed.2⟩,
    h.sound.requests⟩
  requests := h.requests
  named := h.named

theorem Lasts.of_step {op : Op} {runtime : Store} (h : Journaled s.runtime)
    (made : Tasks.step env s.tables op = some runtime) : Lasts s { s with runtime } := by
  have journaled := h.tables
  have found : ∀ {taskId : String} {v : TaskView}, runtime.view taskId = some v →
      v.row ∈ runtime.tasks.rows ∧ v.row.taskId = taskId := by
    intro taskId v seen
    exact ⟨view_mem seen, view_taskId seen⟩
  refine ⟨?_, ?_⟩
  · rintro taskId ⟨row, member, key⟩
    obtain ⟨v, seen, -⟩ := view_of_stored member key
    cases (step_refines journaled.sound.rooted made).changed taskId with
    | same slice => exact ⟨v.row, found ((view_of_slice slice).trans seen)⟩
    | moved before after => exact ⟨_, found after⟩
    | created absent =>
      rw [seen] at absent
      cases absent
  · rintro taskId ⟨row, member, key, terminal⟩
    obtain ⟨v, seen, rfl⟩ := view_of_stored member key
    obtain ⟨v', after, unchanged, -⟩ := terminal_kept journaled made seen terminal
    obtain ⟨present, named⟩ := found after
    exact ⟨v'.row, present, named, by rw [unchanged.row]; exact terminal⟩

end Stores

end Knoa.Tasks
