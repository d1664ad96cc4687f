import Knoa.Tasks.LaunchSteps

/-!
# One live execution of a saved Task

A launch that finds no live execution creates a Task and links it, in transactions of their own.
What was launched meanwhile may be live then.
-/
namespace Knoa.Tasks
open Relational (Table)
open Transaction (of_bind)
open Transition

def LaunchStore.OneLive (s : LaunchStore) : Prop :=
  ∀ a ∈ s.links.rows, ∀ b ∈ s.links.rows, a.taskId = b.taskId →
    s.live a.executionId → s.live b.executionId → a = b

instance (s : LaunchStore) : Decidable s.OneLive := by
  unfold LaunchStore.OneLive
  infer_instance

/-- A launch that links a Task which has not ended is alone: the executions of the saved Task
that its listing did not return have ended. -/
def LaunchAct.Alone (s : LaunchService) : LaunchAct → Prop
  | .advance c _ =>
    ∀ launch listed definition execution, s.launches[c]? = some launch →
      Linking s.store launch listed definition execution → execution.state.isTerminal = false →
      ∀ link ∈ s.store.links.rows, link.taskId = definition.taskId →
        link.executionId ∉ listed → ¬ s.store.live link.executionId
  | _ => True

def LaunchStore.Heard (s : LaunchStore) : LaunchPhase → Prop
  | .reading _ listed rest active =>
    (∀ id ∈ rest, s.stored id) ∧ ∀ id ∈ listed, id ∈ rest ∨ active = true ∨ s.ended id
  | .creating _ listed | .linking _ listed _ => ∀ id ∈ listed, s.ended id
  | _ => True

structure LaunchSound (s : LaunchService) : Prop where
  journaled : Journaled s.store.runtime
  normal : NormalTasks s.store.runtime
  linked : ∀ link ∈ s.store.links.rows, s.store.stored link.executionId
  heard : ∀ launch ∈ s.launches, s.store.Heard launch.phase

section Invariants

variable {env : Env} {s t : LaunchService} {store : LaunchStore}

theorem heard_of_free {phase : LaunchPhase} (h : phase.isFree = true) : store.Heard phase := by
  cases phase with
  | reading | creating | linking => cases h
  | _ => exact trivial

theorem LaunchStore.Heard.lasts {phase : LaunchPhase} {s s' : LaunchStore} (h : s.Heard phase)
    (lasts : Lasts s s') : s'.Heard phase := by
  cases phase with
  | reading definition listed rest active =>
    refine ⟨fun id member => lasts.stored id (h.1 id member), ?_⟩
    intro id member
    rcases h.2 id member with unread | found | ended
    · exact Or.inl unread
    · exact Or.inr (Or.inl found)
    · exact Or.inr (Or.inr (lasts.ended id ended))
  | creating definition listed | linking definition listed executionId =>
    exact fun id member => lasts.ended id (h id member)
  | _ => exact trivial

theorem heard_readPhase {definition : TaskDefinitionRecord} {listed rest : List String}
    {active : Bool} (unread : ∀ id ∈ rest, store.stored id)
    (read : ∀ id ∈ listed, id ∈ rest ∨ active = true ∨ store.ended id) :
    store.Heard (Launch.readPhase definition listed active rest) := by
  cases rest with
  | nil =>
    change store.Heard (if active then .raised .alreadyActive else .creating definition listed)
    split
    · exact trivial
    · rename_i quiet
      intro id member
      rcases read id member with unread | active | ended
      · cases unread
      · exact absurd active quiet
      · exact ended
  | cons id rest => exact ⟨unread, read⟩

variable {taskId : String}

theorem getTask_stored {principalId : String} {task : TaskRecord}
    (h : getTask store.tables principalId taskId = .ok task) :
    task ∈ store.runtime.tasks.rows ∧ task.taskId = strip taskId := by
  obtain ⟨principal, -, h⟩ := of_bind h
  obtain ⟨id, named, h⟩ := of_bind h
  have found := (ownedTask_ok_iff.mp h).1
  rw [normalizeIdentifier_ok named] at found
  exact ⟨Table.lookup_mem found, Table.lookup_key found⟩

theorem strip_of_stored (normal : NormalTasks store.runtime) (h : store.stored taskId) :
    strip taskId = taskId := by
  obtain ⟨row, member, key⟩ := h
  obtain ⟨v, seen, -⟩ := view_of_stored member key
  exact normal taskId v seen

theorem mem_executionMappings {limit : Nat} {link : TaskExecutionRow}
    (h : link ∈ executionMappings store taskId limit) : link ∈ store.links.rows :=
  (List.mem_filter.mp ((List.mem_insertionSort _).mp (List.mem_of_mem_take h))).1

theorem LaunchMoved.lasts {launch next : Launch} (journaled : Journaled s.store.runtime)
    (moved : LaunchMoved env launch s.store next store) : Lasts s.store store := by
  cases moved with
  | created stands made => exact .of_step journaled (created_step made)
  | linked linking names runtime inserted | again stands found known runtime links =>
    exact .of_runtime runtime
  | _ => exact .of_runtime rfl

theorem LaunchMoved.heard {launch next : Launch} (h : LaunchSound s) (member : launch ∈ s.launches)
    (moved : LaunchMoved env launch s.store next store) : store.Heard next.phase := by
  have lasts := moved.lasts h.journaled
  have before := h.heard launch member
  cases moved with
  | free free => exact heard_of_free free
  | defined | linked | again => exact trivial
  | listed stands =>
    refine heard_readPhase ?_ (fun id listed => Or.inl listed)
    intro id listed
    obtain ⟨link, mapped, rfl⟩ := List.mem_map.mp listed
    exact h.linked link (mem_executionMappings mapped)
  | @read definition listed rest executionId active execution stands found =>
    rw [stands] at before
    obtain ⟨unread, read⟩ := before
    obtain ⟨present, key⟩ := getTask_stored found
    rw [strip_of_stored h.normal (unread executionId List.mem_cons_self)] at key
    refine heard_readPhase (fun id later => unread id (List.mem_cons_of_mem _ later)) ?_
    intro id member
    rcases read id member with later | found_live | ended
    · rcases List.mem_cons.mp later with rfl | later
      · cases terminal : execution.state.isTerminal with
        | false => exact Or.inr (Or.inl (by simp))
        | true => exact Or.inr (Or.inr ⟨execution, present, key, terminal⟩)
      · exact Or.inl later
    · exact Or.inr (Or.inl (by simp [found_live]))
    · exact Or.inr (Or.inr ended)
  | created stands made =>
    rw [stands] at before
    exact fun id listed => lasts.ended id (before id listed)

theorem LaunchSound.kept_of (h : LaunchSound s) (journaled : Journaled store.runtime)
    (normal : NormalTasks store.runtime) (lasts : Lasts s.store store)
    (linked : ∀ link ∈ store.links.rows, link ∈ s.store.links.rows ∨ store.stored link.executionId)
    {launches : List Launch}
    (heard : ∀ launch ∈ launches, launch ∈ s.launches ∨ store.Heard launch.phase) :
    LaunchSound { store := store, launches } := by
  refine ⟨journaled, normal, ?_, ?_⟩
  · intro link member
    rcases linked link member with known | stored
    · exact lasts.stored _ (h.linked link known)
    · exact stored
  · intro launch member
    rcases heard launch member with known | heard
    · exact (h.heard launch known).lasts lasts
    · exact heard

theorem LaunchSound.called (h : LaunchSound s) {op : Op} {runtime : Store}
    (made : Tasks.step env s.store.tables op = some runtime) :
    Journaled runtime ∧ NormalTasks runtime := by
  have journaled := h.journaled.tables
  exact ⟨journaled.kept made, (step_refines journaled.sound.rooted made).normalTasks h.normal⟩

theorem launch_step_sound {act : LaunchAct} (h : LaunchSound s) (taken : LaunchTaken env s act t) :
    LaunchSound t := by
  have set : ∀ (store : LaunchStore) (c : Nat) (next : Launch), store.Heard next.phase →
      ∀ launch ∈ s.launches.set c next, launch ∈ s.launches ∨ store.Heard launch.phase := by
    intro store c next heard launch member
    rcases List.mem_or_eq_of_mem_set member with known | rfl
    · exact Or.inl known
    · exact Or.inr heard
  cases taken with
  | called made =>
    obtain ⟨journaled, normal⟩ := h.called made
    exact h.kept_of journaled normal (.of_step h.journaled made) (fun _ => Or.inl) (fun _ => Or.inl)
  | edited apart runtime links =>
    exact h.kept_of (runtime ▸ h.journaled) (runtime ▸ h.normal) (.of_runtime runtime)
      (fun link member => Or.inl (links ▸ member)) (fun _ => Or.inl)
  | begun apart free =>
    refine h.kept_of h.journaled h.normal (.of_runtime rfl) (fun _ => Or.inl) ?_
    intro launch member
    rcases List.mem_concat.mp member with known | new
    · exact Or.inl known
    · rw [new]
      exact Or.inr (heard_of_free free)
  | @advanced c tick launch next store found moved =>
    have lasts := moved.lasts h.journaled
    have heard := set store c next (moved.heard h (List.mem_of_getElem? found))
    cases moved with
    | created stands made =>
      obtain ⟨journaled, normal⟩ := h.called (created_step made)
      exact h.kept_of journaled normal lasts (fun _ => Or.inl) heard
    | @linked _ definition execution mapping _ linking names runtime inserted =>
      refine h.kept_of (runtime ▸ h.journaled) (runtime ▸ h.normal) lasts ?_ heard
      intro link member
      rw [Table.insert_rows inserted] at member
      rcases List.mem_concat.mp member with known | new
      · exact Or.inl known
      · obtain ⟨⟨snapshot, executionId, -, -, read, -⟩, -⟩ := linking
        rw [new, names.1]
        exact Or.inr (lasts.stored _ ⟨execution, (getTask_stored read).1, rfl⟩)
    | again stands found known runtime links =>
      exact h.kept_of (runtime ▸ h.journaled) (runtime ▸ h.normal) lasts
        (fun link member => Or.inl (links ▸ member)) heard
    | _ => exact h.kept_of h.journaled h.normal lasts (fun _ => Or.inl) heard
  | interrupted =>
    exact h.kept_of h.journaled h.normal (.of_runtime rfl) (fun _ => Or.inl)
      (set s.store _ _ trivial)

end Invariants

section Exactness

variable {env : Env} {s t : LaunchService} {store : LaunchStore}

theorem OneLive.kept (one : s.store.OneLive) (h : LaunchSound s) (lasts : Lasts s.store store)
    (links : store.links = s.store.links) : store.OneLive := by
  intro a left b right same live live'
  rw [links] at left right
  exact one a left b right same (lasts.live (h.linked a left) live)
    (lasts.live (h.linked b right) live')

theorem Linking.unique {launch : Launch} {listed listed' : List String}
    {definition definition' : TaskDefinitionRecord} {execution execution' : TaskRecord}
    (h : Linking store launch listed definition execution)
    (h' : Linking store launch listed' definition' execution') :
    listed' = listed ∧ definition' = definition ∧ execution' = execution := by
  obtain ⟨⟨snapshot, id, phase, named, read, -⟩, -⟩ := h
  obtain ⟨⟨snapshot', id', phase', named', read', -⟩, -⟩ := h'
  rw [phase, LaunchPhase.linking.injEq] at phase'
  obtain ⟨rfl, rfl, rfl⟩ := phase'
  rw [named, Except.ok.injEq] at named'
  rw [read, Except.ok.injEq] at read'
  exact ⟨rfl, named'.symm, read'.symm⟩

theorem live_of_runtime (same : store.runtime = s.store.runtime) (taskId : String) :
    store.live taskId ↔ s.store.live taskId := by
  unfold LaunchStore.live
  rw [same]

theorem linked_exact {c : Nat} {tick : LaunchTick} {launch : Launch} {listed : List String}
    {definition : TaskDefinitionRecord} {execution : TaskRecord} {mapping : TaskExecutionRow}
    (h : LaunchSound s) (one : s.store.OneLive) (found : s.launches[c]? = some launch)
    (linking : Linking s.store launch listed definition execution)
    (names : mapping.executionId = execution.taskId ∧ mapping.taskId = definition.taskId)
    (runtime : store.runtime = s.store.runtime)
    (inserted : s.store.links.insert mapping = some store.links) :
    store.OneLive ↔ (LaunchAct.advance c tick).Alone s := by
  have rows := Table.insert_rows inserted
  obtain ⟨⟨snapshot, executionId, phase, -, read, -⟩, -⟩ := id linking
  have present := (getTask_stored read).1
  have heard : ∀ id ∈ listed, s.store.ended id := by
    have before := h.heard launch (List.mem_of_getElem? found)
    rw [phase] at before
    exact before
  constructor
  · intro alone launch' listed' definition' execution' found' linking' live link member of unlisted
      live'
    rw [found, Option.some.injEq] at found'
    subst found'
    obtain ⟨rfl, rfl, rfl⟩ := linking.unique linking'
    have same : link = mapping := by
      apply alone
      · rw [rows]
        exact List.mem_append_left _ member
      · rw [rows]
        exact List.mem_concat_self
      · rw [of, names.2]
      · exact (live_of_runtime runtime _).mpr live'
      · rw [live_of_runtime runtime, names.1]
        exact ⟨execution', present, rfl, live⟩
    have fresh := Table.lookup_eq_none_iff.mp linking.unlinked
    rw [← names.1, ← same] at fresh
    exact fresh (List.mem_map_of_mem member)
  · intro alone
    -- beside the new link, of the executions that have not ended, there is none
    have beside : ∀ link ∈ s.store.links.rows, link.taskId = mapping.taskId →
        store.live mapping.executionId → ¬ store.live link.executionId := by
      intro link member of live live'
      rw [live_of_runtime runtime] at live live'
      rw [names.1] at live
      obtain ⟨row, known, key, running⟩ := live
      obtain rfl := Table.mem_unique known present key
      by_cases among : link.executionId ∈ listed
      · exact not_live_of_ended (heard _ among) live'
      · exact alone launch listed definition row found linking running link member
          (of.trans names.2) among live'
    intro a left b right same live live'
    rw [rows] at left right
    rcases List.mem_append.mp left with old | new
    · rcases List.mem_append.mp right with old' | new'
      · exact one a old b old' same ((live_of_runtime runtime _).mp live)
          ((live_of_runtime runtime _).mp live')
      · obtain rfl := List.mem_singleton.mp new'
        exact absurd live (beside a old same live')
    · obtain rfl := List.mem_singleton.mp new
      rcases List.mem_append.mp right with old' | new'
      · exact absurd live' (beside b old' same.symm live)
      · exact (List.mem_singleton.mp new').symm

theorem alone_of_apart {act : LaunchAct} (apart : ∀ c tick, act ≠ .advance c tick) :
    act.Alone s := by
  cases act with
  | advance c tick => exact absurd rfl (apart c tick)
  | _ => exact trivial

theorem launch_step_exact {act : LaunchAct} (h : LaunchSound s) (one : s.store.OneLive)
    (taken : LaunchTaken env s act t) : t.store.OneLive ↔ act.Alone s := by
  cases taken with
  | called made =>
    exact ⟨fun _ => trivial, fun _ => OneLive.kept one h (.of_step h.journaled made) rfl⟩
  | edited apart runtime links =>
    exact ⟨fun _ => alone_of_apart apart, fun _ => OneLive.kept one h (.of_runtime runtime) links⟩
  | begun apart => exact ⟨fun _ => alone_of_apart apart, fun _ => one⟩
  | interrupted => exact ⟨fun _ => trivial, fun _ => one⟩
  | @advanced c tick launch next store found moved =>
    have lasts := moved.lasts h.journaled
    have loose : (∀ listed definition execution,
        ¬ Linking s.store launch listed definition execution) →
        (LaunchAct.advance c tick).Alone s := by
      intro none launch' listed definition execution found' linking
      rw [found, Option.some.injEq] at found'
      subst found'
      exact absurd linking (none listed definition execution)
    cases moved with
    | free free none => exact ⟨fun _ => loose none, fun _ => one⟩
    | defined stands | read stands | listed stands =>
      exact ⟨fun _ => loose (loose_of_phase (by simp [stands])), fun _ => one⟩
    | created stands made =>
      exact ⟨fun _ => loose (loose_of_phase (by simp [stands])),
        fun _ => OneLive.kept one h lasts rfl⟩
    | linked linking names runtime inserted =>
      exact linked_exact h one found linking names runtime inserted
    | again stands found known runtime links =>
      exact ⟨fun _ => loose (loose_of_known stands found known),
        fun _ => OneLive.kept one h lasts links⟩

end Exactness

theorem initial_launchSound (sessions : Table SessionRow.sessionHandle)
    (saved : Table TaskDefinitionRow.taskId) (bindings : Table LaunchBindingRow.key) :
    LaunchSound (.initial sessions saved bindings) where
  journaled := initial_journaled sessions .empty .empty
  normal _ _ seen := by cases seen
  linked _ member := by cases member
  heard _ member := by cases member

theorem one_live_execution (env : Env) (sessions : Table SessionRow.sessionHandle)
    (saved : Table TaskDefinitionRow.taskId) (bindings : Table LaunchBindingRow.key)
    (acts : List LaunchAct) :
    (∀ s ∈ trace (LaunchService.step env) (.initial sessions saved bindings) acts,
        s.store.OneLive) ↔
      ∀ taken ∈ accepted (LaunchService.step env) (.initial sessions saved bindings) acts,
        taken.2.Alone taken.1 := by
  have kept : ∀ s act t, LaunchSound s → LaunchService.step env s act = some t → LaunchSound t :=
    fun _ _ _ h stepped => launch_step_sound h (launch_step_taken stepped)
  have exactly : ∀ s act t, True → LaunchSound s → s.store.OneLive →
      LaunchService.step env s act = some t → (t.store.OneLive ↔ act.Alone s) :=
    fun _ _ _ _ h one stepped => launch_step_exact h one (launch_step_taken stepped)
  have start : (LaunchService.initial sessions saved bindings).store.OneLive := by
    intro a member
    cases member
  exact trace_safe_iff kept exactly (initial_launchSound sessions saved bindings) start
    (fun _ _ => trivial)

section Sample

def sampleDefinition : TaskDefinitionRow where
  taskId := "d"
  principalId := "p"
  sessionHandle := "s"
  agentId := "a"
  title := "title"
  goal := "goal"
  attachments := []
  toolsEnabled := true
  priority := 0
  launchPolicy := .emptyObject
  notificationPolicy := []
  state := .active
  revision := 1
  latestExecutionId := none
  updatedAt := 0

/-- A service with one saved Task. -/
def sampleLaunches : LaunchService := .initial sampleSessions (.single sampleDefinition) .empty

def sampleTick (taskId : String) : LaunchTick where
  now := 0
  taskIds := fun _ => taskId
  token := ""
  ready := true

def sampleExecute (clientRequestId : String) : LaunchAct :=
  .executeDefinition { principalId := "p", clientRequestId, input := .execute .manual none "" } "d"

/-- Two launches list before either links. -/
def concurrentLaunches : List LaunchAct :=
  [sampleExecute "r", sampleExecute "q"] ++ List.replicate 3 (.advance 0 (sampleTick "t")) ++
    List.replicate 5 (.advance 1 (sampleTick "u")) ++
    List.replicate 2 (.advance 0 (sampleTick "t"))

theorem concurrent_launches_link :
    ¬ ∀ s ∈ trace (LaunchService.step sampleEnv) sampleLaunches concurrentLaunches,
      s.store.OneLive := by
  intro along
  have last := along _ (Transition.mem_trace_final _ _)
  revert last
  decide +kernel

end Sample

end Knoa.Tasks
