import Knoa.Agents.SpawnSteps
import Knoa.Tasks.StagedChildren

/-!
# What a recovery settles

Wherever a spawn is cut off, its child waits on record until the recovery activates it
under its link and its snapshot, or cancels it.
-/
namespace Knoa.Agents
open Knoa.Tasks Relational Transaction

def SpawnRequest.requestId (q : SpawnRequest) : String :=
  "delegation:" ++ q.parentId ++ ":" ++ q.idempotencyKey

/-- Other calls leave the waiting children alone, and the request under way. -/
def Undisturbed (s : Delegating) (act : SpawnAct) : Prop :=
  match act with
  | .repository op =>
    (∀ child ∈ s.children, child.taskId ∉ s.activated → ¬ op.steers child.taskId) ∧
      match s.spawning with
      | some ⟨q, .creating staged⟩ => ¬ op.creates staged.scope.sessionHandle q.requestId
      | _ => True
  | _ => True

instance (s : Delegating) (act : SpawnAct) : Decidable (Undisturbed s act) := by
  apply act.casesOn (motive := fun act => Decidable (Undisturbed s act)) <;> intros <;>
    dsimp only [Undisturbed] <;> try infer_instance
  refine @instDecidableAnd _ _ inferInstance ?_
  rcases s.spawning with _ | ⟨_, phase⟩
  · infer_instance
  · cases phase <;> infer_instance

def Linked (env : SpawnEnv) (s : Delegating) (child : SpawnedChild) : Prop :=
  ∃ link ∈ s.links.rows, link.childTaskId = child.taskId ∧ link.key = child.key ∧
    ∃ policy, s.snapshots.get child.taskId = .ok policy ∧
      link.invocationPolicyDigest = env.policyDigest policy

def Settled (env : SpawnEnv) (s : Delegating) (child : SpawnedChild) : Prop :=
  (Linked env s child ∧ child.taskId ∈ s.activated) ∨
    ∃ task ∈ s.store.tasks.rows, task.taskId = child.taskId ∧ task.state = .cancelled

structure OnRecord (s : Delegating) (child : SpawnedChild) : Prop where
  trimmed : strip child.taskId = child.taskId
  sized : child.taskId ≠ "" ∧ child.taskId.length ≤ 128
  view : ∃ v, s.store.view child.taskId = some v ∧
    v.row.principalId = child.request.scope.principalId ∧
      (child.taskId ∉ s.activated → Waits v ∨ v.row.state = .cancelled)

def SnapshotsOwned (s : Delegating) : Prop :=
  ∀ row ∈ s.snapshots.rows, (∃ turn ∈ s.turns, turn.2 = row.turnId) ∨
    ∃ v, s.store.view row.turnId = some v

/-- The tables of the delegation, whatever the spawn is doing. -/
structure Settling (env : SpawnEnv) (s : Delegating) : Prop where
  sound : Sound s.store
  housed : Housed s.store
  apart : s.Apart s.store
  distinct : (s.children.map SpawnedChild.taskId).Nodup
  children : ∀ child ∈ s.children, OnRecord s child
  activated : ∀ id ∈ s.activated, ∃ v, s.store.view id = some v
  linked : ∀ child ∈ s.children, child.taskId ∈ s.activated → Linked env s child
  links : ∀ link ∈ s.links.rows, ∃ child ∈ s.children, child.taskId = link.childTaskId ∧
    child.key = link.key ∧ Linked env s child
  snapshots : SnapshotsOwned s

/-- The child of the spawn under way is in neither table yet. -/
structure InFlight (s : Delegating) (q : SpawnRequest) (kind : ParentKind) (taskId : String) :
    Prop where
  unlinked : s.links.findIdempotent (q.key kind) = none
  created : ∃ child ∈ s.children, child.request = q ∧ child.kind = kind ∧ child.taskId = taskId
  waits : taskId ∉ s.activated

def FrameOrderly (s : Delegating) (q : SpawnRequest) : SpawnPhase → Prop
  | .found link | .reactivating link => link ∈ s.links.rows
  | .counting kind _ _ _ => s.links.findIdempotent (q.key kind) = none
  | .creating staged => s.links.findIdempotent (q.key staged.kind) = none ∧
      staged.scope.principalId = q.scope.principalId ∧
        Unrequested s.store staged.scope.sessionHandle q.requestId
  | .announcing staged child | .recording staged child =>
    InFlight s q staged.kind child.taskId ∧ s.snapshots.lookup child.taskId = none
  | .linking staged child => InFlight s q staged.kind child.taskId ∧
      s.snapshots.get child.taskId = .ok staged.childPolicy
  | .activating link child => link ∈ s.links.rows ∧ link.childTaskId = child.taskId
  | .cancelling _ _ => True

/-- A recovery under way still has every waiting child before it. -/
def Pending (s : Delegating) (tasks : List TaskRecord) : Prop :=
  ∀ child ∈ s.children, child.taskId ∉ s.activated →
    (∃ v, s.store.view child.taskId = some v ∧ v.row.state = .cancelled) ∨
      ∃ task ∈ tasks, task.taskId = child.taskId ∧
        task.principalId = child.request.scope.principalId

structure Orderly (env : SpawnEnv) (s : Delegating) : Prop where
  settling : Settling env s
  frame : ∀ q phase, s.spawning = some ⟨q, phase⟩ → FrameOrderly s q phase
  pending : ∀ tasks, s.recovering = some tasks → Pending s tasks
  starting : s.serving = false → s.spawning = none
  recovers : ∀ tasks, s.recovering = some tasks → s.serving = false

section Calls

variable {env : SpawnEnv} {s s' : Delegating} {op : Tasks.Op} {store : Store}

theorem OnRecord.wrote {child : SpawnedChild} {activated : List String} (h : OnRecord s child)
    (sound : Sound s.store) (stepped : Tasks.step env.tasks s.store op = some store)
    (grows : ∀ id ∈ s.activated, id ∈ activated)
    (quiet : child.taskId ∉ activated → ¬ op.steers child.taskId) :
    OnRecord { s with store, activated } child := by
  obtain ⟨v, seen, owner, waits⟩ := h.view
  obtain ⟨v', seen', same | move⟩ := Tasks.view_persists sound stepped seen
  · subst same
    exact ⟨h.trimmed, h.sized, v', seen', owner, fun still => waits (fun old => still (grows _ old))⟩
  · refine ⟨h.trimmed, h.sized, v', seen', (Tasks.identity_principal move.identity).trans owner, ?_⟩
    intro still
    rcases waits (fun old => still (grows _ old)) with waiting | cancelled
    · have apart : ¬ op.steers v.row.taskId := by
        rw [view_taskId seen]
        exact quiet still
      exact (move.waits waiting apart).imp_right And.left
    · have ended : v.row.state.isTerminal = true := by
        rw [cancelled]
        rfl
      exact Or.inr ((congrArg TaskRow.state (move.of_terminal ended).1).trans cancelled)

theorem Settling.wrote {activated : List String} (h : Settling env s)
    (stepped : Tasks.step env.tasks s.store op = some store) (apart : s.Apart store)
    (grows : ∀ id ∈ s.activated, id ∈ activated)
    (quiet : ∀ child ∈ s.children, child.taskId ∉ activated → ¬ op.steers child.taskId)
    (viewed : ∀ id ∈ activated, ∃ v, store.view id = some v)
    (complete : ∀ child ∈ s.children, child.taskId ∈ activated → Linked env s child) :
    Settling env { s with store, activated } where
  sound := h.sound.kept stepped
  housed := Tasks.step_housed h.sound stepped h.housed
  apart := apart
  distinct := h.distinct
  children child member := (h.children child member).wrote h.sound stepped grows (quiet child member)
  activated := viewed
  linked := complete
  links := h.links
  snapshots row member := by
    refine (h.snapshots row member).imp_right ?_
    rintro ⟨v, seen⟩
    obtain ⟨v', seen', -⟩ := Tasks.view_persists h.sound stepped seen
    exact ⟨v', seen'⟩

theorem Settling.undisturbed (h : Settling env s)
    (stepped : Tasks.step env.tasks s.store op = some store) (apart : s.Apart store)
    (quiet : ∀ child ∈ s.children, child.taskId ∉ s.activated → ¬ op.steers child.taskId) :
    Settling env { s with store } := by
  refine h.wrote stepped apart (fun _ member => member) quiet ?_ h.linked
  intro id member
  obtain ⟨v, seen⟩ := h.activated id member
  obtain ⟨v', seen', -⟩ := Tasks.view_persists h.sound stepped seen
  exact ⟨v', seen'⟩

end Calls

section Tables

variable {env : SpawnEnv} {s s' : Delegating} {child : SpawnedChild}

theorem Linked.mono (h : Linked env s child) (links : ∀ link ∈ s.links.rows, link ∈ s'.links.rows)
    (snapshots : ∀ id policy, s.snapshots.get id = .ok policy → s'.snapshots.get id = .ok policy) :
    Linked env s' child := by
  obtain ⟨link, member, names, key, policy, read, digest⟩ := h
  exact ⟨link, links link member, names, key, policy, snapshots _ _ read, digest⟩

theorem Settling.of_tables (h : Settling env s) (store : s'.store = s.store)
    (snapshots : s'.snapshots = s.snapshots) (links : s'.links = s.links)
    (turns : s'.turns = s.turns) (children : s'.children = s.children)
    (activated : s'.activated = s.activated) : Settling env s' := by
  cases s
  cases s'
  subst store snapshots links turns children activated
  refine ⟨h.sound, h.housed, h.apart, h.distinct, ?_, h.activated, h.linked, h.links, h.snapshots⟩
  intro child member
  have recorded := h.children child member
  exact ⟨recorded.trimmed, recorded.sized, recorded.view⟩

variable {now : Time} {principalId : String}

theorem Settling.record (h : Settling env s) {turnId sessionHandle : String}
    {policy : ResolvedInvocationPolicy} {snapshots : Snapshots}
    (recorded : s.snapshots.record env.policyDigest now turnId principalId sessionHandle policy =
      .ok snapshots)
    (owner : (∃ turn ∈ s.turns, turn.2 = turnId) ∨ ∃ v, s.store.view turnId = some v) :
    Settling env { s with snapshots } := by
  have keeps : ∀ {child}, Linked env s child → Linked env { s with snapshots } child :=
    fun linked => linked.mono (fun _ member => member)
      (fun _ _ read => Snapshots.get_keeps recorded read)
  refine ⟨h.sound, h.housed, h.apart, h.distinct, ?_, h.activated, ?_, ?_, ?_⟩
  · intro child member
    have old := h.children child member
    exact ⟨old.trimmed, old.sized, old.view⟩
  · intro child member active
    exact keeps (h.linked child member active)
  · intro link member
    obtain ⟨child, present, names, key, linked⟩ := h.links link member
    exact ⟨child, present, names, key, keeps linked⟩
  · intro row member
    rcases Snapshots.record_ok recorded with same | ⟨added, names, -, inserted⟩
    · subst same
      exact h.snapshots row member
    · rw [Table.insert_rows inserted] at member
      rcases List.mem_concat.mp member with old | new
      · exact h.snapshots row old
      · rw [new, names]
        exact owner

theorem Settling.link (h : Settling env s) {link : DelegationLink} {links : Links}
    {policy : ResolvedInvocationPolicy} (inserted : s.links.insert link = some links)
    (member : child ∈ s.children) (names : link.childTaskId = child.taskId)
    (key : link.key = child.key) (read : s.snapshots.get child.taskId = .ok policy)
    (digest : link.invocationPolicyDigest = env.policyDigest policy) :
    Settling env { s with links } := by
  have rows := Table.insert_rows inserted
  have keeps : ∀ {child}, Linked env s child → Linked env { s with links } child := by
    intro child linked
    refine linked.mono ?_ (fun _ _ read => read)
    intro other present
    rw [rows]
    exact List.mem_append_left _ present
  refine ⟨h.sound, h.housed, h.apart, h.distinct, ?_, h.activated, ?_, ?_, h.snapshots⟩
  · intro child member
    have old := h.children child member
    exact ⟨old.trimmed, old.sized, old.view⟩
  · intro child member active
    exact keeps (h.linked child member active)
  · intro other present
    have listed := present
    rw [rows] at present
    rcases List.mem_concat.mp present with old | rfl
    · obtain ⟨owner, present, names, key, linked⟩ := h.links other old
      exact ⟨owner, present, names, key, keeps linked⟩
    · exact ⟨child, member, names.symm, key.symm, other, listed, names, key, policy, read, digest⟩

theorem Settling.session (h : Settling env s) {row : SessionRow}
    {sessions : Table SessionRow.sessionHandle}
    (inserted : s.store.sessions.insert row = some sessions) :
    Settling env { s with store := { s.store with sessions } } := by
  have opened : StoreTaken env s.store { s.store with sessions } := .session inserted
  refine ⟨opened.sound h.sound, ?_, h.apart, h.distinct, ?_, h.activated, h.linked, h.links,
    h.snapshots⟩
  · intro id member
    rw [Table.lookup_insert inserted]
    split
    · rfl
    · exact h.housed id member
  · intro child member
    have old := h.children child member
    exact ⟨old.trimmed, old.sized, old.view⟩

theorem apart_of_identities {store : Store} (apart : s.Apart s.store)
    (same : store.tasks.rows.map TaskRow.identity = s.store.tasks.rows.map TaskRow.identity) :
    s.Apart store := by
  intro row member turn listed
  have known := List.mem_map_of_mem (f := TaskRow.identity) member
  rw [same] at known
  obtain ⟨old, present, equal⟩ := List.mem_map.mp known
  rw [show row.taskId = old.taskId from (congrArg TaskIdentity.taskId equal).symm]
  exact apart old present turn listed

theorem cancelChild_apart {taskId reason : String} (sound : Sound s.store) (apart : s.Apart s.store)
    (h : s.cancelChild env now principalId taskId reason = .ok s') : s.Apart s'.store :=
  apart_of_identities apart (Tasks.step_identities sound (cancelChild_store h)
    (fun _ _ _ same => by cases same))

theorem Settling.cancel (h : Settling env s) {taskId reason : String}
    (cancelled : s.cancelChild env now principalId taskId reason = .ok s') : Settling env s' := by
  have stepped := cancelChild_store cancelled
  have apart := cancelChild_apart h.sound h.apart cancelled
  obtain ⟨result, store, -, rfl⟩ := cancelChild_ok cancelled
  exact h.undisturbed stepped apart (fun _ _ _ steers => steers)

theorem Settling.activate (h : Settling env s) (member : child ∈ s.children)
    (linked : Linked env s child)
    (activated : s.activateChild now principalId child.taskId = .ok s') :
    Settling env s' ∧ s'.activated = s.activated ++ [child.taskId] := by
  have stepped := activateChild_store env activated
  obtain ⟨task, store, returned, rfl⟩ := activateChild_ok activated
  have recorded := h.children child member
  obtain ⟨names, -, v, seen, -⟩ := Tasks.activateStaged_ok (commit_ok_iff.mp returned)
    recorded.trimmed
  rw [names]
  refine ⟨h.wrote stepped ?_ (fun _ old => List.mem_append_left _ old) ?_ ?_ ?_, rfl⟩
  · exact apart_of_identities h.apart (Tasks.step_identities h.sound stepped
      (fun _ _ _ same => by cases same))
  · intro other _ idle steers
    apply idle
    rw [← recorded.trimmed, show strip child.taskId = other.taskId from steers]
    exact List.mem_concat_self
  · intro id active
    rcases List.mem_concat.mp active with old | new
    · obtain ⟨w, before⟩ := h.activated id old
      obtain ⟨w', after, -⟩ := Tasks.view_persists h.sound stepped before
      exact ⟨w', after⟩
    · rw [new]
      exact ⟨v, seen⟩
  · intro other present active
    rcases List.mem_concat.mp active with old | new
    · exact h.linked other present old
    · have same : other = child := List.inj_on_of_nodup_map h.distinct present member
        new
      rw [same]
      exact linked

theorem Settling.create (h : Settling env s) {q : SpawnRequest} {staged : StagedChild}
    {taskIds : Nat → String} {task : TaskRecord} {born : Bool} {store : Store}
    (made : Tasks.create env.tasks now taskIds (staged.createRequest q) s.store =
      (.ok (task, born), store))
    (owner : staged.scope.principalId = q.scope.principalId)
    (unrequested : Unrequested s.store staged.scope.sessionHandle q.requestId)
    (apart : s.Apart store) : (s.store.view task.taskId = none ∧ strip task.taskId = task.taskId) ∧
      Settling env { s with
        store,
        children := s.children ++ [{ request := q, kind := staged.kind, taskId := task.taskId }] } := by
  have stepped := created_store made
  obtain ⟨absent, trimmed, queued, phase, principal, v, seen, row⟩ :=
    Tasks.create_born made unrequested
  have kept : Settling env { s with store } :=
    h.undisturbed stepped apart (fun _ _ _ steers => steers)
  have unseen : ∀ {id}, (∃ w, s.store.view id = some w) → id ≠ task.taskId := by
    rintro id ⟨w, before⟩ rfl
    rw [absent] at before
    cases before
  have known : ∀ {other}, other ∈ s.children → other.taskId ≠ task.taskId := by
    intro other member
    obtain ⟨w, before, -⟩ := (h.children other member).view
    exact unseen ⟨w, before⟩
  refine ⟨⟨absent, trimmed.1⟩, kept.sound, kept.housed, kept.apart, ?_, ?_, kept.activated, ?_, ?_,
    kept.snapshots⟩
  · rw [List.map_append, List.map_singleton, ← List.concat_eq_append, List.nodup_concat]
    refine ⟨?_, h.distinct⟩
    intro member
    obtain ⟨other, present, same⟩ := List.mem_map.mp member
    exact known present same
  · intro child member
    rcases List.mem_concat.mp member with old | rfl
    · have recorded := kept.children child old
      exact ⟨recorded.trimmed, recorded.sized, recorded.view⟩
    · have literal : strip "delegation_staged" = "delegation_staged" := by decide
      refine ⟨trimmed.1, trimmed.2, v, seen, ?_, ?_⟩
      · rw [row]
        exact principal.trans owner
      · intro _
        refine Or.inl ⟨(congrArg TaskRow.state row).trans queued, ?_⟩
        rw [row]
        exact phase.trans literal
  · intro child member active
    rcases List.mem_concat.mp member with old | rfl
    · exact kept.linked child old active
    · exact absurd rfl (unseen (h.activated _ active))
  · intro link member
    obtain ⟨child, present, names, key, linked⟩ := kept.links link member
    exact ⟨child, List.mem_append_left _ present, names, key, linked⟩

theorem Settling.child_of_link (h : Settling env s) {link : DelegationLink}
    (member : link ∈ s.links.rows) :
    ∃ child ∈ s.children, link.childTaskId = child.taskId ∧ Linked env s child := by
  obtain ⟨child, present, names, -, linked⟩ := h.links link member
  exact ⟨child, present, names.symm, linked⟩

theorem Complete.link {task : TaskRecord} (h : Complete env s task) :
    ∃ link ∈ s.links.rows, link.childTaskId = task.taskId := by
  obtain ⟨link, policy, found, -⟩ := h
  refine ⟨link, List.mem_of_find?_eq_some found, ?_⟩
  have matched := List.find?_some found
  simp only [Bool.and_eq_true, beq_iff_eq] at matched
  exact matched.2

end Tables

/-- The acts of the spawn under way and of its caller. -/
def SpawnAct.own (act : SpawnAct) : Prop :=
  match act with
  | .repository _ | .configure _ | .observe .. | .crash | .recover | .recoverNext _ | .recovered =>
    False
  | _ => True

section Steps

variable {env : SpawnEnv} {s s' : Delegating} {q : SpawnRequest} {phase : SpawnPhase}
  {act : SpawnAct}

theorem Taken.own (h : Taken env s act s') (own : act.own) :
    (s.serving = true ∨ ∃ frame, s.spawning = some frame) ∧ s'.serving = s.serving ∧
      s'.recovering = s.recovering := by
  cases h with
  | repository | configure | observe | crash | recover | recoveredNext | unrecovered | recovered =>
    exact own.elim
  | refused serving | found serving | begun serving => exact ⟨Or.inl serving, rfl, rfl⟩
  | reactivated spawning activated | activated spawning activated =>
    obtain ⟨task, store, -, rfl⟩ := activateChild_ok activated
    exact ⟨Or.inr ⟨_, spawning⟩, rfl, rfl⟩
  | cancelled spawning =>
    refine ⟨Or.inr ⟨_, spawning⟩, ?_⟩
    unfold Delegating.cancelled
    split
    · rename_i cancelled
      obtain ⟨result, store, -, rfl⟩ := cancelChild_ok cancelled
      exact ⟨rfl, rfl⟩
    · exact ⟨rfl, rfl⟩
  | failed spawning =>
    refine ⟨Or.inr ⟨_, spawning⟩, ?_⟩
    unfold Delegating.failed
    split <;> exact ⟨rfl, rfl⟩
  | missing spawning | staged spawning | returned spawning | unreactivated spawning
    | counted spawning | uncounted spawning | unprepared spawning | unshared spawning
    | prepared spawning | uncreated spawning | created spawning | announced spawning
    | unrecorded spawning | recorded spawning | unlinked spawning | linked spawning
    | unactivated spawning => exact ⟨Or.inr ⟨_, spawning⟩, rfl, rfl⟩

theorem Orderly.awake (h : Orderly env s)
    (awake : s.serving = true ∨ ∃ frame, s.spawning = some frame) :
    s.serving = true ∧ s.recovering = none := by
  have serving : s.serving = true := by
    rcases awake with serving | ⟨frame, spawning⟩
    · exact serving
    · by_contra starting
      have idle := h.starting (Bool.eq_false_iff.mpr starting)
      rw [spawning] at idle
      cases idle
  refine ⟨serving, ?_⟩
  cases recovering : s.recovering with
  | none => rfl
  | some tasks =>
    have starting := h.recovers tasks recovering
    rw [serving] at starting
    cases starting

theorem executes_owner {turnId : String} (executes : s.Executes turnId) :
    (∃ turn ∈ s.turns, turn.2 = turnId) ∨ ∃ v, s.store.view turnId = some v := by
  refine executes.imp_right ?_
  rintro ⟨row, member, rfl, -⟩
  obtain ⟨v, seen, -⟩ := view_of_mem member
  exact ⟨v, seen⟩

theorem Orderly.settling_kept (h : Orderly env s) (quiet : Undisturbed s act)
    (taken : Taken env s act s') : Settling env s' := by
  have same := h.settling
  cases taken with
  | repository stepped apart => exact same.undisturbed stepped apart quiet.1
  | observe executes recorded => exact same.record recorded (executes_owner executes)
  | reactivated spawning activated =>
    obtain ⟨child, member, names, linked⟩ := same.child_of_link (h.frame _ _ spawning)
    rw [names] at activated
    exact (same.activate member linked activated).1.of_tables rfl rfl rfl rfl rfl rfl
  | unshared spawning session =>
    obtain ⟨row, sessions, inserted, opened, -⟩ := createSession_ok session
    exact (same.session inserted).of_tables opened rfl rfl rfl rfl rfl
  | prepared spawning prepared =>
    obtain ⟨row, sessions, inserted, opened, -⟩ := createSession_ok prepared.session
    exact (same.session inserted).of_tables opened rfl rfl rfl rfl rfl
  | created spawning made apart =>
    obtain ⟨-, owner, unrequested⟩ := h.frame _ _ spawning
    exact (same.create made owner unrequested apart).2.of_tables rfl rfl rfl rfl rfl rfl
  | recorded spawning recorded =>
    obtain ⟨⟨-, ⟨child, member, -, -, names⟩, -⟩, -⟩ := h.frame _ _ spawning
    obtain ⟨v, seen, -⟩ := (same.children child member).view
    rw [names] at seen
    exact (same.record recorded (Or.inr ⟨v, seen⟩)).of_tables rfl rfl rfl rfl rfl rfl
  | linked spawning fresh created =>
    obtain ⟨⟨unlinked, ⟨child, member, request, kind, names⟩, -⟩, read⟩ := h.frame _ _ spawning
    rcases links_create_ok created with ⟨rfl, inserted, -⟩ | ⟨-, found⟩
    · rw [← names] at read
      have key : child.key = child.request.key child.kind := rfl
      rw [request, kind] at key
      exact (same.link inserted member names.symm key.symm read rfl).of_tables
        rfl rfl rfl rfl rfl rfl
    · exact absurd (unlinked.symm.trans found) (by simp)
  | activated spawning activated =>
    obtain ⟨listed, task⟩ := h.frame _ _ spawning
    obtain ⟨child, member, names, linked⟩ := same.child_of_link listed
    rw [← task, names] at activated
    exact (same.activate member linked activated).1.of_tables rfl rfl rfl rfl rfl rfl
  | cancelled spawning =>
    unfold Delegating.cancelled
    split
    · rename_i cancelled
      exact (same.cancel cancelled).of_tables rfl rfl rfl rfl rfl rfl
    · exact same.of_tables rfl rfl rfl rfl rfl rfl
  | failed spawning =>
    unfold Delegating.failed
    split <;> exact same.of_tables rfl rfl rfl rfl rfl rfl
  | recoveredNext recovering settled =>
    obtain ⟨s₁, rfl, ⟨complete, activated⟩ | ⟨-, cancelled⟩⟩ := recoveredNext_ok settled
    · obtain ⟨link, listed, task⟩ := complete.link
      obtain ⟨child, member, names, linked⟩ := same.child_of_link listed
      rw [← task, names] at activated
      exact (same.activate member linked activated).1.of_tables rfl rfl rfl rfl rfl rfl
    · exact (same.cancel cancelled).of_tables rfl rfl rfl rfl rfl rfl
  | _ => exact same.of_tables rfl rfl rfl rfl rfl rfl

theorem InFlight.keep {kind : ParentKind} {taskId : String} (h : InFlight s q kind taskId)
    (links : s'.links = s.links) (children : s'.children = s.children)
    (activated : s'.activated = s.activated) : InFlight s' q kind taskId where
  unlinked := by
    rw [links]
    exact h.unlinked
  created := by
    rw [children]
    exact h.created
  waits := by
    rw [activated]
    exact h.waits

theorem FrameOrderly.configure {resolver : NodeAgentResolver} (h : FrameOrderly s q phase) :
    FrameOrderly { s with resolver } q phase := by
  cases phase with
  | announcing | recording | linking => exact ⟨h.1.keep rfl rfl rfl, h.2⟩
  | _ => exact h

theorem FrameOrderly.wrote {store : Store} (h : FrameOrderly s q phase)
    (unrequested : ∀ staged, phase = .creating staged →
      Unrequested s.store staged.scope.sessionHandle q.requestId →
        Unrequested store staged.scope.sessionHandle q.requestId) :
    FrameOrderly { s with store } q phase := by
  cases phase with
  | creating staged => exact ⟨h.1, h.2.1, unrequested staged rfl h.2.2⟩
  | announcing | recording | linking => exact ⟨h.1.keep rfl rfl rfl, h.2⟩
  | _ => exact h

theorem FrameOrderly.observed {now : Time} {turnId principalId sessionHandle : String}
    {policy : ResolvedInvocationPolicy} {snapshots : Snapshots} (h : FrameOrderly s q phase)
    (settling : Settling env s) (executes : s.Executes turnId)
    (recorded : s.snapshots.record env.policyDigest now turnId principalId sessionHandle policy =
      .ok snapshots) : FrameOrderly { s with snapshots } q phase := by
  -- the child under way neither runs nor is a turn
  have other : ∀ {kind taskId}, InFlight s q kind taskId → turnId ≠ taskId := by
    rintro kind taskId flight rfl
    obtain ⟨child, member, -, -, names⟩ := flight.created
    have onRecord := settling.children child member
    obtain ⟨v, seen, -, waits⟩ := onRecord.view
    rw [names] at waits seen
    obtain ⟨turn, listed, named⟩ | ⟨row, listed, named, running⟩ := executes
    · have present := view_mem seen
      apply settling.apart v.row present turn listed
      rw [named, view_taskId seen, ← names, onRecord.trimmed]
    · obtain ⟨w, found, rfl⟩ := view_of_mem listed
      rw [named, seen] at found
      cases found
      rcases waits flight.waits with waiting | cancelled
      · rw [waiting.queued] at running
        cases running
      · rw [cancelled] at running
        cases running
  have absent : ∀ {kind taskId}, InFlight s q kind taskId → s.snapshots.lookup taskId = none →
      snapshots.lookup taskId = none := by
    intro kind taskId flight missing
    rcases Snapshots.record_ok recorded with rfl | ⟨row, names, -, inserted⟩
    · exact missing
    · rw [Table.lookup_insert inserted, if_neg (by rw [names]; exact other flight)]
      exact missing
  cases phase with
  | announcing staged child | recording staged child => exact ⟨h.1.keep rfl rfl rfl, absent h.1 h.2⟩
  | linking staged child => exact ⟨h.1.keep rfl rfl rfl, Snapshots.get_keeps recorded h.2⟩
  | _ => exact h

theorem Orderly.frame_own (h : Orderly env s) (own : act.own) (taken : Taken env s act s')
    (spawning' : s'.spawning = some ⟨q, phase⟩) : FrameOrderly s' q phase := by
  cases taken with
  | repository | configure | observe | crash | recover | recoveredNext | unrecovered | recovered =>
    exact own.elim
  | found _ _ _ _ linked =>
    cases spawning'
    exact List.mem_of_find?_eq_some linked
  | begun _ _ begun =>
    cases spawning'
    exact begun.unlinked
  | staged spawning | counted spawning =>
    cases spawning'
    exact h.frame _ _ spawning
  | @prepared q _ _ _ _ staged store spawning prepared =>
    cases spawning'
    have unlinked := h.frame _ _ spawning
    obtain ⟨row, sessions, inserted, rfl, -, -, scope⟩ := createSession_ok prepared.session
    have owner : staged.scope.principalId = q.scope.principalId := by
      rw [scope]
      exact (normalizeIdentifier_ok q.normal).symm
    refine ⟨?_, owner, ?_⟩
    · rw [prepared.kind]
      exact unlinked
    · -- no Task is in the session yet
      intro id member here
      have housed := h.settling.housed id member
      rw [here, scope, Table.lookup_eq_none_iff.mpr (Table.insert_fresh inserted)] at housed
      cases housed
  | @created q staged now taskIds child born store spawning made apart =>
    cases spawning'
    obtain ⟨unlinked, owner, unrequested⟩ := h.frame _ _ spawning
    obtain ⟨⟨absent, trimmed⟩, kept⟩ := h.settling.create made owner unrequested apart
    have unseen : ¬ ∃ v, s.store.view child.taskId = some v := by
      rintro ⟨v, seen⟩
      rw [absent] at seen
      cases seen
    refine ⟨⟨unlinked, ⟨_, List.mem_concat_self, rfl, rfl, rfl⟩,
      fun active => unseen (h.settling.activated _ active)⟩, ?_⟩
    rw [Table.lookup_eq_none_iff]
    intro member
    obtain ⟨row, present, names⟩ := List.mem_map.mp member
    rcases h.settling.snapshots row present with ⟨turn, listed, named⟩ | viewed
    · obtain ⟨v, seen, -⟩ := (kept.children _
        (List.mem_concat_self)).view
      apply apart v.row (view_mem seen) turn listed
      rw [view_taskId seen, named, names, trimmed]
    · rw [names] at viewed
      exact unseen viewed
  | announced spawning =>
    cases spawning'
    obtain ⟨flight, missing⟩ := h.frame _ _ spawning
    exact ⟨flight.keep rfl rfl rfl, missing⟩
  | recorded spawning recorded =>
    cases spawning'
    obtain ⟨flight, missing⟩ := h.frame _ _ spawning
    exact ⟨flight.keep rfl rfl rfl, Snapshots.get_recorded recorded missing⟩
  | @linked q staged child now delegationId link links spawning fresh created =>
    cases spawning'
    obtain ⟨flight, -⟩ := h.frame _ _ spawning
    rcases links_create_ok created with ⟨rfl, inserted, -⟩ | ⟨-, found⟩
    · have listed : s.linkOf env q staged child delegationId now ∈ links.rows := by
        rw [Table.insert_rows inserted]
        exact List.mem_concat_self
      exact ⟨listed, rfl⟩
    · exact absurd (flight.unlinked.symm.trans found) (by simp)
  | unrecorded | unlinked | unactivated =>
    cases spawning'
    trivial
  | failed =>
    unfold Delegating.failed at spawning'
    split at spawning'
    case h_4 => cases spawning'
    all_goals
      cases spawning'
      trivial
  | cancelled =>
    unfold Delegating.cancelled at spawning'
    split at spawning' <;> cases spawning'
  | _ => cases spawning'

theorem Orderly.frame_kept (h : Orderly env s) (quiet : Undisturbed s act)
    (taken : Taken env s act s') (spawning' : s'.spawning = some ⟨q, phase⟩) :
    FrameOrderly s' q phase := by
  -- a recovery leaves no room for a spawn
  have resting : s.recovering ≠ none → s.spawning = none := by
    intro some_recovering
    obtain ⟨tasks, recovering⟩ := Option.ne_none_iff_exists'.mp some_recovering
    exact h.starting (h.recovers tasks recovering)
  by_cases own : act.own
  · exact h.frame_own own taken spawning'
  cases taken with
  | repository stepped apart =>
    refine (h.frame _ _ spawning').wrote ?_
    rintro staged rfl unrequested
    have free := quiet.2
    rw [spawning'] at free
    exact Tasks.step_unrequested h.settling.sound stepped free unrequested
  | configure => exact (h.frame _ _ spawning').configure
  | observe executes recorded => exact (h.frame _ _ spawning').observed h.settling executes recorded
  | crash => cases spawning'
  | recover starting =>
    have idle := h.starting starting
    exact absurd (idle.symm.trans spawning') (by simp)
  | recoveredNext recovering settled =>
    have idle := resting (by rw [recovering]; simp)
    obtain ⟨s₁, rfl, ⟨-, activated⟩ | ⟨-, cancelled⟩⟩ := recoveredNext_ok settled
    · obtain ⟨task, store, -, rfl⟩ := activateChild_ok activated
      exact absurd (idle.symm.trans spawning') (by simp)
    · obtain ⟨result, store, -, rfl⟩ := cancelChild_ok cancelled
      exact absurd (idle.symm.trans spawning') (by simp)
  | unrecovered recovering =>
    have idle := resting (by rw [recovering]; simp)
    exact absurd (idle.symm.trans spawning') (by simp)
  | recovered done =>
    have idle := resting (by rw [done]; simp)
    exact absurd (idle.symm.trans spawning') (by simp)
  | _ => exact absurd trivial own

theorem mem_listStaged {v : TaskView} {taskId : String} (seen : s.store.view taskId = some v)
    (waits : Waits v) : v.row ∈ s.listStaged := by
  unfold Delegating.listStaged
  rw [List.mem_insertionSort, List.mem_filter]
  refine ⟨view_mem seen, ?_⟩
  rw [waits.queued, waits.staged]
  rfl

theorem Pending.wrote {op : Tasks.Op} {store : Store} {tasks : List TaskRecord}
    (h : Pending s tasks) (sound : Sound s.store)
    (stepped : Tasks.step env.tasks s.store op = some store) : Pending { s with store } tasks := by
  intro child member idle
  refine (h child member idle).imp_left ?_
  rintro ⟨v, seen, cancelled⟩
  obtain ⟨v', seen', same | move⟩ := Tasks.view_persists sound stepped seen
  · subst same
    exact ⟨v', seen', cancelled⟩
  · have ended : v.row.state.isTerminal = true := by
      rw [cancelled]
      rfl
    exact ⟨v', seen', (congrArg TaskRow.state (move.of_terminal ended).1).trans cancelled⟩

theorem Orderly.pending_next (h : Orderly env s) {task : TaskRecord} {rest : List TaskRecord}
    {now : Time} (recovering : s.recovering = some (task :: rest))
    (settled : s.recoveredNext env task rest now = .ok s') : Pending s' rest := by
  have pending := h.pending _ recovering
  obtain ⟨s₁, rfl, ⟨complete, activated⟩ | ⟨-, cancelled⟩⟩ := recoveredNext_ok settled
  · obtain ⟨link, listed, names⟩ := complete.link
    obtain ⟨owner, present, named, linked⟩ := h.settling.child_of_link listed
    have stepped := activateChild_store env activated
    rw [← names, named] at activated
    have grown := (h.settling.activate present linked activated).2
    obtain ⟨result, store, -, rfl⟩ := activateChild_ok activated
    have after := pending.wrote h.settling.sound stepped
    intro child member idle
    rw [grown] at idle
    rcases after child member (fun old => idle (List.mem_append_left _ old)) with
      ended | ⟨other, queue, same, principal⟩
    · exact Or.inl ended
    · rcases List.mem_cons.mp queue with rfl | later
      · rw [← same, ← names, named] at idle
        exact absurd (List.mem_concat_self) idle
      · exact Or.inr ⟨other, later, same, principal⟩
  · have stepped := cancelChild_store cancelled
    obtain ⟨result, store, returned, rfl⟩ := cancelChild_ok cancelled
    have after := pending.wrote h.settling.sound stepped
    intro child member idle
    rcases after child member idle with ended | ⟨other, queue, same, principal⟩
    · exact Or.inl ended
    · rcases List.mem_cons.mp queue with rfl | later
      · -- the child at the head is queued, or was cancelled before
        have onRecord := h.settling.children child member
        obtain ⟨v, seen, -, waits⟩ := onRecord.view
        have names : strip other.taskId = child.taskId := by
          rw [same]
          exact onRecord.trimmed
        rcases waits idle with waiting | ended
        · exact Or.inl (Tasks.requestCancel_queued (commit_ok_iff.mp returned) names seen
            waiting.queued)
        · have terminal : v.row.state.isTerminal = true := by
            rw [ended]
            rfl
          have same_store := Tasks.requestCancel_ended (commit_ok_iff.mp returned) names seen terminal
          rw [same_store]
          exact Or.inl ⟨v, seen, ended⟩
      · exact Or.inr ⟨other, later, same, principal⟩

theorem Orderly.pending_kept (h : Orderly env s) (taken : Taken env s act s')
    {tasks : List TaskRecord} (recovering' : s'.recovering = some tasks) : Pending s' tasks := by
  by_cases own : act.own
  · obtain ⟨awake, -, same⟩ := taken.own own
    rw [same, (h.awake awake).2] at recovering'
    cases recovering'
  cases taken with
  | repository stepped => exact (h.pending _ recovering').wrote h.settling.sound stepped
  | configure | observe => exact h.pending _ recovering'
  | crash | unrecovered | recovered => cases recovering'
  | recover =>
    cases recovering'
    intro child member idle
    have onRecord := h.settling.children child member
    obtain ⟨v, seen, owner, waits⟩ := onRecord.view
    rcases waits idle with waiting | cancelled
    · exact Or.inr ⟨v.row, mem_listStaged seen waiting, view_taskId seen, owner⟩
    · exact Or.inl ⟨v, seen, cancelled⟩
  | recoveredNext recovering settled =>
    have next := h.pending_next recovering settled
    obtain ⟨s₁, rfl, -⟩ := recoveredNext_ok settled
    cases recovering'
    exact next
  | _ => exact absurd trivial own

theorem Orderly.kept (h : Orderly env s) (quiet : Undisturbed s act)
    (taken : Taken env s act s') : Orderly env s' := by
  refine ⟨h.settling_kept quiet taken, fun _ _ => h.frame_kept quiet taken,
    fun _ => h.pending_kept taken, ?_, ?_⟩
  · intro starting
    by_cases own : act.own
    · obtain ⟨awake, same, -⟩ := taken.own own
      rw [same, (h.awake awake).1] at starting
      cases starting
    cases taken with
    | crash => rfl
    | recoveredNext recovering settled =>
      obtain ⟨s₁, rfl, ⟨-, activated⟩ | ⟨-, cancelled⟩⟩ := recoveredNext_ok settled
      · obtain ⟨task, store, -, rfl⟩ := activateChild_ok activated
        exact h.starting starting
      · obtain ⟨result, store, -, rfl⟩ := cancelChild_ok cancelled
        exact h.starting starting
    | recovered => cases starting
    | repository | configure | observe | recover | unrecovered => exact h.starting starting
    | _ => exact absurd trivial own
  · intro tasks recovering'
    by_cases own : act.own
    · obtain ⟨awake, -, same⟩ := taken.own own
      rw [same, (h.awake awake).2] at recovering'
      cases recovering'
    cases taken with
    | crash | unrecovered | recovered => cases recovering'
    | recover starting => exact starting
    | recoveredNext recovering settled =>
      have starting := h.recovers _ recovering
      obtain ⟨s₁, rfl, ⟨-, activated⟩ | ⟨-, cancelled⟩⟩ := recoveredNext_ok settled
      · obtain ⟨task, store, -, rfl⟩ := activateChild_ok activated
        exact starting
      · obtain ⟨result, store, -, rfl⟩ := cancelChild_ok cancelled
        exact starting
    | repository | configure | observe => exact h.recovers _ recovering'
    | _ => exact absurd trivial own

theorem Orderly.settled (h : Orderly env s) (done : s.recovering = some []) :
    ∀ child ∈ s.children, Settled env s child := by
  intro child member
  by_cases active : child.taskId ∈ s.activated
  · exact Or.inl ⟨h.settling.linked child member active, active⟩
  · rcases h.pending [] done child member active with ⟨v, seen, cancelled⟩ | ⟨task, queue, -⟩
    · exact Or.inr ⟨v.row, view_mem seen, view_taskId seen, cancelled⟩
    · cases queue

end Steps

end Knoa.Agents
