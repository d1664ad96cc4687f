import Knoa.Agents.SpawnSafety

/-!
# What an orderly spawn keeps

A spawn that is not cut off between the creation of its child and its link leaves one
link for each child, so that the limits of the parent count every child there is.
-/
namespace Knoa.Agents
open Knoa.Tasks Relational Transaction

/-- No call cancels a waiting child or stages another Task, no process ends while a
child is without its link, and no exception arrives while it is not activated. -/
def Timely (s : Delegating) (act : SpawnAct) : Prop :=
  match act with
  | .repository op => ¬ op.stages ∧
      ∀ child ∈ s.children, child.taskId ∉ s.activated → ¬ op.cancels child.taskId
  | .crash =>
    match s.spawning with
    | some ⟨_, .announcing _ _⟩ | some ⟨_, .recording _ _⟩ | some ⟨_, .linking _ _⟩ => False
    | _ => True
  | .fail =>
    match s.spawning with
    | some ⟨_, .announcing _ _⟩ | some ⟨_, .recording _ _⟩ | some ⟨_, .linking _ _⟩
    | some ⟨_, .activating _ _⟩ => False
    | _ => True
  | _ => True

instance (s : Delegating) (act : SpawnAct) : Decidable (Timely s act) := by
  unfold Timely
  split
  · infer_instance
  · split <;> infer_instance
  · split <;> infer_instance
  · infer_instance

def LinkKey.parent (key : LinkKey) : String × ParentKind × String :=
  (key.principalId, key.parentKind, key.parentId)

def SpawnedChild.entry (child : SpawnedChild) : LinkKey × String := (child.key, child.taskId)

def DelegationLink.entry (link : DelegationLink) : LinkKey × String := (link.key, link.childTaskId)

def lives (store : Store) (taskId : String) : Bool :=
  (store.tasks.lookup taskId).all (fun row => !row.state.isTerminal)

def Delegating.childrenOf (s : Delegating) (parent : String × ParentKind × String) :
    List SpawnedChild :=
  s.children.filter (fun child => child.key.parent == parent)

def Delegating.liveChildrenOf (s : Delegating) (parent : String × ParentKind × String) :
    List SpawnedChild :=
  (s.childrenOf parent).filter (fun child => lives s.store child.taskId)

def Bounded (s : Delegating) : Prop :=
  ∀ child ∈ s.children, ∀ policy, s.snapshots.get child.request.parentId = .ok policy →
    (s.childrenOf child.key.parent).length ≤ policy.limits.maxChildren ∧
      (s.liveChildrenOf child.key.parent).length ≤ policy.limits.maxParallelChildren

def SpawnPhase.unlinked (q : SpawnRequest) : SpawnPhase → List (LinkKey × String)
  | .announcing staged child | .recording staged child | .linking staged child =>
    [(q.key staged.kind, child.taskId)]
  | _ => []

def Delegating.unlinked (s : Delegating) : List (LinkKey × String) :=
  match s.spawning with
  | some ⟨q, phase⟩ => phase.unlinked q
  | none => []

structure Parented (s : Delegating) (q : SpawnRequest) (kind : ParentKind)
    (policy : ResolvedInvocationPolicy) : Prop where
  known : s.parentKind q.scope.principalId q.parentId = .ok kind
  detached : ¬(kind = .taskExecution ∧ q.mode = .join)
  read : s.snapshots.get q.parentId = .ok policy

def Found (s : Delegating) (q : SpawnRequest) (link : DelegationLink) : Prop :=
  link ∈ s.links.rows ∧ ∃ kind, link.key = q.key kind ∧
    s.parentKind q.scope.principalId q.parentId = .ok kind

def FramePunctual (s : Delegating) (q : SpawnRequest) : SpawnPhase → Prop
  | .found link => Found s q link
  | .reactivating link => Found s q link ∧ link.childTaskId ∉ s.activated
  | .counting kind policy remaining active => Parented s q kind policy ∧
      (s.childrenOf (q.key kind).parent).length < policy.limits.maxChildren ∧
        ∃ done, s.links.listParent q.scope.principalId kind q.parentId = done ++ remaining ∧
          (done.filter (fun link => lives s.store link.childTaskId)).length ≤ active
  | .creating staged => Parented s q staged.kind staged.parentPolicy ∧
      staged.childPolicy.delegationMaxDepth < staged.parentPolicy.delegationMaxDepth ∧
        (s.childrenOf (q.key staged.kind).parent).length < staged.parentPolicy.limits.maxChildren ∧
          (s.liveChildrenOf (q.key staged.kind).parent).length <
            staged.parentPolicy.limits.maxParallelChildren
  | .announcing staged _ | .recording staged _ | .linking staged _ =>
    Parented s q staged.kind staged.parentPolicy ∧
      staged.childPolicy.delegationMaxDepth < staged.parentPolicy.delegationMaxDepth
  | .activating link child => Found s q link ∧ link.childTaskId = child.taskId ∧
      child.taskId ∉ s.activated
  | .cancelling _ _ => False

def Attended (s : Delegating) (taskId : String) : Prop :=
  ∃ v, s.store.view taskId = some v ∧ (taskId ∉ s.activated → Waits v) ∧
    (taskId ∈ s.activated → v.row.phase ≠ "delegation_staged")

structure Punctual (env : SpawnEnv) (s : Delegating) : Prop where
  orderly : Orderly env s
  trimmed : ∀ id v, s.store.view id = some v → strip id = id
  attended : ∀ child ∈ s.children, Attended s child.taskId
  parents : ∀ child ∈ s.children, ∃ policy, Parented s child.request child.kind policy
  entries : s.children.map SpawnedChild.entry = s.links.rows.map DelegationLink.entry ++ s.unlinked
  single : (s.children.map SpawnedChild.key).Nodup
  depth : ∀ link ∈ s.links.rows, ∀ policy, s.snapshots.get link.childTaskId = .ok policy →
    link.depth + policy.delegationMaxDepth ≤ 8
  bounded : Bounded s
  frame : ∀ q phase, s.spawning = some ⟨q, phase⟩ → FramePunctual s q phase
  recovering : ∀ tasks, s.recovering = some tasks → ∀ task ∈ tasks,
    ∃ v, s.store.view task.taskId = some v ∧ v.row.principalId = task.principalId

structure Onward (s s' : Delegating) : Prop where
  turns : s'.turns = s.turns
  apart : s'.Apart s'.store
  persists : ∀ id v, s.store.view id = some v → ∃ v', s'.store.view id = some v' ∧
    v'.row.principalId = v.row.principalId ∧
      (v.row.state.isTerminal = true → v'.row.state.isTerminal = true)
  snapshots : ∀ id policy, s.snapshots.get id = .ok policy → s'.snapshots.get id = .ok policy

section Onward

variable {env : SpawnEnv} {s s' : Delegating} {q : SpawnRequest} {kind : ParentKind}
  {policy : ResolvedInvocationPolicy} {act : SpawnAct} {phase : SpawnPhase}

theorem store_persists {store store' : Store} (taken : StoreTaken env store store')
    (sound : Sound store) {id : String} {v : TaskView} (seen : store.view id = some v) :
    ∃ v', store'.view id = some v' ∧ v'.row.principalId = v.row.principalId ∧
      (v.row.state.isTerminal = true → v'.row.state.isTerminal = true) := by
  cases taken with
  | same | session inserted => exact ⟨v, seen, rfl, fun ended => ended⟩
  | call stepped =>
    obtain ⟨v', seen', same | move⟩ := Tasks.view_persists sound stepped seen
    · subst same
      exact ⟨v', seen', rfl, fun ended => ended⟩
    · refine ⟨v', seen', Tasks.identity_principal move.identity, ?_⟩
      intro ended
      rw [show v'.row.state = v.row.state from congrArg TaskRow.state (move.of_terminal ended).1]
      exact ended

/-- The tables other than the store and the record of activations. -/
structure SameTables (s s' : Delegating) : Prop where
  turns : s'.turns = s.turns
  snapshots : s'.snapshots = s.snapshots
  links : s'.links = s.links
  children : s'.children = s.children

variable {now : Time} {principalId taskId : String}

theorem activateChild_same (h : s.activateChild now principalId taskId = .ok s') :
    SameTables s s' := by
  obtain ⟨task, store, -, rfl⟩ := activateChild_ok h
  exact ⟨rfl, rfl, rfl, rfl⟩

theorem cancelChild_same {reason : String}
    (h : s.cancelChild env now principalId taskId reason = .ok s') : SameTables s s' := by
  obtain ⟨result, store, -, rfl⟩ := cancelChild_ok h
  exact ⟨rfl, rfl, rfl, rfl⟩

theorem cancelled_same {child : TaskRecord} {error : SpawnError} :
    SameTables s (s.cancelled env q child error now) := by
  unfold Delegating.cancelled
  split
  · rename_i cancelled
    have same := cancelChild_same cancelled
    exact ⟨same.turns, same.snapshots, same.links, same.children⟩
  · exact ⟨rfl, rfl, rfl, rfl⟩

theorem failed_same {frame : SpawnFrame} : SameTables s (s.failed frame) := by
  unfold Delegating.failed
  split <;> exact ⟨rfl, rfl, rfl, rfl⟩

theorem recoveredNext_same {task : TaskRecord} {rest : List TaskRecord}
    (h : s.recoveredNext env task rest now = .ok s') : SameTables s s' := by
  obtain ⟨s₁, rfl, ⟨-, activated⟩ | ⟨-, cancelled⟩⟩ := recoveredNext_ok h
  · have same := activateChild_same activated
    exact ⟨same.turns, same.snapshots, same.links, same.children⟩
  · have same := cancelChild_same cancelled
    exact ⟨same.turns, same.snapshots, same.links, same.children⟩

theorem recoveredNext_spawning {task : TaskRecord} {rest : List TaskRecord}
    (h : s.recoveredNext env task rest now = .ok s') : s'.spawning = s.spawning := by
  obtain ⟨s₁, rfl, ⟨-, activated⟩ | ⟨-, cancelled⟩⟩ := recoveredNext_ok h
  · obtain ⟨task, store, -, rfl⟩ := activateChild_ok activated
    rfl
  · obtain ⟨result, store, -, rfl⟩ := cancelChild_ok cancelled
    rfl

/-- What an act leaves of the other tables. -/
structure Written (s : Delegating) (act : SpawnAct) (s' : Delegating) : Prop where
  turns : s'.turns = s.turns
  children : (∀ now taskIds, act ≠ .create now taskIds) → s'.children = s.children
  links : (∀ delegationId now, act ≠ .link delegationId now) → s'.links = s.links
  snapshots : ∀ id policy, s.snapshots.get id = .ok policy → s'.snapshots.get id = .ok policy

theorem SameTables.finish {link : DelegationLink} (h : SameTables s s') :
    SameTables s (s'.finish link) := ⟨h.turns, h.snapshots, h.links, h.children⟩

theorem SameTables.written (h : SameTables s s') : Written s act s' where
  turns := h.turns
  children _ := h.children
  links _ := h.links
  snapshots _ _ read := by
    rw [h.snapshots]
    exact read

theorem Taken.written (h : Taken env s act s') : Written s act s' := by
  cases h with
  | observe _ recorded | recorded _ recorded =>
    exact ⟨rfl, fun _ => rfl, fun _ => rfl, fun _ _ read => Snapshots.get_keeps recorded read⟩
  | reactivated _ activated | activated _ activated =>
    exact (activateChild_same activated).finish.written
  | created => exact ⟨rfl, fun other => absurd rfl (other _ _), fun _ => rfl, fun _ _ read => read⟩
  | linked => exact ⟨rfl, fun _ => rfl, fun other => absurd rfl (other _ _), fun _ _ read => read⟩
  | cancelled => exact cancelled_same.written
  | failed => exact failed_same.written
  | recoveredNext _ settled => exact (recoveredNext_same settled).written
  | _ => exact ⟨rfl, fun _ => rfl, fun _ => rfl, fun _ _ read => read⟩

theorem Taken.onward (h : Taken env s act s') (orderly : Orderly env s)
    (quiet : Undisturbed s act) : Onward s s' where
  turns := h.written.turns
  apart := (orderly.kept quiet h).settling.apart
  persists _ _ seen := store_persists h.store orderly.settling.sound seen
  snapshots := h.written.snapshots

section
variable (h : Onward s s')
include h

theorem Onward.parentKind {parentId : String}
    (known : s.parentKind principalId parentId = .ok kind) :
    s'.parentKind principalId parentId = .ok kind := by
  unfold Delegating.parentKind at known ⊢
  cases read : getTask s.store principalId parentId with
  | ok row =>
    rw [read] at known
    cases known
    obtain ⟨principal, owner, id, named, read⟩ := of_bind₂ read
    obtain ⟨v, seen, rfl, -⟩ := Tasks.ownedTask_view read
    have mine := (Tasks.ownedTask_ok_iff.mp read).2
    obtain ⟨v', seen', same, -⟩ := h.persists id v seen
    rw [Tasks.getTask_of_view owner named seen' (same.trans mine)]
  | error e =>
    rw [read] at known
    cases e with
    | notFound text =>
      dsimp only at known
      split at known <;> cases known
      rename_i listed
      have absent : s'.store.tasks.lookup (strip parentId) = none := by
        rw [Table.lookup_eq_none_iff]
        intro member
        obtain ⟨row, present, names⟩ := List.mem_map.mp member
        rw [← h.turns] at listed
        exact h.apart row present _ listed names
      obtain ⟨error, missing⟩ := Tasks.getTask_missing read absent
      rw [missing, h.turns]
      exact if_pos listed
    | _ => cases known

theorem Onward.parented (parented : Parented s q kind policy) : Parented s' q kind policy :=
  ⟨h.parentKind parented.known, parented.detached, h.snapshots _ _ parented.read⟩

theorem Onward.found {link : DelegationLink} (found : Found s q link)
    (links : ∀ link ∈ s.links.rows, link ∈ s'.links.rows) : Found s' q link := by
  obtain ⟨member, kind, key, known⟩ := found
  exact ⟨links link member, kind, key, h.parentKind known⟩

theorem Onward.lives (seen : ∃ v, s.store.view taskId = some v)
    (alive : lives s'.store taskId = true) : lives s.store taskId = true := by
  obtain ⟨v, seen⟩ := seen
  obtain ⟨v', seen', -, ends⟩ := h.persists taskId v seen
  unfold Agents.lives at alive ⊢
  rw [(view_eq_some_iff.mp seen).1]
  rw [(view_eq_some_iff.mp seen').1] at alive
  cases ended : v.row.state.isTerminal with
  | false => simp [ended]
  | true =>
    rw [Option.all_some, ends ended] at alive
    cases alive

theorem Onward.liveChildren (settling : Settling env s)
    (children : s'.children = s.children) (parent : String × ParentKind × String) :
    (s'.liveChildrenOf parent).length ≤ (s.liveChildrenOf parent).length := by
  unfold Delegating.liveChildrenOf Delegating.childrenOf
  rw [children, ← List.countP_eq_length_filter, ← List.countP_eq_length_filter]
  apply List.countP_mono_left
  intro child member alive
  have present := List.mem_of_mem_filter member
  obtain ⟨v, seen, -⟩ := (settling.children child present).view
  exact h.lives ⟨v, seen⟩ alive

theorem Onward.bounded (settling : Settling env s)
    (children : s'.children = s.children) (parents : ∀ child ∈ s.children, ∃ policy,
      Parented s child.request child.kind policy) (bounded : Bounded s) : Bounded s' := by
  intro child member policy read
  rw [children] at member
  obtain ⟨known, parented⟩ := parents child member
  have same : known = policy := by
    have kept := h.snapshots _ _ parented.read
    rw [read] at kept
    exact (Except.ok.inj kept).symm
  subst same
  obtain ⟨total, live⟩ := bounded child member known parented.read
  refine ⟨?_, (h.liveChildren settling children _).trans live⟩
  unfold Delegating.childrenOf at total ⊢
  rw [children]
  exact total

end

end Onward

section Counts

variable {env : SpawnEnv} {s s' : Delegating} {q : SpawnRequest} {kind : ParentKind}
  {policy : ResolvedInvocationPolicy} {act : SpawnAct} {phase : SpawnPhase}

variable (principalId parentId : String) (kind : ParentKind) in
theorem childrenOf_entries (entries : s.children.map SpawnedChild.entry =
      s.links.rows.map DelegationLink.entry) :
    (s.childrenOf (principalId, kind, parentId)).map SpawnedChild.entry =
      (s.links.listParent principalId kind parentId).map DelegationLink.entry := by
  have listed : s.links.listParent principalId kind parentId = s.links.rows.filter
      (fun link => link.key.parent == (principalId, kind, parentId)) := by
    apply List.filter_congr
    intro link _
    exact Bool.and_assoc ..
  have owned : s.childrenOf (principalId, kind, parentId) = s.children.filter
      ((fun entry => entry.1.parent == (principalId, kind, parentId)) ∘ SpawnedChild.entry) := rfl
  have linked : (fun link : DelegationLink => link.key.parent == (principalId, kind, parentId)) =
      (fun entry => entry.1.parent == (principalId, kind, parentId)) ∘ DelegationLink.entry := rfl
  rw [owned, listed, linked, ← List.filter_map, ← List.filter_map, entries]

variable (principalId parentId : String) (kind : ParentKind) in
theorem childrenOf_length (entries : s.children.map SpawnedChild.entry =
      s.links.rows.map DelegationLink.entry) : (s.childrenOf (principalId, kind, parentId)).length =
      (s.links.listParent principalId kind parentId).length := by
  have same := congrArg List.length (childrenOf_entries principalId parentId kind entries)
  rwa [List.length_map, List.length_map] at same

variable (principalId parentId : String) (kind : ParentKind) in
theorem liveChildrenOf_length (entries : s.children.map SpawnedChild.entry =
      s.links.rows.map DelegationLink.entry) :
    (s.liveChildrenOf (principalId, kind, parentId)).length =
      ((s.links.listParent principalId kind parentId).filter
        (fun link => lives s.store link.childTaskId)).length := by
  have same := congrArg (List.countP (fun entry => lives s.store entry.2))
    (childrenOf_entries principalId parentId kind entries)
  rw [List.countP_map, List.countP_map] at same
  unfold Delegating.liveChildrenOf
  rw [← List.countP_eq_length_filter, ← List.countP_eq_length_filter]
  exact same

end Counts

section Attention

variable {env : SpawnEnv} {s s' : Delegating} {op : Tasks.Op} {store : Store} {taskId : String}

theorem Attended.wrote (h : Attended s taskId) (sound : Sound s.store)
    (stepped : Tasks.step env.tasks s.store op = some store)
    (quiet : taskId ∉ s.activated → ¬ op.steers taskId ∧ ¬ op.cancels taskId)
    (honest : ¬ op.stages) : Attended { s with store } taskId := by
  obtain ⟨v, seen, waits, active⟩ := h
  obtain ⟨v', seen', same | move⟩ := Tasks.view_persists sound stepped seen
  · subst same
    exact ⟨v', seen', waits, active⟩
  · refine ⟨v', seen', ?_, fun activated => move.unstaged (active activated) honest⟩
    intro idle
    obtain ⟨steers, cancels⟩ := quiet idle
    rw [← view_taskId seen] at steers cancels
    rcases move.waits (waits idle) steers with waiting | ⟨-, cancelled⟩
    · exact waiting
    · exact absurd cancelled cancels

theorem Attended.activate (env : SpawnEnv) (h : Attended s taskId) (sound : Sound s.store)
    {now : Time}
    {principalId named : String} (trimmed : strip named = named)
    (activated : s.activateChild now principalId named = .ok s') : Attended s' taskId := by
  have stepped := activateChild_store env activated
  obtain ⟨task, store, returned, rfl⟩ := activateChild_ok activated
  obtain ⟨names, -, v', seen', -, phase⟩ := Tasks.activateStaged_ok (commit_ok_iff.mp returned)
    trimmed
  by_cases same : taskId = named
  · subst same
    refine ⟨v', seen', ?_, ?_⟩
    · intro idle
      exact absurd (List.mem_append_right _ (List.mem_singleton.mpr names.symm)) idle
    · intro _
      rw [phase]
      decide
  · obtain ⟨v, seen, waits, active⟩ := h
    have frame := Tasks.activateStaged_frame sound.rooted stepped
      (show taskId ≠ strip named by rw [trimmed]; exact same)
    refine ⟨v, frame.trans seen, ?_, ?_⟩
    · intro idle
      exact waits (fun old => idle (List.mem_append_left _ old))
    · intro listed
      rcases List.mem_concat.mp listed with old | new
      · exact active old
      · rw [names] at new
        exact absurd new same

theorem Attended.cancel (h : Attended s taskId) (sound : Sound s.store) {now : Time}
    {principalId named reason : String} (apart : taskId ≠ strip named)
    (cancelled : s.cancelChild env now principalId named reason = .ok s') : Attended s' taskId := by
  have stepped := cancelChild_store cancelled
  obtain ⟨result, store, -, rfl⟩ := cancelChild_ok cancelled
  obtain ⟨v, seen, waits, active⟩ := h
  exact ⟨v, (Tasks.requestCancel_frame sound.rooted stepped apart).trans seen, waits, active⟩

theorem Attended.keep (h : Attended s taskId) (store : s'.store = s.store)
    (activated : s'.activated = s.activated) : Attended s' taskId := by
  unfold Attended
  rw [store, activated]
  exact h

theorem activates (now : Time) {q : SpawnRequest} {child : SpawnedChild}
    (onRecord : OnRecord s child) (principal : child.request.scope.principalId = q.scope.principalId)
    (attended : Attended s child.taskId) (idle : child.taskId ∉ s.activated) :
    ∃ s', s.activateChild now q.scope.principalId child.taskId = .ok s' := by
  obtain ⟨v, seen, waits, -⟩ := attended
  obtain ⟨w, found, owner, -⟩ := onRecord.view
  rw [seen] at found
  cases found
  have named : normalizeIdentifier child.taskId "task_id" 128 = .ok child.taskId := by
    apply normalizeIdentifier_ok_iff.mpr
    rw [onRecord.trimmed]
    exact ⟨rfl, onRecord.sized⟩
  obtain ⟨task, store, activated, -⟩ : ∃ task store, Tasks.activateStaged now q.scope.principalId
      child.taskId s.store = .ok (task, store) ∧ task.taskId = child.taskId :=
    Tasks.activateStaged_waits q.normal named seen (owner.trans principal) (waits idle)
  unfold Delegating.activateChild
  rw [commit_ok_iff.mpr activated]
  exact ⟨_, rfl⟩

theorem reads {q : SpawnRequest} {child : SpawnedChild} {v : TaskView} (onRecord : OnRecord s child)
    (principal : child.request.scope.principalId = q.scope.principalId)
    (seen : s.store.view child.taskId = some v) :
    getTask s.store q.scope.principalId child.taskId = .ok v.row := by
  obtain ⟨w, found, owner, -⟩ := onRecord.view
  rw [seen] at found
  cases found
  have named : normalizeIdentifier child.taskId "task_id" 128 = .ok child.taskId := by
    apply normalizeIdentifier_ok_iff.mpr
    rw [onRecord.trimmed]
    exact ⟨rfl, onRecord.sized⟩
  exact Tasks.getTask_of_view q.normal named seen (owner.trans principal)

end Attention

section Frames

variable {env : SpawnEnv} {s s' : Delegating} {q : SpawnRequest} {kind : ParentKind}
  {policy : ResolvedInvocationPolicy} {act : SpawnAct} {phase : SpawnPhase} {staged : StagedChild}
  {child : TaskRecord} {link : DelegationLink}

theorem unlinked_of (spawning : s.spawning = some ⟨q, phase⟩) : s.unlinked = phase.unlinked q := by
  unfold Delegating.unlinked
  rw [spawning]

theorem unlinked_idle (idle : s.spawning = none) : s.unlinked = [] := by
  unfold Delegating.unlinked
  rw [idle]

theorem Punctual.entries_of (h : Punctual env s) (none : s.unlinked = []) :
    s.children.map SpawnedChild.entry = s.links.rows.map DelegationLink.entry := by
  have entries := h.entries
  rw [none, List.append_nil] at entries
  exact entries

theorem Found.owner (found : Found s q link) (settling : Settling env s) :
    ∃ child ∈ s.children, link.childTaskId = child.taskId ∧ child.key = link.key ∧
      child.request.scope.principalId = q.scope.principalId := by
  obtain ⟨member, kind, key, -⟩ := found
  obtain ⟨child, present, names, same, -⟩ := settling.links link member
  refine ⟨child, present, names.symm, same, ?_⟩
  rw [key] at same
  exact congrArg LinkKey.principalId same

theorem links_create_fresh {links : Links} (depth : 1 ≤ link.depth ∧ link.depth ≤ 8)
    (fresh : links.lookup link.delegationId = none)
    (apart : ∀ other ∈ links.rows, other.childTaskId ≠ link.childTaskId ∧ other.key ≠ link.key) :
    ∃ links', links.create link = .ok (link, links') := by
  obtain ⟨links', inserted⟩ := Table.insert_of_lookup_none fresh
  have clash : links.rows.any (fun other =>
      other.childTaskId == link.childTaskId || other.key == link.key) = false := by
    rw [List.any_eq_false]
    intro other member
    simp [apart other member]
  refine ⟨links', ?_⟩
  unfold Links.create
  rw [Transaction.require_of depth, Transaction.ok_bind]
  rw [clash, inserted]
  rfl

section
variable (h : Punctual env s)
include h

theorem Punctual.linkOf_depth (child : TaskRecord) (delegationId : String) (now : Time)
    (parented : Parented s q staged.kind staged.parentPolicy)
    (deeper : staged.childPolicy.delegationMaxDepth < staged.parentPolicy.delegationMaxDepth) :
    1 ≤ (s.linkOf env q staged child delegationId now).depth ∧
      (s.linkOf env q staged child delegationId now).depth +
        staged.childPolicy.delegationMaxDepth ≤ 8 := by
  have root := staged.parentPolicy.depth
  unfold Delegating.linkOf
  dsimp only
  split
  · rename_i parent found
    split at found
    · have listed := List.mem_of_find?_eq_some found
      have matched := List.find?_some found
      simp only [Bool.and_eq_true, beq_iff_eq] at matched
      have below := h.depth parent listed staged.parentPolicy (by
        rw [matched.2]
        exact parented.read)
      omega
    · cases found
  · omega

theorem Punctual.links_free (spawning : s.spawning = some ⟨q, phase⟩)
    (unlinked : phase.unlinked q = [(q.key staged.kind, child.taskId)]) :
    ∀ other ∈ s.links.rows, other.childTaskId ≠ child.taskId ∧ other.key ≠ q.key staged.kind := by
  have entries := h.entries
  rw [unlinked_of spawning, unlinked] at entries
  have ids := congrArg (List.map Prod.snd) entries
  have keys := congrArg (List.map Prod.fst) entries
  rw [List.map_append, List.map_map, List.map_map] at ids keys
  have distinct := h.orderly.settling.distinct
  have single := h.single
  rw [show s.children.map SpawnedChild.taskId = _ from ids, List.nodup_append] at distinct
  rw [show s.children.map SpawnedChild.key = _ from keys, List.nodup_append] at single
  intro other member
  have listed := List.mem_map_of_mem (f := Prod.snd ∘ DelegationLink.entry) member
  have keyed := List.mem_map_of_mem (f := Prod.fst ∘ DelegationLink.entry) member
  exact ⟨distinct.2.2 _ listed _ (List.mem_singleton.mpr rfl),
    single.2.2 _ keyed _ (List.mem_singleton.mpr rfl)⟩

theorem Punctual.records {now : Time} {error : AgentError}
    (spawning : s.spawning = some ⟨q, .recording staged child⟩)
    (refused : s.snapshots.record env.policyDigest now child.taskId q.scope.principalId
      child.sessionHandle staged.childPolicy = .error error) : False := by
  obtain ⟨-, missing⟩ := h.orderly.frame _ _ spawning
  obtain ⟨row, -, -, -, added, -, made⟩ := Snapshots.record_fresh missing
  rw [made] at refused
  cases refused

theorem Punctual.links_child {now : Time} {error : AgentError}
    {delegationId : String} (spawning : s.spawning = some ⟨q, .linking staged child⟩)
    (fresh : s.links.lookup delegationId = none)
    (refused : s.links.create (s.linkOf env q staged child delegationId now) = .error error) :
    False := by
  obtain ⟨parented, deeper⟩ := h.frame _ _ spawning
  obtain ⟨least, most⟩ := h.linkOf_depth child delegationId now parented deeper
  obtain ⟨links', made⟩ := links_create_fresh ⟨least, by omega⟩ fresh (h.links_free spawning rfl)
  rw [made] at refused
  cases refused

theorem Punctual.activates_child {now : Time} {error : TaskError}
    (found : Found s q link) (names : link.childTaskId = child.taskId)
    (idle : child.taskId ∉ s.activated)
    (refused : s.activateChild now q.scope.principalId child.taskId = .error error) : False := by
  obtain ⟨owner, member, named, -, principal⟩ := found.owner h.orderly.settling
  rw [← names, named] at idle refused
  obtain ⟨s₁, activated⟩ := activates now (h.orderly.settling.children owner member)
    principal (h.attended owner member) idle
  rw [activated] at refused
  cases refused

end

theorem FramePunctual.keep (h : FramePunctual s q phase) (onward : Onward s s')
    (settling : Settling env s) (links : s'.links = s.links) (children : s'.children = s.children)
    (activated : s'.activated = s.activated) : FramePunctual s' q phase := by
  have found : ∀ {link}, Found s q link → Found s' q link := by
    intro link old
    refine onward.found old (fun other member => ?_)
    rw [links]
    exact member
  have total : ∀ parent, s'.childrenOf parent = s.childrenOf parent := by
    intro parent
    unfold Delegating.childrenOf
    rw [children]
  cases phase with
  | found link => exact found h
  | reactivating link =>
    refine ⟨found h.1, ?_⟩
    rw [activated]
    exact h.2
  | counting kind policy remaining active =>
    obtain ⟨parented, room, done, listed, live⟩ := h
    refine ⟨onward.parented parented, ?_, done, ?_, le_trans ?_ live⟩
    · rw [total]
      exact room
    · rw [links]
      exact listed
    · rw [← List.countP_eq_length_filter, ← List.countP_eq_length_filter]
      apply List.countP_mono_left
      intro link member alive
      have present : link ∈ s.links.rows := by
        apply List.mem_of_mem_filter
        change link ∈ s.links.listParent q.scope.principalId kind q.parentId
        rw [listed]
        exact List.mem_append_left _ member
      obtain ⟨child, owned, names, -⟩ := settling.links link present
      obtain ⟨v, seen, -⟩ := (settling.children child owned).view
      rw [names] at seen
      exact onward.lives ⟨v, seen⟩ alive
  | creating staged =>
    obtain ⟨parented, deeper, room, live⟩ := h
    refine ⟨onward.parented parented, deeper, ?_,
      lt_of_le_of_lt (onward.liveChildren settling children _) live⟩
    rw [total]
    exact room
  | announcing | recording | linking => exact ⟨onward.parented h.1, h.2⟩
  | activating link child =>
    refine ⟨found h.1, h.2.1, ?_⟩
    rw [activated]
    exact h.2.2
  | cancelling => exact h

theorem counts_lives {live : Nat} (settling : Settling env s) (listed : link ∈ s.links.rows)
    (counted : s.counts q.scope.principalId link = .ok live) :
    (if lives s.store link.childTaskId then 1 else 0) ≤ live := by
  obtain ⟨child, owned, names, -⟩ := settling.links link listed
  have trimmed := (settling.children child owned).trimmed
  rw [names] at trimmed
  unfold Delegating.counts at counted
  split at counted
  · rename_i row read
    obtain ⟨principal, -, id, named, read⟩ := of_bind₂ read
    obtain rfl : id = link.childTaskId := (normalizeIdentifier_ok named).trans trimmed
    have stored := (Tasks.ownedTask_ok_iff.mp read).1
    rw [Except.ok.injEq] at counted
    unfold lives
    rw [stored, ← counted]
    cases ended : row.state.isTerminal <;> simp [ended]
  · rw [Except.ok.injEq] at counted
    rw [← counted]
    split <;> omega
  · cases counted

theorem prepared_deeper {active : Nat} {ports : SpawnPorts} {store : Store}
    (prepared : Prepared env s q kind policy active ports staged store) :
    staged.childPolicy.delegationMaxDepth < staged.parentPolicy.delegationMaxDepth ∧
      active < policy.limits.maxParallelChildren := by
  obtain ⟨_, parallel, checked⟩ := of_bind prepared.checked
  obtain ⟨_, deep, -⟩ := of_bind checked
  rw [Transaction.require_ok_iff] at parallel deep
  obtain ⟨resolved, shared, resolves, same, -⟩ := prepared.child
  have lowered := (childPolicy_ok resolves).1.depth
  rw [prepared.parent, same]
  dsimp only
  omega

theorem Punctual.frame_own (h : Punctual env s) (timely : Timely s act) (own : act.own)
    (quiet : Undisturbed s act) (taken : Taken env s act s')
    (spawning' : s'.spawning = some ⟨q, phase⟩) : FramePunctual s' q phase := by
  have onward := taken.onward h.orderly quiet
  have orderly' := h.orderly.frame_kept quiet taken spawning'
  cases taken with
  | repository | configure | observe | crash | recover | recoveredNext | unrecovered | recovered =>
    exact own.elim
  | @found q kind link serving idle known detached linked =>
    cases spawning'
    exact ⟨List.mem_of_find?_eq_some linked, kind, by simpa using List.find?_some linked, known⟩
  | @begun q kind policy serving idle begun =>
    cases spawning'
    have room := childrenOf_length q.scope.principalId q.parentId kind
      (h.entries_of (unlinked_idle idle))
    refine ⟨⟨begun.known, begun.detached, begun.read⟩, ?_, [], rfl, le_refl 0⟩
    exact lt_of_eq_of_lt room begun.room
  | @staged q link child spawning read staged =>
    cases spawning'
    have found := h.frame _ _ spawning
    refine ⟨found, ?_⟩
    intro listed
    obtain ⟨owner, member, names, -, principal⟩ := found.owner h.orderly.settling
    rw [names] at read listed
    obtain ⟨v, seen, -, active⟩ := h.attended owner member
    rw [reads (h.orderly.settling.children owner member) principal seen, Except.ok.injEq] at read
    exact active listed (by rw [read]; exact staged)
  | @counted q kind policy link remaining active live spawning counted =>
    cases spawning'
    obtain ⟨parented, room, done, listed, alive⟩ := h.frame _ _ spawning
    refine ⟨onward.parented parented, room, done ++ [link], ?_, ?_⟩
    · rw [List.append_assoc]
      exact listed
    · have present : link ∈ s.links.rows := by
        apply List.mem_of_mem_filter
        change link ∈ s.links.listParent q.scope.principalId kind q.parentId
        rw [listed]
        exact List.mem_append_right _ List.mem_cons_self
      have one := counts_lives h.orderly.settling present counted
      rw [← List.countP_eq_length_filter] at alive ⊢
      rw [List.countP_append, List.countP_singleton]
      exact Nat.add_le_add alive one
  | @prepared q kind policy active ports staged store spawning prepared =>
    cases spawning'
    obtain ⟨parented, room, done, listed, alive⟩ := h.frame _ _ spawning
    obtain ⟨deeper, parallel⟩ := prepared_deeper prepared
    obtain ⟨row, sessions, inserted, rfl, -⟩ := createSession_ok prepared.session
    obtain rfl := prepared.kind
    obtain rfl := prepared.parent
    rw [List.append_nil] at listed
    have live := liveChildrenOf_length q.scope.principalId q.parentId staged.kind
      (h.entries_of (unlinked_of spawning))
    rw [listed] at live
    refine ⟨onward.parented parented, deeper, room, ?_⟩
    exact lt_of_eq_of_lt live (lt_of_le_of_lt alive parallel)
  | created spawning =>
    cases spawning'
    obtain ⟨parented, deeper, -⟩ := h.frame _ _ spawning
    exact ⟨onward.parented parented, deeper⟩
  | announced spawning | recorded spawning =>
    cases spawning'
    obtain ⟨parented, deeper⟩ := h.frame _ _ spawning
    exact ⟨onward.parented parented, deeper⟩
  | linked spawning fresh created =>
    cases spawning'
    obtain ⟨parented, -⟩ := h.frame _ _ spawning
    obtain ⟨flight, -⟩ := h.orderly.frame _ _ spawning
    rcases links_create_ok created with ⟨rfl, -⟩ | ⟨-, found⟩
    · exact ⟨⟨orderly'.1, _, rfl, onward.parentKind parented.known⟩, rfl, flight.waits⟩
    · exact absurd (flight.unlinked.symm.trans found) (by simp)
  | unrecorded spawning refused => exact (h.records spawning refused).elim
  | unlinked spawning fresh refused => exact (h.links_child spawning fresh refused).elim
  | unactivated spawning refused =>
    obtain ⟨found, names, idle⟩ := h.frame _ _ spawning
    exact (h.activates_child found names idle refused).elim
  | cancelled spawning => exact (h.frame _ _ spawning).elim
  | @failed frame spawning =>
    obtain ⟨request, at_phase⟩ := frame
    unfold Timely at timely
    rw [spawning] at timely
    cases at_phase with
    | recording | linking | activating => exact timely.elim
    | _ => cases spawning'
  | _ => cases spawning'

end Frames

section Keeping

variable {env : SpawnEnv} {s s' : Delegating} {q : SpawnRequest} {kind : ParentKind}
  {policy : ResolvedInvocationPolicy} {act : SpawnAct} {phase : SpawnPhase}

theorem StoreTaken.trimmed {store store' : Store} (h : StoreTaken env store store')
    (sound : Sound store) (trimmed : ∀ id v, store.view id = some v → strip id = id) :
    ∀ id v, store'.view id = some v → strip id = id := by
  cases h with
  | same | session inserted => exact trimmed
  | call stepped =>
    intro id v seen
    cases (Tasks.step_refines sound.rooted stepped).changed id with
    | same slice => exact trimmed id v ((Tasks.view_of_slice slice).symm.trans seen)
    | moved before => exact trimmed id _ before
    | created _ _ _ _ _ _ trimmed => exact trimmed

section
variable (h : Punctual env s)
include h

theorem Punctual.complete (idle : s.spawning = none) {child : SpawnedChild}
    (member : child ∈ s.children) {task : TaskRecord} (names : task.taskId = child.taskId)
    (principal : task.principalId = child.request.scope.principalId) : Complete env s task := by
  have entries := h.entries_of (unlinked_idle idle)
  have settling := h.orderly.settling
  have distinct : (s.links.rows.map DelegationLink.childTaskId).Nodup := by
    have ids := congrArg (List.map Prod.snd) entries
    rw [List.map_map, List.map_map] at ids
    rw [show s.links.rows.map DelegationLink.childTaskId = _ from ids.symm]
    exact settling.distinct
  have listed : child.entry ∈ s.links.rows.map DelegationLink.entry := by
    rw [← entries]
    exact List.mem_map_of_mem member
  obtain ⟨link, present, same⟩ := List.mem_map.mp listed
  have key : link.key = child.key := congrArg Prod.fst same
  have named : link.childTaskId = child.taskId := congrArg Prod.snd same
  have found : ∃ other, s.links.findForChildTask task.principalId task.taskId = some other := by
    apply Option.isSome_iff_exists.mp
    refine List.find?_isSome.mpr ⟨link, present, ?_⟩
    have owner : link.principalId = child.request.scope.principalId :=
      congrArg LinkKey.principalId key
    simp [owner, principal, named, names]
  obtain ⟨other, found⟩ := found
  have matched := List.find?_some found
  simp only [Bool.and_eq_true, beq_iff_eq] at matched
  obtain ⟨owner, -, owned, -, exact_link, stored, child_of, -, known, read, digest⟩ :=
    settling.links other (List.mem_of_find?_eq_some found)
  have one : exact_link = other := List.inj_on_of_nodup_map distinct stored
    (List.mem_of_find?_eq_some found) (child_of.trans owned)
  subst one
  rw [owned, matched.2] at read
  exact ⟨exact_link, known, found, read, digest⟩

theorem Punctual.attended_kept (timely : Timely s act)
    (quiet : Undisturbed s act) (taken : Taken env s act s') :
    ∀ child ∈ s'.children, Attended s' child.taskId := by
  have settling := h.orderly.settling
  cases taken with
  | repository stepped apart =>
    intro child member
    exact (h.attended child member).wrote settling.sound stepped
      (fun idle => ⟨quiet.1 child member idle, timely.2 child member idle⟩) timely.1
  | @reactivated q link now s' spawning activated =>
    intro child member
    obtain ⟨found, -⟩ := h.frame _ _ spawning
    obtain ⟨owner, present, names, -⟩ := found.owner settling
    rw [names] at activated
    have same : SameTables s (s'.finish link) := (activateChild_same activated).finish
    rw [same.children] at member
    exact ((h.attended child member).activate env settling.sound
      (settling.children owner present).trimmed activated).keep rfl rfl
  | @activated q link task now s' spawning activated =>
    intro child member
    obtain ⟨found, named, -⟩ := h.frame _ _ spawning
    obtain ⟨owner, present, names, -⟩ := found.owner settling
    rw [← named, names] at activated
    have same : SameTables s (s'.finish link) := (activateChild_same activated).finish
    rw [same.children] at member
    exact ((h.attended child member).activate env settling.sound
      (settling.children owner present).trimmed activated).keep rfl rfl
  | unshared spawning session =>
    obtain ⟨row, sessions, inserted, opened, -⟩ := createSession_ok session
    intro child member
    have attended := h.attended child member
    rw [opened]
    exact attended
  | prepared spawning prepared =>
    obtain ⟨row, sessions, inserted, rfl, -⟩ := createSession_ok prepared.session
    exact h.attended
  | @created q staged now taskIds task born store spawning made apart =>
    intro child member
    rcases List.mem_concat.mp member with old | rfl
    · exact (h.attended child old).wrote settling.sound (created_store made)
        (fun _ => ⟨fun steers => steers, fun cancels => cancels⟩) (fun stages => stages)
    · obtain ⟨-, -, unrequested⟩ := h.orderly.frame _ _ spawning
      obtain ⟨absent, -, queued, staging, -, v, seen, row⟩ := Tasks.create_born made unrequested
      have literal : strip "delegation_staged" = "delegation_staged" := by decide
      refine ⟨v, seen, ?_, ?_⟩
      · intro _
        refine ⟨(congrArg TaskRow.state row).trans queued, ?_⟩
        rw [row]
        exact staging.trans literal
      · intro activated
        obtain ⟨w, before⟩ := settling.activated _ activated
        rw [absent] at before
        cases before
  | cancelled spawning => exact (h.frame _ _ spawning).elim
  | failed =>
    unfold Delegating.failed
    split <;> exact h.attended
  | @recoveredNext task rest now s' recovering settled =>
    have same := recoveredNext_same settled
    obtain ⟨v, seen, owner⟩ := h.recovering _ recovering task List.mem_cons_self
    have trimmed := h.trimmed _ _ seen
    intro child member
    rw [same.children] at member
    obtain ⟨s₁, rfl, ⟨-, activated⟩ | ⟨incomplete, cancelled⟩⟩ := recoveredNext_ok settled
    · exact ((h.attended child member).activate env settling.sound trimmed activated).keep rfl rfl
    · refine ((h.attended child member).cancel settling.sound ?_ cancelled).keep rfl rfl
      rw [trimmed]
      intro named
      obtain ⟨w, found, principal, -⟩ := (settling.children child member).view
      rw [named, seen] at found
      cases found
      have idle := h.orderly.starting (h.orderly.recovers _ recovering)
      exact incomplete (h.complete idle member named.symm (owner.symm.trans principal))
  | _ => exact h.attended

theorem Punctual.parents_kept (onward : Onward s s') (taken : Taken env s act s') :
    ∀ child ∈ s'.children, ∃ policy, Parented s' child.request child.kind policy := by
  have kept : ∀ child ∈ s.children, ∃ policy, Parented s' child.request child.kind policy := by
    intro child member
    obtain ⟨policy, parented⟩ := h.parents child member
    exact ⟨policy, onward.parented parented⟩
  by_cases birth : ∃ now taskIds, act = .create now taskIds
  · obtain ⟨now, taskIds, rfl⟩ := birth
    cases taken with
    | uncreated => exact kept
    | created spawning =>
      intro child member
      rcases List.mem_concat.mp member with old | rfl
      · exact kept child old
      · obtain ⟨parented, -⟩ := h.frame _ _ spawning
        exact ⟨_, onward.parented parented⟩
  · rw [taken.written.children (fun now taskIds same => birth ⟨now, taskIds, same⟩)]
    exact kept

theorem Punctual.entries_kept (timely : Timely s act) (taken : Taken env s act s') :
    s'.children.map SpawnedChild.entry = s'.links.rows.map DelegationLink.entry ++ s'.unlinked := by
  have entries := h.entries
  cases taken with
  | refused serving idle | found serving idle | begun serving idle =>
    rw [unlinked_idle idle] at entries
    exact entries
  | missing spawning | staged spawning | returned spawning | unreactivated spawning
  | counted spawning | uncounted spawning | unprepared spawning | unshared spawning
  | prepared spawning | uncreated spawning | announced spawning | recorded spawning =>
    rw [unlinked_of spawning] at entries
    exact entries
  | @reactivated q link now s' spawning activated
  | @activated q link task now s' spawning activated =>
    have same : SameTables s (s'.finish link) := (activateChild_same activated).finish
    rw [same.children, same.links]
    rw [unlinked_of spawning] at entries
    exact entries
  | @created q staged now taskIds child born store spawning made apart =>
    rw [List.map_append, h.entries_of (unlinked_of spawning)]
    rfl
  | unrecorded spawning refused => exact (h.records spawning refused).elim
  | unlinked spawning fresh refused => exact (h.links_child spawning fresh refused).elim
  | @linked q staged child now delegationId link links spawning fresh created =>
    obtain ⟨flight, -⟩ := h.orderly.frame _ _ spawning
    rcases links_create_ok created with ⟨rfl, inserted, -⟩ | ⟨-, found⟩
    · rw [unlinked_of spawning] at entries
      change s.children.map SpawnedChild.entry = links.rows.map DelegationLink.entry ++ []
      rw [entries, Table.insert_rows inserted, List.map_append, List.append_nil]
      rfl
    · exact absurd (flight.unlinked.symm.trans found) (by simp)
  | unactivated spawning refused =>
    obtain ⟨found, names, idle⟩ := h.frame _ _ spawning
    exact (h.activates_child found names idle refused).elim
  | cancelled spawning => exact (h.frame _ _ spawning).elim
  | @failed frame spawning =>
    obtain ⟨request, phase⟩ := frame
    unfold Timely at timely
    rw [spawning] at timely
    rw [unlinked_of spawning] at entries
    cases phase with
    | announcing | recording | linking | activating => exact timely.elim
    | _ => exact entries
  | crash =>
    have none : s.unlinked = [] := by
      unfold Timely at timely
      unfold Delegating.unlinked
      cases spawning : s.spawning with
      | none => rfl
      | some frame =>
        obtain ⟨request, phase⟩ := frame
        rw [spawning] at timely
        cases phase with
        | announcing | recording | linking => exact timely.elim
        | _ => rfl
    rw [none] at entries
    exact entries
  | recoveredNext recovering settled =>
    have idle := h.orderly.starting (h.orderly.recovers _ recovering)
    have same := recoveredNext_same settled
    rw [same.children, same.links, unlinked_idle ((recoveredNext_spawning settled).trans idle)]
    rw [unlinked_idle idle] at entries
    exact entries
  | repository | configure | observe | recover | unrecovered | recovered => exact entries

theorem Punctual.single_kept (taken : Taken env s act s') :
    (s'.children.map SpawnedChild.key).Nodup := by
  by_cases birth : ∃ now taskIds, act = .create now taskIds
  · obtain ⟨now, taskIds, rfl⟩ := birth
    cases taken with
    | uncreated => exact h.single
    | @created q staged _ _ child born store spawning made apart =>
      obtain ⟨unlinked, -⟩ := h.orderly.frame _ _ spawning
      have entries := h.entries_of (unlinked_of spawning)
      rw [List.map_append, List.map_singleton, ← List.concat_eq_append, List.nodup_concat]
      refine ⟨?_, h.single⟩
      intro member
      obtain ⟨other, present, same⟩ := List.mem_map.mp member
      have listed : other.entry ∈ s.links.rows.map DelegationLink.entry := by
        rw [← entries]
        exact List.mem_map_of_mem present
      obtain ⟨link, stored, equal⟩ := List.mem_map.mp listed
      have key : link.key = q.key staged.kind := (congrArg Prod.fst equal).trans same
      have none := List.find?_eq_none.mp unlinked link stored
      simp [key] at none
  · rw [taken.written.children (fun now taskIds same => birth ⟨now, taskIds, same⟩)]
    exact h.single

theorem Punctual.depth_kept (taken : Taken env s act s') :
    ∀ link ∈ s'.links.rows, ∀ policy, s'.snapshots.get link.childTaskId = .ok policy →
      link.depth + policy.delegationMaxDepth ≤ 8 := by
  have kept : ∀ link ∈ s.links.rows, ∀ policy, s'.snapshots.get link.childTaskId = .ok policy →
      link.depth + policy.delegationMaxDepth ≤ 8 := by
    intro link member policy read
    obtain ⟨child, -, names, -, other, -, -, -, known, before, -⟩ :=
      h.orderly.settling.links link member
    rw [names] at before
    have after := taken.written.snapshots _ _ before
    rw [read, Except.ok.injEq] at after
    rw [after]
    exact h.depth link member known before
  by_cases joins : ∃ delegationId now, act = .link delegationId now
  · obtain ⟨delegationId, now, rfl⟩ := joins
    cases taken with
    | unlinked => exact kept
    | @linked q staged child _ _ link links spawning fresh created =>
      obtain ⟨flight, recorded⟩ := h.orderly.frame _ _ spawning
      obtain ⟨parented, deeper⟩ := h.frame _ _ spawning
      rcases links_create_ok created with ⟨rfl, inserted, -⟩ | ⟨-, found⟩
      · intro other member policy read
        change other ∈ links.rows at member
        rw [Table.insert_rows inserted] at member
        rcases List.mem_concat.mp member with old | rfl
        · exact kept other old policy read
        · have same : staged.childPolicy = policy :=
            Except.ok.inj (recorded.symm.trans read)
          rw [← same]
          exact (h.linkOf_depth child delegationId now parented deeper).2
      · exact absurd (flight.unlinked.symm.trans found) (by simp)
  · rw [taken.written.links (fun delegationId now same => joins ⟨delegationId, now, same⟩)]
    exact kept

end

theorem childrenOf_append (children : List SpawnedChild) (child : SpawnedChild)
    (parent : String × ParentKind × String) :
    (children ++ [child]).filter (fun other => other.key.parent == parent) =
      if child.key.parent = parent then
        children.filter (fun other => other.key.parent == parent) ++ [child]
      else children.filter (fun other => other.key.parent == parent) := by
  rw [List.filter_append]
  split
  · rename_i same
    simp [same]
  · rename_i apart
    simp [apart]

theorem Punctual.bounded_kept (h : Punctual env s) (onward : Onward s s')
    (taken : Taken env s act s') : Bounded s' := by
  have settling := h.orderly.settling
  by_cases birth : ∃ now taskIds, act = .create now taskIds
  · obtain ⟨now, taskIds, rfl⟩ := birth
    cases taken with
    | uncreated => exact h.bounded
    | @created q staged _ _ task born store spawning made apart =>
      obtain ⟨parented, -, room, live⟩ := h.frame _ _ spawning
      -- the children that there were, in the new store
      have before : Onward s { s with store } := ⟨rfl, apart, onward.persists, fun _ _ read => read⟩
      have old := before.bounded settling rfl h.parents h.bounded
      have fewer := before.liveChildren settling rfl
      have grown : ∀ child parent,
          (Delegating.childrenOf { s with children := s.children ++ [child] } parent) =
            if child.key.parent = parent then s.childrenOf parent ++ [child]
            else s.childrenOf parent := fun child parent => childrenOf_append _ child parent
      intro child member policy read
      change (Delegating.childrenOf { s with children := s.children ++ [_] } _).length ≤ _ ∧
        ((Delegating.childrenOf { s with children := s.children ++ [_] } _).filter _).length ≤ _
      rw [grown]
      by_cases same : ({ request := q, kind := staged.kind, taskId := task.taskId } :
          SpawnedChild).key.parent = child.key.parent
      · have limits : policy = staged.parentPolicy := by
          have parent : child.request.parentId = q.parentId :=
            congrArg (fun parent => parent.2.2) same.symm
          rw [parent] at read
          exact Except.ok.inj (read.symm.trans parented.read)
        have most := lt_of_le_of_lt (fewer (q.key staged.kind).parent) live
        rw [limits, if_pos same, ← same, List.filter_append, List.length_append,
          List.length_append, List.length_singleton]
        refine ⟨room, ?_⟩
        have one := List.length_filter_le (fun child => lives store child.taskId)
          [({ request := q, kind := staged.kind, taskId := task.taskId } : SpawnedChild)]
        exact (Nat.add_le_add_left one _).trans most
      · rw [if_neg same]
        rcases List.mem_concat.mp member with present | new
        · exact old child present policy read
        · rw [new] at same
          exact absurd rfl same
  · exact onward.bounded settling
      (taken.written.children (fun now taskIds same => birth ⟨now, taskIds, same⟩))
      h.parents h.bounded

theorem Punctual.recovering_kept (h : Punctual env s) (onward : Onward s s')
    (taken : Taken env s act s') {tasks : List TaskRecord}
    (recovering' : s'.recovering = some tasks) :
    ∀ task ∈ tasks, ∃ v, s'.store.view task.taskId = some v ∧
      v.row.principalId = task.principalId := by
  have kept : ∀ {tasks}, s.recovering = some tasks → ∀ task ∈ tasks,
      ∃ v, s'.store.view task.taskId = some v ∧ v.row.principalId = task.principalId := by
    intro tasks recovering task member
    obtain ⟨v, seen, owner⟩ := h.recovering tasks recovering task member
    obtain ⟨v', seen', same, -⟩ := onward.persists _ v seen
    exact ⟨v', seen', same.trans owner⟩
  by_cases own : act.own
  · obtain ⟨-, -, same⟩ := taken.own own
    exact kept (same.symm.trans recovering')
  cases taken with
  | repository | configure | observe => exact kept recovering'
  | crash | unrecovered | recovered => cases recovering'
  | recover =>
    cases recovering'
    intro task member
    unfold Delegating.listStaged at member
    rw [List.mem_insertionSort] at member
    obtain ⟨v, seen, same⟩ := Tasks.view_of_lookup
      (Table.lookup_of_mem (List.mem_of_mem_filter member))
    exact ⟨v, seen, congrArg TaskRow.principalId same⟩
  | recoveredNext recovering settled =>
    obtain ⟨s₁, rfl, -⟩ := recoveredNext_ok settled
    cases recovering'
    intro task member
    exact kept recovering task (List.mem_cons_of_mem _ member)
  | _ => exact absurd trivial own

theorem Punctual.frame_kept (h : Punctual env s) (timely : Timely s act)
    (quiet : Undisturbed s act) (taken : Taken env s act s')
    (spawning' : s'.spawning = some ⟨q, phase⟩) : FramePunctual s' q phase := by
  by_cases own : act.own
  · exact h.frame_own timely own quiet taken spawning'
  have onward := taken.onward h.orderly quiet
  have settling := h.orderly.settling
  cases taken with
  | repository | configure | observe | recover | unrecovered | recovered =>
    exact (h.frame _ _ spawning').keep onward settling rfl rfl rfl
  | crash => cases spawning'
  | recoveredNext recovering settled =>
    have idle := h.orderly.starting (h.orderly.recovers _ recovering)
    rw [recoveredNext_spawning settled, idle] at spawning'
    cases spawning'
  | _ => exact absurd trivial own

theorem Punctual.kept (h : Punctual env s) (quiet : Undisturbed s act) (timely : Timely s act)
    (taken : Taken env s act s') : Punctual env s' where
  orderly := h.orderly.kept quiet taken
  trimmed := taken.store.trimmed h.orderly.settling.sound h.trimmed
  attended := h.attended_kept timely quiet taken
  parents := h.parents_kept (taken.onward h.orderly quiet) taken
  entries := h.entries_kept timely taken
  single := h.single_kept taken
  depth := h.depth_kept taken
  bounded := h.bounded_kept (taken.onward h.orderly quiet) taken
  frame _ _ := h.frame_kept timely quiet taken
  recovering _ := h.recovering_kept (taken.onward h.orderly quiet) taken

end Keeping

end Knoa.Agents
