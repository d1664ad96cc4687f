import Knoa.Context.CheckpointStore
import Mathlib.Data.List.Nodup

/-!
# Is the checkpoint store linearizable?

`save_checkpoint` compares the revision before the transaction of its write, and `create_session`
looks for its operation before that of its insertion.
-/
namespace Knoa.Context
open Knoa.Tasks (JsonText Time strip)
open Relational Transition

variable {initial : AgentStore} {s s' : StoreRun} {call : StoreCall} {now : Time} {drawn : String}

def Saved.key (save : Saved) : String × Option Nat := (save.row.runtimeSessionRef, save.expected)

/-- What one call after the other would show. -/
structure Linearizable (initial : AgentStore) (s : StoreRun) : Prop where
  /-- Of the calls with one expected revision at most one has succeeded. -/
  once : (s.saved.map Saved.key).Nodup
  /-- Nothing but the expected revision was overwritten. -/
  isOver : ∀ save ∈ s.saved, save.isOver = save.expected
  conflict : ∀ refusal ∈ s.refused, ∀ session ∈ refusal.session,
    session.stateVersion = refusal.checkpoint.stateVersion → refusal.error = .conflict
  /-- What is stored is what the last call that succeeded has written. -/
  stored : ∀ ref, s.store.checkpoints.lookup ref =
    ((s.saved.filter fun save => save.row.runtimeSessionRef == ref).getLast?.map Saved.row).or
      (initial.checkpoints.lookup ref)
  same : ∀ a ∈ s.created, ∀ b ∈ s.created, a.operationId = b.operationId →
    a.runtimeSessionRef = b.runtimeSessionRef
  allocated : s.unallocated = []

/-- The condition at a write: the revision that was read still stands. The condition at the last
attempt to insert a session: neither its operation nor the reference is taken. -/
def StoreRun.CleanCall (s : StoreRun) (drawn : String) : StoreCall → Prop
  | .write checkpoint expected _ => s.store.revision? checkpoint.runtimeSessionRef = expected
  | .insertSession operationId _ left => left ≤ 1 →
      s.store.session? operationId = none ∧ strip drawn ≠ "" ∧
        s.store.sessions.lookup (strip drawn) = none
  | _ => True

def StoreRun.Clean (s : StoreRun) : StoreAct → Prop
  | .advance i _ drawn => ∀ call ∈ s.calls[i]?, s.CleanCall drawn call
  | _ => True

instance (s : StoreRun) (drawn : String) (call : StoreCall) : Decidable (s.CleanCall drawn call) := by
  unfold StoreRun.CleanCall
  cases call <;> infer_instance

instance (s : StoreRun) (a : StoreAct) : Decidable (s.Clean a) := by
  unfold StoreRun.Clean
  cases a <;> infer_instance

section Store
variable {store store' : AgentStore}

theorem lookup_upsert (store : AgentStore) (checkpoint : ContextCheckpoint) (ref : String) :
    (store.upsert checkpoint).checkpoints.lookup ref =
      if checkpoint.runtimeSessionRef = ref then some (store.upserted checkpoint)
      else store.checkpoints.lookup ref := by
  unfold AgentStore.upsert
  split
  · next checkpoints inserted =>
      have absent := Table.lookup_eq_none_iff.mpr (Table.insert_fresh inserted)
      have whole : store.upserted checkpoint = checkpoint := by
        rw [AgentStore.upserted, absent]
      rw [whole]
      exact Table.lookup_insert inserted ref
  · next refused =>
      obtain ⟨stored, member, key⟩ := List.mem_map.mp (Table.insert_eq_none refused)
      have found := Table.lookup_of_mem member
      have after := Table.lookup_update store.checkpoints
        (fun stored => stored.runtimeSessionRef == checkpoint.runtimeSessionRef)
        (fun stored => { checkpoint with
          runtimeSessionRef := stored.runtimeSessionRef, createdAt := stored.createdAt })
        (fun _ => rfl) ref
      refine after.trans ?_
      split
      · next here =>
          rw [← here, ← key, found, Option.map_some, if_pos (by simp [key])]
          rw [AgentStore.upserted, ← key, found]
      · next apart =>
          cases looked : store.checkpoints.lookup ref with
          | none => rfl
          | some other =>
            rw [Option.map_some, if_neg]
            rw [Table.lookup_key looked, beq_iff_eq]
            exact fun same => apart same.symm

theorem upserted_ref (store : AgentStore) (checkpoint : ContextCheckpoint) :
    (store.upserted checkpoint).runtimeSessionRef = checkpoint.runtimeSessionRef := by
  unfold AgentStore.upserted
  split <;> rfl

theorem upserted_revision (store : AgentStore) (checkpoint : ContextCheckpoint) :
    (store.upserted checkpoint).revision = checkpoint.revision := by
  unfold AgentStore.upserted
  split <;> rfl

def Knows (store : AgentStore) (session : KnoaAgentSession) : Prop :=
  ∃ row ∈ store.sessions.rows, row.operationId = session.operationId ∧
    row.runtimeSessionRef = session.runtimeSessionRef

theorem Knows.unique {a b : KnoaAgentSession} (left : Knows store a) (right : Knows store b)
    (same : a.operationId = b.operationId) : a.runtimeSessionRef = b.runtimeSessionRef := by
  obtain ⟨row, member, operation, ref⟩ := left
  obtain ⟨row', member', operation', ref'⟩ := right
  have one : row = row' := List.inj_on_of_nodup_map store.operations member member'
    (operation.trans (same.trans operation'.symm))
  rw [← ref, one, ref']

variable {session : KnoaAgentSession}

theorem Knows.touched (known : Knows store session) (ref : String) (now : Time) :
    Knows (store.touchSession ref now) session := by
  obtain ⟨row, member, operation, of⟩ := known
  refine ⟨_, List.mem_map_of_mem member, ?_⟩
  split <;> exact ⟨operation, of⟩

theorem insertSession_spec (h : store.insertSession session = some store') :
    store'.sessions.rows = store.sessions.rows ++ [session] ∧
      store'.checkpoints = store.checkpoints := by
  unfold AgentStore.insertSession at h
  split at h
  · split at h
    · cases h
    · next sessions inserted =>
        cases h
        exact ⟨Table.insert_rows inserted, rfl⟩
  · cases h

theorem insertSession_eq_none_iff : store.insertSession session = none ↔
      ¬(store.session? session.operationId = none ∧
        store.sessions.lookup session.runtimeSessionRef = none) := by
  unfold AgentStore.insertSession
  split
  · next fresh =>
      split
      · next refused =>
          have taken := Table.lookup_eq_none_iff.not.mpr
            (not_not.mpr (Table.insert_eq_none refused))
          exact ⟨fun _ both => taken both.2, fun _ => rfl⟩
      · next sessions inserted =>
          have free := Table.lookup_eq_none_iff.mpr (Table.insert_fresh inserted)
          exact ⟨by rintro ⟨⟩, fun taken => absurd ⟨fresh, free⟩ taken⟩
  · next known => exact ⟨fun _ both => known both.1, fun _ => rfl⟩

theorem insertSession_free (h : store.insertSession session = some store') :
    store.session? session.operationId = none ∧
      store.sessions.lookup session.runtimeSessionRef = none := by
  by_contra taken
  rw [insertSession_eq_none_iff.mpr taken] at h
  cases h

theorem Knows.inserted {new : KnoaAgentSession} (known : Knows store session)
    (h : store.insertSession new = some store') : Knows store' session := by
  obtain ⟨row, member, operation, of⟩ := known
  refine ⟨row, ?_, operation, of⟩
  rw [(insertSession_spec h).1]
  exact List.mem_append_left _ member

end Store

/-- What holds as long as the steps are clean. -/
structure InOrder (initial : AgentStore) (s : StoreRun) : Prop where
  linearizable : Linearizable initial s
  behind : ∀ save ∈ s.saved, ∃ r, s.store.revision? save.row.runtimeSessionRef = some r ∧
    save.expected.getD 0 < r
  /-- A call that has compared the revision is right or too late. -/
  compared : ∀ checkpoint expected createdAt, .write checkpoint expected createdAt ∈ s.calls →
    s.store.revision? checkpoint.runtimeSessionRef = expected ∨
      (checkpoint.runtimeSessionRef, expected) ∈ s.saved.map Saved.key
  known : ∀ session ∈ s.created, Knows s.store session

variable {expected : Option Nat}

section
variable (inOrder : InOrder initial s)
include inOrder

theorem InOrder.unspent {ref : String}
    (stands : s.store.revision? ref = expected) : (ref, expected) ∉ s.saved.map Saved.key := by
  intro known
  obtain ⟨save, member, key⟩ := List.mem_map.mp known
  obtain ⟨r, stored, less⟩ := inOrder.behind save member
  rw [Saved.key, Prod.mk.injEq] at key
  rw [key.1, stands] at stored
  rw [key.2, stored, Option.getD_some] at less
  exact lt_irrefl r less

theorem InOrder.replace {calls : List StoreCall}
    (compared : ∀ checkpoint expected createdAt, .write checkpoint expected createdAt ∈ calls →
      s.store.revision? checkpoint.runtimeSessionRef = expected ∨
        (checkpoint.runtimeSessionRef, expected) ∈ s.saved.map Saved.key) :
    InOrder initial { s with calls } :=
  ⟨⟨inOrder.linearizable.once, inOrder.linearizable.isOver, inOrder.linearizable.conflict,
    inOrder.linearizable.stored, inOrder.linearizable.same, inOrder.linearizable.allocated⟩,
    inOrder.behind, compared, inOrder.known⟩

theorem InOrder.start
    (reads : ∀ checkpoint expected createdAt, call ≠ .write checkpoint expected createdAt) :
    InOrder initial (s.start call) := by
  refine inOrder.replace fun checkpoint expected createdAt member => ?_
  rcases List.mem_concat.mp member with old | new
  · exact inOrder.compared checkpoint expected createdAt old
  · exact absurd new.symm (reads checkpoint expected createdAt)

theorem InOrder.refuse {checkpoint : ContextCheckpoint}
    {session : Option KnoaAgentSession} {error : ContextError}
    (reason : ∀ read ∈ session, read.stateVersion = checkpoint.stateVersion → error = .conflict) :
    InOrder initial (s.refuse checkpoint expected session error) := by
  obtain ⟨once, isOver, conflict, stored, same, allocated⟩ := inOrder.linearizable
  refine ⟨⟨once, isOver, ?_, stored, same, allocated⟩, inOrder.behind, inOrder.compared,
    inOrder.known⟩
  intro refusal member
  rcases List.mem_concat.mp member with old | new
  · exact conflict refusal old
  · rw [new]
    exact reason

end

/-- The state after the write of a call. -/
def StoreRun.written (s : StoreRun) (now : Time) (row : ContextCheckpoint)
    (expected : Option Nat) : StoreRun :=
  { s with
    store := (s.store.upsert row).touchSession row.runtimeSessionRef now
    saved := s.saved ++
      [{ expected, isOver := s.store.revision? row.runtimeSessionRef,
         row := s.store.upserted row }] }

theorem written_saved (s : StoreRun) (now : Time) (row : ContextCheckpoint)
    (expected : Option Nat) : (s.written now row expected).saved.map Saved.key =
      s.saved.map Saved.key ++ [(row.runtimeSessionRef, expected)] := by
  rw [StoreRun.written, List.map_append, List.map_singleton, Saved.key, upserted_ref]

theorem written_lookup (s : StoreRun) (now : Time) (row : ContextCheckpoint)
    (expected : Option Nat) (ref : String) :
    (s.written now row expected).store.checkpoints.lookup ref =
      if row.runtimeSessionRef = ref then some (s.store.upserted row)
      else s.store.checkpoints.lookup ref :=
  lookup_upsert s.store row ref

theorem written_revision (s : StoreRun) (now : Time) (row : ContextCheckpoint)
    (expected : Option Nat) (ref : String) : (s.written now row expected).store.revision? ref =
      if row.runtimeSessionRef = ref then some row.revision else s.store.revision? ref := by
  rw [AgentStore.revision?, written_lookup]
  split
  · rw [Option.map_some, upserted_revision]
  · rfl

theorem InOrder.write (inOrder : InOrder initial s) {row : ContextCheckpoint}
    (stands : s.store.revision? row.runtimeSessionRef = expected)
    (counts : row.revision = expected.getD 0 + 1) :
    InOrder initial (s.written now row expected) := by
  obtain ⟨once, isOver, conflict, stored, same, allocated⟩ := inOrder.linearizable
  refine ⟨⟨?_, ?_, conflict, ?_, same, allocated⟩, ?_, ?_, ?_⟩
  · rw [written_saved]
    refine List.nodup_append.mpr ⟨once, List.nodup_singleton _, ?_⟩
    rintro key old _ new rfl
    rw [List.mem_singleton.mp new] at old
    exact inOrder.unspent stands old
  · intro save member
    rcases List.mem_concat.mp member with old | new
    · exact isOver save old
    · rw [new]
      exact stands
  · intro ref
    rw [written_lookup]
    dsimp only [StoreRun.written]
    rw [List.filter_append]
    split
    · next here =>
        rw [List.filter_singleton, upserted_ref, here, beq_self_eq_true, cond_true,
          List.getLast?_concat]
        rfl
    · next apart =>
        rw [List.filter_singleton, upserted_ref, beq_eq_false_iff_ne.mpr apart, cond_false,
          List.append_nil]
        exact stored ref
  · intro save member
    rw [written_revision]
    rcases List.mem_concat.mp member with old | new
    · obtain ⟨r, before, less⟩ := inOrder.behind save old
      split
      · next here =>
          rw [here, before] at stands
          refine ⟨_, rfl, ?_⟩
          rw [counts, ← stands, Option.getD_some]
          omega
      · exact ⟨r, before, less⟩
    · rw [new, upserted_ref, if_pos rfl]
      refine ⟨_, rfl, ?_⟩
      rw [counts]
      exact Nat.lt_succ_self _
  · intro checkpoint expected' createdAt member
    rw [written_revision, written_saved]
    rcases inOrder.compared checkpoint expected' createdAt member with right | late
    · split
      · next here =>
          rw [← here, stands] at right
          subst right
          rw [← here]
          exact .inr (List.mem_concat_self)
      · exact .inl right
    · exact .inr (List.mem_append_left _ late)
  · intro session member
    have known := (inOrder.known session member)
    have kept : Knows (s.store.upsert row) session := by
      unfold AgentStore.upsert
      split <;> exact known
    exact kept.touched _ _

theorem InOrder.late_write (inOrder : InOrder initial s) {row : ContextCheckpoint}
    {createdAt : Option Time} {checkpoint : ContextCheckpoint}
    (member : .write checkpoint expected createdAt ∈ s.calls)
    (of : row.runtimeSessionRef = checkpoint.runtimeSessionRef)
    (moved : s.store.revision? checkpoint.runtimeSessionRef ≠ expected) :
    ¬Linearizable initial (s.written now row expected) := by
  intro claimed
  have late := (inOrder.compared checkpoint expected createdAt member).resolve_left moved
  have once := claimed.once
  rw [written_saved, of, List.nodup_append] at once
  exact once.2.2 _ late _ List.mem_cons_self rfl

theorem InOrder.insert (inOrder : InOrder initial s) {session : KnoaAgentSession}
    {store : AgentStore} (h : s.store.insertSession session = some store) :
    InOrder initial { s with store, created := s.created ++ [session] } := by
  obtain ⟨once, isOver, conflict, stored, same, allocated⟩ := inOrder.linearizable
  obtain ⟨rows, checkpoints⟩ := insertSession_spec h
  have known : ∀ other ∈ s.created ++ [session], Knows store other := by
    intro other member
    rcases List.mem_concat.mp member with old | new
    · exact (inOrder.known other old).inserted h
    · rw [new]
      refine ⟨session, ?_, rfl, rfl⟩
      rw [rows]
      exact List.mem_concat_self
  have revisions : ∀ ref, store.revision? ref = s.store.revision? ref := by
    intro ref
    rw [AgentStore.revision?, checkpoints]
    rfl
  refine ⟨⟨once, isOver, conflict, ?_, ?_, allocated⟩, ?_, ?_, known⟩
  · intro ref
    rw [← stored ref]
    exact congrArg (fun table => Table.lookup table ref) checkpoints
  · exact fun a left b right operation => (known a left).unique (known b right) operation
  · intro save member
    obtain ⟨r, before, less⟩ := inOrder.behind save member
    exact ⟨r, (revisions _).trans before, less⟩
  · intro checkpoint expected createdAt member
    rcases inOrder.compared checkpoint expected createdAt member with right | late
    · exact .inl ((revisions _).trans right)
    · exact .inr late

/-- What the transaction of a call does, and what it does next. -/
inductive StoreTaken (now : Time) (drawn : String) (s : StoreRun) :
    StoreCall → StoreRun × StoreCall → Prop
  | refused {call : StoreCall} {checkpoint : ContextCheckpoint} {expected : Option Nat}
      {session : Option KnoaAgentSession} {error : ContextError}
      (reason : ∀ read ∈ session, read.stateVersion = checkpoint.stateVersion → error = .conflict)
      (clean : s.CleanCall drawn call) :
      StoreTaken now drawn s call (s.refuse checkpoint expected session error, .ended)
  | read {call next : StoreCall}
      (right : ∀ checkpoint expected createdAt, next = .write checkpoint expected createdAt →
        s.store.revision? checkpoint.runtimeSessionRef = expected)
      (clean : s.CleanCall drawn call) : StoreTaken now drawn s call (s, next)
  | write {checkpoint row : ContextCheckpoint} {expected : Option Nat} {createdAt : Option Time}
      (of : row.runtimeSessionRef = checkpoint.runtimeSessionRef)
      (counts : row.revision = expected.getD 0 + 1) :
      StoreTaken now drawn s (.write checkpoint expected createdAt)
        (s.written now row expected, .ended)
  | inserted {operationId stateVersion : String} {left : Nat} {session : KnoaAgentSession}
      {store : AgentStore} (h : s.store.insertSession session = some store)
      (clean : s.CleanCall drawn (.insertSession operationId stateVersion left)) :
      StoreTaken now drawn s (.insertSession operationId stateVersion left)
        ({ s with store, created := s.created ++ [session] }, .ended)
  | exhausted {operationId stateVersion : String} {left : Nat}
      (unclean : ¬s.CleanCall drawn (.insertSession operationId stateVersion left)) :
      StoreTaken now drawn s (.insertSession operationId stateVersion left)
        ({ s with unallocated := s.unallocated ++ [operationId] }, .ended)

theorem nextAttempt_taken {operationId stateVersion : String} {left : Nat}
    (taken : ¬(s.store.session? operationId = none ∧ strip drawn ≠ "" ∧
      s.store.sessions.lookup (strip drawn) = none)) :
    StoreTaken now drawn s (.insertSession operationId stateVersion left)
      (s.nextAttempt operationId stateVersion left) := by
  match left with
  | 0 => exact .exhausted fun clean => taken (clean (Nat.zero_le _))
  | 1 => exact .exhausted fun clean => taken (clean le_rfl)
  | left + 2 =>
    refine .read nofun fun last => ?_
    omega

theorem perform_taken (now : Time) (drawn : String) (s : StoreRun) (call : StoreCall) :
    StoreTaken now drawn s call (s.perform now drawn call) := by
  cases call with
  | readSession checkpoint expected =>
    simp only [StoreRun.perform]
    split
    · exact .refused (by intro _ same; cases same) trivial
    · next session found =>
        split
        · exact .read (by intro _ _ _ write; cases write) trivial
        · next apart =>
            refine .refused (fun read same version => ?_) trivial
            cases same
            exact absurd version apart
  | readRevision checkpoint expected =>
    simp only [StoreRun.perform]
    split
    · next stands =>
        refine .read (fun checkpoint' expected' createdAt write => ?_) trivial
        cases write
        exact stands
    · exact .refused (fun _ _ _ => rfl) trivial
  | write checkpoint expected createdAt => exact .write rfl rfl
  | insertSession operationId stateVersion left =>
    simp only [StoreRun.perform]
    split
    · next empty => exact nextAttempt_taken fun free => free.2.1 empty
    · next named =>
        split
        · next refused =>
            refine nextAttempt_taken fun free => ?_
            exact insertSession_eq_none_iff.mp refused ⟨free.1, free.2.2⟩
        · next store inserted =>
            have free := insertSession_free inserted
            exact .inserted inserted fun _ => ⟨free.1, named, free.2⟩
  | ended => exact .read (by intro _ _ _ write; cases write) trivial

theorem InOrder.taken (inOrder : InOrder initial s) {after : StoreRun × StoreCall}
    (taken : StoreTaken now drawn s call after) (clean : s.CleanCall drawn call) :
    InOrder initial after.1 ∧ after.1.calls = s.calls ∧
      ∀ checkpoint expected createdAt, after.2 = .write checkpoint expected createdAt →
        after.1.store.revision? checkpoint.runtimeSessionRef = expected := by
  have isOver : ∀ (t : StoreRun) checkpoint expected createdAt,
      StoreCall.ended = .write checkpoint expected createdAt →
        t.store.revision? checkpoint.runtimeSessionRef = expected :=
    nofun
  cases taken with
  | refused reason _ => exact ⟨inOrder.refuse reason, rfl, isOver _⟩
  | read right _ => exact ⟨inOrder, rfl, right⟩
  | write of counts => exact ⟨inOrder.write (of.symm ▸ clean) counts, rfl, isOver _⟩
  | inserted h _ => exact ⟨inOrder.insert h, rfl, isOver _⟩
  | exhausted unclean => exact absurd clean unclean

theorem store_step_inOrder {a : StoreAct} (inOrder : InOrder initial s) (clean : s.Clean a)
    (h : s.step a = some s') : InOrder initial s' := by
  cases a with
  | createSession operationId stateVersion =>
    simp only [StoreRun.step] at h
    split at h
    · cases h
    · split at h <;> cases h
      · next existing found =>
          obtain ⟨once, isOver, conflict, stored, same, allocated⟩ := inOrder.linearizable
          have known : ∀ other ∈ s.created ++ [existing], Knows s.store other := by
            intro other member
            rcases List.mem_concat.mp member with old | new
            · exact inOrder.known other old
            · rw [new]
              exact ⟨existing, List.mem_of_find?_eq_some found, rfl, rfl⟩
          refine ⟨⟨once, isOver, conflict, stored, ?_, allocated⟩, inOrder.behind,
            inOrder.compared, known⟩
          exact fun a left b right operation => (known a left).unique (known b right) operation
      · exact inOrder.start nofun
  | saveCheckpoint checkpoint expected =>
    simp only [StoreRun.step] at h
    split at h <;> cases h
    exact inOrder.start nofun
  | advance i now drawn =>
    simp only [StoreRun.step] at h
    split at h <;> cases h
    next call listed =>
      obtain ⟨after, calls, right⟩ :=
        inOrder.taken (perform_taken now drawn s call) (clean call listed)
      refine after.replace fun checkpoint expected createdAt member => ?_
      rcases List.mem_or_eq_of_mem_set member with old | new
      · rw [← calls] at old
        exact after.compared checkpoint expected createdAt old
      · exact .inl (right checkpoint expected createdAt new.symm)

theorem store_step_shows {a : StoreAct} (inOrder : InOrder initial s) (unclean : ¬s.Clean a)
    (h : s.step a = some s') : ¬Linearizable initial s' := by
  cases a with
  | createSession operationId stateVersion | saveCheckpoint checkpoint expected =>
    exact absurd trivial unclean
  | advance i now drawn =>
    simp only [StoreRun.step] at h
    split at h <;> cases h
    next call listed =>
      have here : ¬s.CleanCall drawn call := fun clean => unclean fun other same => by
        rw [listed] at same
        cases same
        exact clean
      have member := List.mem_of_getElem? listed
      intro claimed
      have shown : Linearizable initial (s.perform now drawn call).1 :=
        ⟨claimed.once, claimed.isOver, claimed.conflict, claimed.stored, claimed.same,
          claimed.allocated⟩
      have taken := perform_taken now drawn s call
      generalize s.perform now drawn call = after at taken shown
      cases taken with
      | refused _ clean | read right clean | inserted h clean => exact here clean
      | write of counts => exact inOrder.late_write member of here shown
      | exhausted _ =>
        have none_left := shown.allocated
        exact absurd none_left (List.append_ne_nil_of_right_ne_nil _ (List.cons_ne_nil _ _))

/-- A run looks as if the calls came one after the other exactly where no revision, and no session
of an operation, has come between the read of a call and its write. -/
theorem checkpoints_linearizable (initial : AgentStore) (acts : List StoreAct) :
    (∀ s ∈ trace StoreRun.step { store := initial } acts, Linearizable initial s) ↔
      ∀ taken ∈ accepted StoreRun.step { store := initial } acts, taken.1.Clean taken.2 := by
  have nothing : ∀ {α : Type} {P : α → Prop}, ∀ x ∈ ([] : List α), P x :=
    fun _ member => absurd member List.not_mem_nil
  have start : InOrder initial { store := initial } :=
    ⟨⟨List.nodup_nil, nothing, nothing, fun _ => rfl, nothing, rfl⟩, nothing,
      fun _ _ _ member => absurd member List.not_mem_nil, nothing⟩
  exact Transition.trace_safe_iff_of_clean (fun _ inOrder => inOrder.linearizable)
    (fun _ _ _ inOrder clean h => store_step_inOrder inOrder clean h)
    (fun _ _ _ inOrder unclean h => store_step_shows inOrder unclean h) start

section Sample

def sampleSession : KnoaAgentSession where
  runtimeSessionRef := "r"
  operationId := "o"
  stateVersion := "1"
  createdAt := 0
  updatedAt := 0
  revision := 1

def sampleStore : AgentStore where
  sessions := ⟨[sampleSession], by decide⟩
  checkpoints := ⟨[], by decide⟩
  operations := by decide

def sampleCheckpoint (sourceCursor : Nat) : ContextCheckpoint where
  runtimeSessionRef := "r"
  stateVersion := "1"
  sourceCursor := sourceCursor
  agentConfigDigest := "a"
  modelContextDigest := "m"
  payload := .emptyObject
  revision := 1
  createdAt := 0
  updatedAt := 0

/-- Two Turns compare the revision before either of them writes. -/
def sampleSaves : List StoreAct :=
  [.saveCheckpoint (sampleCheckpoint 7) none, .saveCheckpoint (sampleCheckpoint 5) none,
    .advance 0 1 "", .advance 0 1 "", .advance 1 1 "", .advance 1 1 "", .advance 0 2 "",
    .advance 1 3 ""]

/-- Two calls look for an operation before either of them inserts its session. -/
def sampleCreations : List StoreAct :=
  [.createSession "new" "1", .createSession "new" "1", .advance 0 1 "x", .advance 1 2 "y1",
    .advance 1 2 "y2", .advance 1 2 "y3", .advance 1 2 "y4", .advance 1 2 "y5"]

/-- Both calls succeed with one expected revision, and the older checkpoint stays; of two calls
that create the session of one operation the second raises. -/
theorem checkpoint_overwritten :
    let saves := final StoreRun.step { store := sampleStore } sampleSaves
    let creations := final StoreRun.step { store := sampleStore } sampleCreations
    ¬Linearizable sampleStore saves ∧ ¬Linearizable sampleStore creations ∧
      saves.saved.map (fun save => (save.expected, save.row.revision)) = [(none, 1), (none, 1)] ∧
      saves.store.checkpoints.rows.map ContextCheckpoint.sourceCursor = [5] ∧
      creations.created.map KnoaAgentSession.runtimeSessionRef = ["x"] ∧
      creations.unallocated = ["new"] := by
  intro saves creations
  refine ⟨fun claimed => ?_, fun claimed => ?_, by decide +kernel, by decide +kernel,
    by decide +kernel, by decide +kernel⟩
  · have twice : ¬(saves.saved.map Saved.key).Nodup := by decide +kernel
    exact twice claimed.once
  · have raised : creations.unallocated ≠ [] := by decide +kernel
    exact raised claimed.allocated

end Sample

end Knoa.Context
