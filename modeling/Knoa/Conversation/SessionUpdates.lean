import Knoa.Conversation.TurnTerminality

/-!
# Session updates

`update_session` and `touch_session` read the row of a conversation before the transaction that
writes it back, so another call may fall in between.
-/
namespace Knoa.Conversation
open Knoa.Tasks Relational Transaction Transition

def defaultTitle : String := "新对话"

/-- The arguments of `update_session` and of `touch_session`. -/
inductive EditRequest
  | update (title : Option String) (state : Option ConversationSessionState)
      (expectedRevision : Option Int)
  | touch (firstInput : String)
  deriving DecidableEq

namespace EditRequest

/-- The revision that a call insists on. -/
def expects : EditRequest → Option Int
  | .update _ _ expectedRevision => expectedRevision
  | .touch _ => none

def renames : EditRequest → Bool
  | .update title _ _ => title.isSome
  | .touch _ => false

/-- What a call raises on the row it has read. -/
def check (row : ConversationSessionRow) : EditRequest → Except ConversationError Unit
  | .update title _ expectedRevision => do
    require (expectedRevision.all (fun revision => (row.revision : Int) = revision))
      (.sessionConflict row.sessionHandle)
    require (title.all (fun title => collapsed title ≠ "" ∧ (collapsed title).length ≤ 120))
      (.value "Conversation title must contain 1-120 characters")
  | .touch _ => .ok ()

def title (row : ConversationSessionRow) : EditRequest → String
  | .update title _ _ => (title.map collapsed).getD row.title
  | .touch firstInput =>
    if row.title = defaultTitle ∧ strip firstInput ≠ "" then
      ((collapsed firstInput).take 40).toString
    else row.title

/-- What the `UPDATE` makes of the stored row. -/
def write (now : Time) (row : ConversationSessionRow) (request : EditRequest)
    (current : ConversationSessionRow) : ConversationSessionRow :=
  { current with
    title := request.title row
    state :=
      match request with
      | .update _ state _ => state.getD row.state
      | .touch _ => current.state
    updatedAt := now
    revision := current.revision + 1 }

end EditRequest

inductive EditPhase
  | reading
  | writing (row : ConversationSessionRow)
  | done
  | raised (error : ConversationError)
  deriving DecidableEq

/-- The row that a call is about to write back. -/
def EditPhase.row : EditPhase → Option ConversationSessionRow
  | .writing row => some row
  | _ => none

structure SessionEdit where
  scope : RuntimeScope
  request : EditRequest
  phase : EditPhase := .reading
  deriving DecidableEq

/-- The repository with its calls of `update_session` and `touch_session`. -/
structure SessionEdits where
  store : ConversationStore
  edits : List SessionEdit := []

inductive EditAct
  | repository (op : ConversationOp)
  | begin (scope : RuntimeScope) (request : EditRequest)
  | read (i : Nat)
  | write (i : Nat) (now : Time)

namespace SessionEdits

def goTo (s : SessionEdits) (i : Nat) (edit : SessionEdit) (phase : EditPhase) : SessionEdits :=
  { s with edits := s.edits.set i { edit with phase } }

/-- `_owned_conversation_session` and the checks. -/
def read (s : SessionEdits) (edit : SessionEdit) : EditPhase :=
  match s.store.ownConversation edit.scope with
  | none => .raised .sessionNotFound
  | some row =>
    match edit.request.check row with
    | .error e => .raised e
    | .ok () => .writing row

/-- `UPDATE conversation_sessions .. WHERE session_handle=? AND principal_id=?`. -/
def updated (s : SessionEdits) (now : Time) (edit : SessionEdit) (row : ConversationSessionRow) :
    ConversationStore :=
  { s.store with
    conversations := s.store.conversations.update
      (fun other => other.sessionHandle == edit.scope.sessionHandle &&
        other.principalId == edit.scope.principalId)
      (edit.request.write now row) (by intro _; rfl) }

def step (s : SessionEdits) : EditAct → Option SessionEdits
  | .repository op => (s.store.step op).map (fun store => { s with store })
  | .begin scope request => some { s with edits := s.edits ++ [{ scope := scope, request }] }
  | .read i => (s.edits[i]?).bind (fun edit =>
    match edit.phase with
    | .reading => some (s.goTo i edit (s.read edit))
    | _ => none)
  | .write i now => (s.edits[i]?).bind (fun edit =>
    match edit.phase with
    | .writing row => some ({ s with store := s.updated now edit row }.goTo i edit .done)
    | _ => none)

def initial (sessions : Table SessionRow.sessionHandle) : SessionEdits where
  store := .initial sessions

def renamed (s : SessionEdits) (sessionHandle : String) : Prop :=
  ∃ edit ∈ s.edits, edit.phase = .done ∧ edit.request.renames = true ∧
    edit.scope.sessionHandle = sessionHandle

def OneSucceeds (s : SessionEdits) : Prop :=
  ∀ (i j : Nat) (edit other : SessionEdit) (revision : Int),
    s.edits[i]? = some edit → s.edits[j]? = some other →
    edit.phase = .done → other.phase = .done → edit.request.expects = some revision →
    other.request.expects = some revision →
    edit.scope.sessionHandle = other.scope.sessionHandle → i = j

end SessionEdits

/-- What a step keeps: a call that expects the revision of one that succeeded reports the
conflict, and a title that was set by a rename changes with the next rename only. -/
structure EditAct.Keeps (act : EditAct) (s t : SessionEdits) : Prop where
  refused : ∀ i edit revision, act = .read i → s.edits[i]? = some edit →
    edit.request.expects = some revision →
    (∃ other ∈ s.edits, other.phase = .done ∧ other.scope = edit.scope ∧
      other.request.expects = some revision) →
    t.store = s.store ∧ ∃ edit', t.edits[i]? = some edit' ∧
      edit'.phase = .raised (.sessionConflict edit.scope.sessionHandle)
  named : ∀ row ∈ s.store.conversations.rows, s.renamed row.sessionHandle →
    (∀ op, act = .repository op → row.title ≠ defaultTitle) →
    (∀ i now edit, act = .write i now → s.edits[i]? = some edit → edit.request.renames = false) →
    ∃ row' ∈ t.store.conversations.rows, row'.sessionHandle = row.sessionHandle ∧
      row'.title = row.title

instance (s : SessionEdits) (sessionHandle : String) : Decidable (s.renamed sessionHandle) := by
  unfold SessionEdits.renamed
  infer_instance

/-- The write of a call that expects a revision finds that revision, and one that writes the
title back finds the title it read; a first input finds no default title set by a rename. -/
def EditAct.Fresh (s : SessionEdits) : EditAct → Prop
  | .write i _ => ∀ edit ∈ s.edits[i]?, ∀ row ∈ edit.phase.row,
      ∀ current ∈ s.store.ownConversation edit.scope,
      (edit.request.expects ≠ none → current.revision = row.revision) ∧
      (edit.request.renames = false → current.title = row.title ∧
        (s.renamed edit.scope.sessionHandle → edit.request.title row = row.title))
  | _ => True

instance (s : SessionEdits) (act : EditAct) : Decidable (act.Fresh s) := by
  unfold EditAct.Fresh
  split <;> infer_instance

section Rows

variable {s t : ConversationStore}

theorem ownConversation_eq_some_iff {scope : RuntimeScope} {row : ConversationSessionRow} :
    s.ownConversation scope = some row ↔ row ∈ s.conversations.rows ∧
      row.sessionHandle = scope.sessionHandle ∧ row.principalId = scope.principalId := by
  unfold ConversationStore.ownConversation
  rw [Option.filter_eq_some_iff, Table.lookup_eq_some_iff, beq_iff_eq]
  exact and_assoc

/-- A conversation stays, its revision does not fall, and the titles of some stay. -/
def KeepsConversations (titled : ConversationSessionRow → Prop) (s t : ConversationStore) : Prop :=
  ∀ row ∈ s.conversations.rows, ∃ row' ∈ t.conversations.rows,
    row'.sessionHandle = row.sessionHandle ∧ row'.principalId = row.principalId ∧
      row.revision ≤ row'.revision ∧ (titled row → row'.title = row.title)

theorem KeepsConversations.of_same {titled : ConversationSessionRow → Prop}
    (same : t.conversations = s.conversations) : KeepsConversations titled s t :=
  fun row member => ⟨row, same ▸ member, rfl, rfl, le_rfl, fun _ => rfl⟩

theorem openConversation_mem {now : Time} {title : String} {scope : RuntimeScope}
    {conversations : Table ConversationSessionRow.sessionHandle}
    (h : openConversation now title scope s = .ok conversations) {row : ConversationSessionRow}
    (member : row ∈ s.conversations.rows) : row ∈ conversations.rows := by
  unfold openConversation at h
  split at h
  · cases h
    exact member
  · have inserted := orRaise_ok_iff.mp h
    rw [Table.insert_rows inserted]
    exact List.mem_append_left _ member

theorem create_keepsConversations {now : Time} {turnId : String} {request : ChatTurnRequest}
    {result : ChatTurnRow × Bool} (h : create now turnId request s = .ok (result, t)) :
    KeepsConversations (fun row => row.title ≠ defaultTitle) s t := by
  obtain ⟨-, -, -, -, h⟩ := of_bind₂ h
  split at h
  · obtain ⟨-, -, h⟩ := of_bind h
    cases h
    exact .of_same rfl
  · obtain ⟨-, -, conversations, opened, turns, -, h⟩ := of_bind₃ h
    cases h
    intro row member
    have present := openConversation_mem opened member
    refine ⟨_, List.mem_map_of_mem present, ?_⟩
    split
    · refine ⟨rfl, rfl, Nat.le_succ _, ?_⟩
      intro named
      exact if_neg named
    · exact ⟨rfl, rfl, le_rfl, fun _ => rfl⟩

theorem conversation_step_keeps {op : ConversationOp} (h : s.step op = some t) :
    KeepsConversations (fun row => row.title ≠ defaultTitle) s t := by
  cases op with
  | create now turnId request =>
    obtain ⟨result, made⟩ := outcome_some h
    exact create_keepsConversations (commit_ok_iff.mp made)
  | checkpoint now principalId turnId values =>
    refine .of_same ?_
    cases conversation_step_taken h with
    | same => rfl
    | checkpointed => split <;> rfl
  | _ =>
    refine .of_same ?_
    cases conversation_step_taken h <;> rfl

end Rows

section Invariant

variable {s t : SessionEdits} {act : EditAct}

/-- What the calls have to do with the rows: a success has moved the revision on, and a call
that is about to write has found its row. -/
structure EditsSound (s : SessionEdits) : Prop where
  succeeded : ∀ edit ∈ s.edits, edit.phase = .done → ∀ revision : Int,
    edit.request.expects = some revision →
    ∃ row ∈ s.store.conversations.rows, row.sessionHandle = edit.scope.sessionHandle ∧
      row.principalId = edit.scope.principalId ∧ revision < row.revision
  found : ∀ edit ∈ s.edits, ∀ row, edit.phase = .writing row →
    (∃ current ∈ s.store.conversations.rows, current.sessionHandle = edit.scope.sessionHandle ∧
        current.principalId = edit.scope.principalId) ∧
      ∀ revision : Int, edit.request.expects = some revision → (row.revision : Int) = revision
  one : s.OneSucceeds

variable {request : EditRequest} {row : ConversationSessionRow} {revision : Int}
  {edit : SessionEdit}

theorem check_ok (h : request.check row = .ok ())
    (expects : request.expects = some revision) : (row.revision : Int) = revision := by
  cases request with
  | touch firstInput => cases expects
  | update title state expectedRevision =>
    obtain ⟨_, required, -⟩ := of_bind h
    have all := Transaction.require_ok_iff.mp required
    subst expects
    simpa using all

theorem check_conflict
    (expects : request.expects = some revision) (moved : (row.revision : Int) ≠ revision) :
    request.check row = .error (.sessionConflict row.sessionHandle) := by
  cases request with
  | touch firstInput => cases expects
  | update title state expectedRevision =>
    subst expects
    have fails : ¬ (some revision).all (fun revision => (row.revision : Int) = revision) := by
      simpa using moved
    simp only [EditRequest.check, Transaction.require_of_not fails]
    rfl

theorem read_writing
    (h : s.read edit = .writing row) : s.store.ownConversation edit.scope = some row ∧
      edit.request.check row = .ok () := by
  unfold SessionEdits.read at h
  split at h
  · cases h
  · rename_i own
    split at h <;> cases h
    rename_i checked
    exact ⟨own, checked⟩

theorem read_ne_done (edit : SessionEdit) : s.read edit ≠ .done := by
  unfold SessionEdits.read
  split
  · simp
  · split <;> simp

theorem updated_keeps {now : Time} :
    KeepsConversations (fun current => edit.request.title row = current.title ∨
      current.sessionHandle ≠ edit.scope.sessionHandle) s.store (s.updated now edit row) := by
  intro current member
  refine ⟨_, List.mem_map_of_mem member, ?_⟩
  split
  · rename_i selected
    refine ⟨rfl, rfl, Nat.le_succ _, ?_⟩
    rintro (same | other)
    · exact same
    · simp [other] at selected
  · exact ⟨rfl, rfl, le_rfl, fun _ => rfl⟩

theorem updated_revision {now : Time} {current : ConversationSessionRow}
    (own : s.store.ownConversation edit.scope = some current) :
    ∃ row' ∈ (s.updated now edit row).conversations.rows,
      row'.sessionHandle = edit.scope.sessionHandle ∧
        row'.principalId = edit.scope.principalId ∧ row'.revision = current.revision + 1 := by
  obtain ⟨member, handle, principal⟩ := ownConversation_eq_some_iff.mp own
  refine ⟨_, List.mem_map_of_mem member, ?_⟩
  rw [if_pos (by simp [handle, principal])]
  exact ⟨handle, principal, rfl⟩

/-- A step, by what it does to the calls and to the rows. -/
inductive EditTaken (s : SessionEdits) : EditAct → SessionEdits → Prop
  | called {op : ConversationOp} {store : ConversationStore}
      (keeps : KeepsConversations (fun row => row.title ≠ defaultTitle) s.store store) :
      EditTaken s (.repository op) { s with store }
  | begun {scope : RuntimeScope} {request : EditRequest} :
      EditTaken s (.begin scope request)
        { s with edits := s.edits ++ [{ scope := scope, request }] }
  | read {i : Nat} {edit : SessionEdit} (here : s.edits[i]? = some edit)
      (phase : edit.phase = .reading) :
      EditTaken s (.read i) (s.goTo i edit (s.read edit))
  | written {i : Nat} {now : Time} {edit : SessionEdit} {row : ConversationSessionRow}
      (here : s.edits[i]? = some edit) (phase : edit.phase = .writing row) :
      EditTaken s (.write i now) ({ s with store := s.updated now edit row }.goTo i edit .done)

theorem edit_step_taken (h : s.step act = some t) : EditTaken s act t := by
  cases act with
  | repository op =>
    obtain ⟨store, made, rfl⟩ := Option.map_eq_some_iff.mp h
    exact .called (conversation_step_keeps made)
  | begin scope request =>
    cases h
    exact .begun
  | read i =>
    obtain ⟨edit, here, h⟩ := Option.bind_eq_some_iff.mp h
    split at h <;> cases h
    rename_i phase
    exact .read here phase
  | write i now =>
    obtain ⟨edit, here, h⟩ := Option.bind_eq_some_iff.mp h
    split at h <;> cases h
    rename_i row phase
    exact .written here phase

theorem goTo_getElem? {i j : Nat} {other : SessionEdit} {phase : EditPhase}
    (h : (s.goTo i edit phase).edits[j]? = some other) :
    j = i ∧ other = { edit with phase } ∨ s.edits[j]? = some other := by
  change (s.edits.set i _)[j]? = _ at h
  by_cases here : i = j
  · subst here
    rw [List.getElem?_set_self'] at h
    obtain ⟨-, -, rfl⟩ := Option.map_eq_some_iff.mp h
    exact Or.inl ⟨rfl, rfl⟩
  · rw [List.getElem?_set_ne here] at h
    exact Or.inr h

theorem KeepsConversations.succeeded {titled : ConversationSessionRow → Prop}
    {store store' : ConversationStore} (keeps : KeepsConversations titled store store')
    {scope : RuntimeScope}
    (h : ∃ row ∈ store.conversations.rows, row.sessionHandle = scope.sessionHandle ∧
      row.principalId = scope.principalId ∧ revision < row.revision) :
    ∃ row ∈ store'.conversations.rows, row.sessionHandle = scope.sessionHandle ∧
      row.principalId = scope.principalId ∧ revision < row.revision := by
  obtain ⟨row, member, handle, principal, beyond⟩ := h
  obtain ⟨row', member', handle', principal', later, -⟩ := keeps row member
  exact ⟨row', member', handle'.trans handle, principal'.trans principal, by omega⟩

theorem KeepsConversations.found {titled : ConversationSessionRow → Prop}
    {store store' : ConversationStore} (keeps : KeepsConversations titled store store')
    {scope : RuntimeScope}
    (h : ∃ row ∈ store.conversations.rows, row.sessionHandle = scope.sessionHandle ∧
      row.principalId = scope.principalId) :
    ∃ row ∈ store'.conversations.rows, row.sessionHandle = scope.sessionHandle ∧
      row.principalId = scope.principalId := by
  obtain ⟨row, member, handle, principal⟩ := h
  obtain ⟨row', member', handle', principal', -⟩ := keeps row member
  exact ⟨row', member', handle'.trans handle, principal'.trans principal⟩

theorem EditsSound.keeps (h : EditsSound s) {titled : ConversationSessionRow → Prop}
    {store : ConversationStore} (keeps : KeepsConversations titled s.store store) :
    EditsSound { s with store } where
  succeeded edit member done revision expects :=
    keeps.succeeded (h.succeeded edit member done revision expects)
  found edit member row phase :=
    ⟨keeps.found (h.found edit member row phase).1, (h.found edit member row phase).2⟩
  one := h.one

theorem EditsSound.goTo (h : EditsSound s) {i : Nat} {edit : SessionEdit} {phase : EditPhase}
    (open_call : phase ≠ .done)
    (found : ∀ row, phase = .writing row → (∃ current ∈ s.store.conversations.rows,
      current.sessionHandle = edit.scope.sessionHandle ∧
        current.principalId = edit.scope.principalId) ∧
      ∀ revision : Int, edit.request.expects = some revision →
        (row.revision : Int) = revision) : EditsSound (s.goTo i edit phase) where
  succeeded other member done revision expects := by
    rcases List.mem_or_eq_of_mem_set member with known | rfl
    · exact h.succeeded other known done revision expects
    · exact absurd done open_call
  found other member row writing := by
    rcases List.mem_or_eq_of_mem_set member with known | rfl
    · exact h.found other known row writing
    · exact found row writing
  one j k other other' revision here there done done' expects expects' same := by
    rcases goTo_getElem? here with ⟨-, rfl⟩ | here
    · exact absurd done open_call
    · rcases goTo_getElem? there with ⟨-, rfl⟩ | there
      · exact absurd done' open_call
      · exact h.one j k other other' revision here there done done' expects expects' same

theorem EditsSound.unmatched (h : EditsSound s) {i : Nat} {now : Time} {edit : SessionEdit}
    {row : ConversationSessionRow} (here : s.edits[i]? = some edit)
    (phase : edit.phase = .writing row) (fresh : (EditAct.write i now).Fresh s) {revision : Int}
    (expects : edit.request.expects = some revision) :
    ∀ other ∈ s.edits, other.phase = .done → other.request.expects = some revision →
      other.scope.sessionHandle ≠ edit.scope.sessionHandle := by
  intro other member done expects' same
  obtain ⟨⟨current, present, handle, principal⟩, exact_revision⟩ :=
    h.found edit (List.mem_of_getElem? here) row phase
  have own := ownConversation_eq_some_iff.mpr ⟨present, handle, principal⟩
  have unmoved := (fresh edit here row (by rw [phase]; rfl) current own).1 (by simp [expects])
  obtain ⟨later, present', handle', -, beyond⟩ := h.succeeded other member done revision expects'
  have one : later = current :=
    Table.mem_unique present' present (handle'.trans (same.trans handle.symm))
  have known := exact_revision revision expects
  rw [one, unmoved, known] at beyond
  exact lt_irrefl _ beyond

theorem EditsSound.written (h : EditsSound s) {i : Nat} {now : Time} {edit : SessionEdit}
    {row : ConversationSessionRow} (here : s.edits[i]? = some edit)
    (phase : edit.phase = .writing row) (fresh : (EditAct.write i now).Fresh s) :
    EditsSound ({ s with store := s.updated now edit row }.goTo i edit .done) where
  succeeded other member done revision expects := by
    rcases List.mem_or_eq_of_mem_set member with known | rfl
    · exact updated_keeps.succeeded (h.succeeded other known done revision expects)
    · obtain ⟨⟨current, present, handle, principal⟩, exact_revision⟩ :=
        h.found edit (List.mem_of_getElem? here) row phase
      have own := ownConversation_eq_some_iff.mpr ⟨present, handle, principal⟩
      have unmoved := (fresh edit here row (by rw [phase]; rfl) current own).1
        (fun none => by simp [none] at expects)
      obtain ⟨row', member', handle', principal', moved⟩ := updated_revision own
      refine ⟨row', member', handle', principal', ?_⟩
      have known := exact_revision revision expects
      omega
  found other member row' writing := by
    rcases List.mem_or_eq_of_mem_set member with known | rfl
    · exact ⟨updated_keeps.found (h.found other known row' writing).1,
        (h.found other known row' writing).2⟩
    · cases writing
  one j k other other' revision at_j at_k done done' expects expects' same := by
    have apart := @EditsSound.unmatched s h i now edit row here phase fresh revision
    rcases goTo_getElem? at_j with ⟨rfl, rfl⟩ | known
    · rcases goTo_getElem? at_k with ⟨rfl, -⟩ | known'
      · rfl
      · exact absurd same.symm
          (apart expects other' (List.mem_of_getElem? known') done' expects')
    · rcases goTo_getElem? at_k with ⟨rfl, rfl⟩ | known'
      · exact absurd same (apart expects' other (List.mem_of_getElem? known) done expects)
      · exact h.one j k other other' revision known known' done done' expects expects' same

theorem begun_done {scope : RuntimeScope} {j : Nat}
    (h : (s.edits ++ [{ scope := scope, request }])[j]? = some edit)
    (done : edit.phase = .done) : s.edits[j]? = some edit := by
  by_cases old : j < s.edits.length
  · rwa [List.getElem?_append_left old] at h
  · rw [List.getElem?_append_right (Nat.le_of_not_lt old)] at h
    have new := List.mem_singleton.mp (List.mem_of_getElem? h)
    rw [new] at done
    cases done

theorem edits_sound_step (h : EditsSound s) (fresh : act.Fresh s) (taken : EditTaken s act t) :
    EditsSound t := by
  cases taken with
  | called keeps => exact h.keeps keeps
  | @begun scope request =>
    refine ⟨?_, ?_, ?_⟩
    · intro edit member done revision expects
      rcases List.mem_concat.mp member with known | new
      · exact h.succeeded edit known done revision expects
      · rw [new] at done
        cases done
    · intro edit member row writing
      rcases List.mem_concat.mp member with known | new
      · exact h.found edit known row writing
      · rw [new] at writing
        cases writing
    · intro j k edit other revision at_j at_k done done' expects expects' same
      exact h.one j k edit other revision (begun_done at_j done) (begun_done at_k done') done
        done' expects expects' same
  | @read i edit here phase =>
    refine h.goTo (read_ne_done edit) ?_
    intro row writing
    obtain ⟨own, checked⟩ := read_writing writing
    obtain ⟨member, handle, principal⟩ := ownConversation_eq_some_iff.mp own
    exact ⟨⟨row, member, handle, principal⟩, fun revision => check_ok checked⟩
  | written here phase => exact h.written here phase fresh

theorem edits_keep (h : EditsSound s) (fresh : act.Fresh s) (taken : EditTaken s act t) :
    act.Keeps s t := by
  refine ⟨?_, ?_⟩
  · rintro i edit revision rfl here expects ⟨other, member, done, scope, expects'⟩
    cases taken with
    | @read i' edit' here' phase =>
      rw [here, Option.some.injEq] at here'
      subst here'
      obtain ⟨row, present, handle, principal, beyond⟩ :=
        h.succeeded other member done revision expects'
      rw [scope] at handle principal
      have own := ownConversation_eq_some_iff.mpr ⟨present, handle, principal⟩
      have refused : s.read edit = .raised (.sessionConflict edit.scope.sessionHandle) := by
        unfold SessionEdits.read
        rw [own]
        dsimp only
        rw [check_conflict expects (by omega), handle]
      refine ⟨rfl, { edit with phase := s.read edit }, ?_, refused⟩
      have bound := (List.getElem?_eq_some_iff.mp here).1
      exact List.getElem?_set_self bound
  · intro row member renamed created edited
    cases taken with
    | called keeps =>
      obtain ⟨row', member', handle, -, -, titled⟩ := keeps row member
      exact ⟨row', member', handle, titled (created _ rfl)⟩
    | begun | read => exact ⟨row, member, rfl, rfl⟩
    | @written i now edit read here phase =>
      obtain ⟨row', member', handle, -, -, titled⟩ := updated_keeps row member
      refine ⟨row', member', handle, titled ?_⟩
      by_cases named : row.sessionHandle = edit.scope.sessionHandle
      · left
        obtain ⟨⟨current, present, handle', principal⟩, -⟩ :=
          h.found edit (List.mem_of_getElem? here) read phase
        have own := ownConversation_eq_some_iff.mpr ⟨present, handle', principal⟩
        have unmoved := (fresh edit here read (by rw [phase]; rfl) current own).2
          (edited i now edit rfl here)
        have one : current = row := Table.mem_unique present member (handle'.trans named.symm)
        rw [named] at renamed
        rw [unmoved.2 renamed, ← unmoved.1, one]
      · exact Or.inr named

theorem initial_editsSound (sessions : Table SessionRow.sessionHandle) :
    EditsSound (.initial sessions) where
  succeeded := by simp [SessionEdits.initial]
  found := by simp [SessionEdits.initial]
  one := by simp [SessionEdits.OneSucceeds, SessionEdits.initial]

end Invariant

/-- Every run whose writes find what their calls have read: one call per expected revision
succeeds at most, the others report the conflict, and a rename is not undone. -/
theorem session_updates_kept (sessions : Table SessionRow.sessionHandle) (acts : List EditAct)
    (fresh : ∀ taken ∈ accepted SessionEdits.step (.initial sessions) acts, taken.2.Fresh taken.1) :
    (∀ s ∈ trace SessionEdits.step (.initial sessions) acts, s.OneSucceeds) ∧
      ∀ taken ∈ accepted SessionEdits.step (.initial sessions) acts, ∀ t,
        SessionEdits.step taken.1 taken.2 = some t → taken.2.Keeps taken.1 t := by
  have kept : ∀ s act t, EditsSound s → EditAct.Fresh s act → SessionEdits.step s act = some t →
      EditsSound t :=
    fun _ _ _ h fresh stepped => edits_sound_step h fresh (edit_step_taken stepped)
  have start := initial_editsSound sessions
  constructor
  · intro s member
    exact (Transition.trace_safe_of_clean kept start fresh s member).one
  · have good : ∀ s act t, EditsSound s → EditAct.Fresh s act → SessionEdits.step s act = some t →
        ∀ t', SessionEdits.step s act = some t' → act.Keeps s t' :=
      fun _ _ _ h fresh _ _ stepped => edits_keep h fresh (edit_step_taken stepped)
    exact Transition.accepted_of_clean kept good start fresh

section Sample

def sampleSessionEdits : SessionEdits := .initial Knoa.Tasks.sampleSessions

def sampleScope : RuntimeScope := { principalId := "p", sessionHandle := "s" }

/-- The first turn opens the conversation. -/
def openedSession : List EditAct :=
  [.repository (.create 0 "t" { scope := sampleScope, clientRequestId := "r", userInput := "hello" })]

def rename (title : String) : EditAct := .begin sampleScope (.update (some title) none (some 2))

/-- Two calls read revision 2 before either writes. -/
def racedRenames : List EditAct :=
  openedSession ++ [rename "a", rename "b", .read 0, .read 1, .write 0 1, .write 1 2]

def touchedBefore : List EditAct :=
  openedSession ++ [rename "a", .begin sampleScope (.touch ""), .read 0, .read 1, .write 0 1]

/-- Both renames succeed, and the touch writes the old title back. -/
theorem raced_edits_collide :
    (¬ ∀ s ∈ trace SessionEdits.step sampleSessionEdits racedRenames, s.OneSucceeds) ∧
      ¬ ∀ taken ∈ accepted SessionEdits.step sampleSessionEdits (touchedBefore ++ [.write 1 2]),
        ∀ t, SessionEdits.step taken.1 taken.2 = some t → taken.2.Keeps taken.1 t := by
  constructor
  · intro along
    have one := along _ (Transition.mem_trace_final _ _)
    have edits : (final SessionEdits.step sampleSessionEdits racedRenames).edits =
        [{ scope := sampleScope, request := .update (some "a") none (some 2), phase := .done },
          { scope := sampleScope, request := .update (some "b") none (some 2), phase := .done }] := by
      decide +kernel
    unfold SessionEdits.OneSucceeds at one
    rw [edits] at one
    exact absurd (one 0 1 _ _ 2 rfl rfl rfl rfl rfl rfl rfl) (by decide)
  · intro along
    let s := final SessionEdits.step sampleSessionEdits touchedBefore
    obtain ⟨t, stepped⟩ : ∃ t, s.step (.write 1 2) = some t :=
      Option.isSome_iff_exists.mp (by decide +kernel)
    have keeps := along _ (Transition.mem_accepted_last stepped) t stepped
    obtain ⟨row, member, handle, title⟩ : ∃ row ∈ s.store.conversations.rows,
        row.sessionHandle = "s" ∧ row.title = "a" := by
      decide +kernel
    have renamed : s.renamed "s" := by decide +kernel
    have touch : ∀ edit ∈ s.edits[1]?, edit.request.renames = false := by decide +kernel
    have reverted : ∀ t ∈ s.step (.write 1 2), ∀ row ∈ t.store.conversations.rows,
        row.title = "hello" := by
      decide +kernel
    obtain ⟨row', member', -, kept⟩ := keeps.named row member (handle ▸ renamed) (by simp)
      (by
        rintro i now edit same here
        cases same
        exact touch edit here)
    rw [reverted t stepped row' member', title] at kept
    exact absurd kept (by decide)

/-- One call after the other. -/
def sampleRenamed : List EditAct :=
  openedSession ++ [rename "a", .read 0, .write 0 1, .begin sampleScope (.touch "x"), .read 1,
    .write 1 2, rename "b", .read 2]

theorem session_updates_kept_sample :
    (∀ s ∈ trace SessionEdits.step sampleSessionEdits sampleRenamed, s.OneSucceeds) ∧
      ∀ taken ∈ accepted SessionEdits.step sampleSessionEdits sampleRenamed, ∀ t,
        SessionEdits.step taken.1 taken.2 = some t → taken.2.Keeps taken.1 t :=
  session_updates_kept _ _ (by decide +kernel)

end Sample

end Knoa.Conversation
