import Knoa.Conversation.LiveUpdates

/-!
# Updates in order

What a subscriber of a turn receives: revisions that do not fall, and the turn's end as the last
one. Nothing compares what is published with what the subscription holds.
-/
namespace Knoa.Conversation
open Knoa.Tasks Relational Transaction Transition

section Turn

variable {store store' : ConversationStore} {turnId : String} {row : ChatTurnRow}

/-- What a call of a client makes of a turn: nothing, once it has ended. -/
structure ChatTurnRow.Moved (row row' : ChatTurnRow) : Prop where
  principal : row'.principalId = row.principalId
  ended : row.state.isTerminal = true → row' = row
  live : row.state.isTerminal = false → row'.state.isTerminal = false ∧ row.revision ≤ row'.revision

theorem ChatTurnRow.Moved.refl (row : ChatTurnRow) : row.Moved row where
  principal := rfl
  ended _ := rfl
  live open_turn := ⟨open_turn, le_rfl⟩

def ConversationStore.isOpen (s : ConversationStore) (turnId : String) : Prop :=
  ∀ row ∈ s.turns.lookup turnId, row.state.isTerminal = false

instance (s : ConversationStore) (turnId : String) : Decidable (s.isOpen turnId) := by
  unfold ConversationStore.isOpen
  infer_instance

/-- No late approval takes the turn back. -/
def ConversationOp.InTime (s : ConversationStore) (turnId : String) : ConversationOp → Prop
  | .requestApproval _ _ named stepId _ _ _ => named = turnId →
      (∀ approval ∈ s.approvals.rows, ¬(approval.turnId = turnId ∧ approval.stepId = stepId)) →
        s.isOpen turnId
  | .resolveApproval _ _ approvalId _ _ => ∀ approval ∈ s.approvals.lookup approvalId,
      approval.state = .pending → approval.turnId = turnId → s.isOpen turnId
  | _ => True

instance (s : ConversationStore) (turnId : String) (op : ConversationOp) :
    Decidable (op.InTime s turnId) := by
  unfold ConversationOp.InTime
  split <;> infer_instance

theorem create_row {now : Time} {request : ChatTurnRequest} {created : Bool}
    (h : create now turnId request store = .ok ((row, created), store')) :
    created = false ∧ store' = store ∨
      row.turnId = strip turnId ∧ row.state = .running ∧
        store.turns.insert row = some store'.turns := by
  obtain ⟨-, -, -, -, h⟩ := of_bind₂ h
  split at h
  · obtain ⟨-, -, h⟩ := of_bind h
    cases h
    exact Or.inl ⟨rfl, rfl⟩
  · obtain ⟨-, -, conversations, -, turns, inserted, h⟩ := of_bind₃ h
    cases h
    exact Or.inr ⟨rfl, rfl, orRaise_ok_iff.mp inserted⟩

theorem lookup_updateTurns {p : ChatTurnRow → Bool} {f : ChatTurnRow → ChatTurnRow}
    {keep : ∀ row, (f row).turnId = row.turnId} (id : String) :
    (store.updateTurns p f keep).turns.lookup id =
      (store.turns.lookup id).map (fun row => if p row then f row else row) :=
  Table.lookup_update store.turns p f keep id

/-- What the turn that is followed becomes in another store. -/
def TurnMoved (turnId : String) (s t : ConversationStore) : Prop :=
  (s.turns.lookup turnId = none → t.turns.lookup turnId = none) ∧
    ∀ row ∈ s.turns.lookup turnId, ∃ row' ∈ t.turns.lookup turnId, row.Moved row'

theorem TurnMoved.of_same (same : store'.turns.lookup turnId = store.turns.lookup turnId) :
    TurnMoved turnId store store' := by
  refine ⟨fun none => same.trans none, ?_⟩
  intro row found
  exact ⟨row, same.trans found, .refl row⟩

theorem TurnMoved.of_update {p : ChatTurnRow → Bool} {f : ChatTurnRow → ChatTurnRow}
    {keep : ∀ row, (f row).turnId = row.turnId}
    (moves : ∀ row ∈ store.turns.lookup turnId, p row = true → row.Moved (f row)) :
    TurnMoved turnId store (store.updateTurns p f keep) := by
  refine ⟨?_, ?_⟩
  · intro none
    rw [lookup_updateTurns, none]
    rfl
  · intro row found
    rw [lookup_updateTurns, found]
    refine ⟨_, rfl, ?_⟩
    dsimp only
    split
    · rename_i selected
      exact moves row found selected
    · exact .refl row

theorem ChatTurnRow.Moved.of_open {row row' : ChatTurnRow} (live : row.state.isTerminal = false)
    (principal : row'.principalId = row.principalId) (live' : row'.state.isTerminal = false)
    (later : row.revision ≤ row'.revision) : row.Moved row' where
  principal := principal
  ended ended := by
    rw [live] at ended
    cases ended
  live _ := ⟨live', later⟩

theorem client_step_moved {op : ConversationOp} (clients : op.byClients turnId = true)
    (inTime : op.InTime store turnId) (h : store.step op = some store') :
    TurnMoved turnId store store' := by
  cases op with
  | create now named request =>
    obtain ⟨⟨row, created⟩, made⟩ := outcome_some h
    rcases create_row (commit_ok_iff.mp made) with ⟨-, rfl⟩ | ⟨names, -, inserted⟩
    · exact .of_same rfl
    · have apart : row.turnId ≠ turnId := by
        rw [names]
        simpa [ConversationOp.byClients] using clients
      have kept := Table.lookup_insert inserted turnId
      rw [if_neg apart] at kept
      exact .of_same kept
  | checkpoint | recoverInterrupted => cases clients
  | requestCancel now principalId named =>
    cases conversation_step_taken h with
    | same => exact .of_same rfl
    | cancelRequested =>
      refine .of_update ?_
      intro row found selected
      have live : row.state.isTerminal = false := by
        simp only [Bool.and_eq_true, Bool.not_eq_true'] at selected
        exact selected.2
      exact .of_open live rfl live (Nat.le_succ _)
  | requestApproval now principalId named stepId approvalId call reason =>
    cases conversation_step_taken h with
    | same => exact .of_same rfl
    | requested new of inserted =>
      refine @TurnMoved.of_update { store with approvals := _ } turnId _ _ _ ?_
      intro row found selected
      have names : named = turnId := (beq_iff_eq.mp selected).symm.trans (Table.lookup_key found)
      have live := inTime names (names ▸ new) row found
      exact .of_open live rfl rfl (Nat.le_succ _)
  | resolveApproval now principalId approvalId approved resolvedBy =>
    cases conversation_step_taken h with
    | same => exact .of_same rfl
    | @resolved _ _ _ _ _ approval found pending =>
      refine @TurnMoved.of_update (store.updateApprovals _ _ _) turnId _ _ _ ?_
      intro row held selected
      have names : approval.turnId = turnId :=
        (beq_iff_eq.mp selected).symm.trans (Table.lookup_key held)
      have live := inTime approval found pending names row held
      exact .of_open live rfl rfl (Nat.le_succ _)
  | _ => cases conversation_step_taken h <;> exact .of_same rfl

end Turn

/-- What a subscriber has received: revisions in order, the stored end of the turn as the last
one where the call has returned, and no call that waits once nothing is to come. -/
structure LiveFeed.InOrder (s : LiveFeed) : Prop where
  ordered : (s.updates.received.map ChatTurnRow.revision).Pairwise (· ≤ ·)
  ended : s.updates.phase = .ended → ∃ row, s.turn = some row ∧ row.state.isTerminal = true ∧
    s.updates.received.getLast? = some row
  served : s.execute = .gone → s.updates.phase = .waiting → s.updates.queue ≠ none

/-- What the subscription holds is not replaced by something older. -/
def LiveFeed.Replaces (s t : LiveFeed) : Prop :=
  ∀ old ∈ s.updates.queue, ∀ new ∈ t.updates.queue, old.revision ≤ new.revision

def Notifier.row (notifier : Notifier) : Option ChatTurnRow :=
  match notifier.publishes, notifier.phase with
  | true, .composing row => some row
  | _, _ => none

def UpdatesPhase.row : UpdatesPhase → Option ChatTurnRow
  | .composing row => some row
  | _ => none

/-- A notifier that read the turn before its end publishes neither over that end nor after the live
turn is gone, a snapshot finds nothing older queued, and an ended turn is not taken back. -/
def LiveAct.Timely (s : LiveFeed) : LiveAct → Prop
  | .repository op => op.InTime s.store s.turnId
  | .compose i => ∀ notifier ∈ s.notifiers[i]?, ∀ row ∈ notifier.row,
      s.updates.phase.listed = true → row.state.isTerminal = false →
        s.live.isSome ∧ ∀ queued ∈ s.updates.queue, queued.state.isTerminal = false
  | .snapshot => ∀ row ∈ s.updates.phase.row, row.state.isTerminal = false →
      ∀ queued ∈ s.updates.queue, (s.getTurn row).revision ≤ queued.revision
  | _ => True

instance (s : LiveFeed) (act : LiveAct) : Decidable (act.Timely s) := by
  unfold LiveAct.Timely
  split <;> infer_instance

section Feed

variable {s t : LiveFeed} {stored stored' row : ChatTurnRow}

/-- A row that was read from a turn that is stored as `stored` by now. -/
structure ReadFrom (stored row : ChatTurnRow) : Prop where
  principal : row.principalId = stored.principalId
  ended : row.state.isTerminal = true → row = stored
  live : row.state.isTerminal = false → row.revision ≤ stored.revision ∧
    (stored.state.isTerminal = true → row.revision < stored.revision)

theorem ReadFrom.refl (stored : ChatTurnRow) : ReadFrom stored stored where
  principal := rfl
  ended _ := rfl
  live open_turn := ⟨le_rfl, fun ended => by rw [open_turn] at ended; cases ended⟩

theorem ReadFrom.moved (h : ReadFrom stored row) (moved : stored.Moved stored') :
    ReadFrom stored' row where
  principal := h.principal.trans moved.principal.symm
  ended ended := by
    have same := h.ended ended
    rw [moved.ended (same ▸ ended), same]
  live open_turn := by
    obtain ⟨older, before⟩ := h.live open_turn
    cases state : stored.state.isTerminal with
    | true =>
      rw [moved.ended state]
      exact ⟨older, before⟩
    | false =>
      obtain ⟨live, later⟩ := moved.live state
      refine ⟨older.trans later, fun ended => ?_⟩
      rw [live] at ended
      cases ended

theorem ReadFrom.finished (h : ReadFrom stored row) (open_turn : stored.state.isTerminal = false)
    (principal : stored'.principalId = stored.principalId)
    (later : stored.revision < stored'.revision) : ReadFrom stored' row where
  principal := h.principal.trans principal.symm
  ended ended := by
    have same := h.ended ended
    rw [same, open_turn] at ended
    cases ended
  live live := ⟨by have := (h.live live).1; omega, fun _ => by have := (h.live live).1; omega⟩

structure Handed (live : Option LiveTurn) (stored signal : ChatTurnRow) : Prop where
  principal : signal.principalId = stored.principalId
  ended : signal.state.isTerminal = true → signal = stored
  live : signal.state.isTerminal = false →
    (stored.state.isTerminal = true → signal.revision < stored.revision) ∧
      ∀ turn ∈ live, signal.revision ≤ turn.revision

variable {live : Option LiveTurn} {signal : ChatTurnRow}

theorem Handed.moved (h : Handed live stored signal) (moved : stored.Moved stored') :
    Handed live stored' signal where
  principal := h.principal.trans moved.principal.symm
  ended ended := by
    have same := h.ended ended
    rw [moved.ended (same ▸ ended), same]
  live open_signal := by
    obtain ⟨before, bounded⟩ := h.live open_signal
    refine ⟨fun ended => ?_, bounded⟩
    cases state : stored.state.isTerminal with
    | true =>
      rw [moved.ended state]
      exact before state
    | false =>
      rw [(moved.live state).1] at ended
      cases ended

variable {live' : Option LiveTurn}

theorem Handed.live_later (h : Handed live stored signal)
    (later : ∀ turn' ∈ live', ∃ turn ∈ live, turn.revision ≤ turn'.revision) :
    Handed live' stored signal :=
  { h with
    live := fun open_signal => by
      obtain ⟨before, bounded⟩ := h.live open_signal
      refine ⟨before, ?_⟩
      intro turn' known
      obtain ⟨turn, known', le⟩ := later turn' known
      exact (bounded turn known').trans le }

/-- Where the turn stands by the phase of its `_execute`. -/
def Executed (turn : Option ChatTurnRow) (live : Option LiveTurn) : ExecutePhase → Prop
  | .idle => turn = none ∧ live = none
  | .running => ∃ row known, turn = some row ∧ live = some known ∧ row.state.isTerminal = false
  | .finishing values => ∃ row known state revision, turn = some row ∧ live = some known ∧
      row.state.isTerminal = false ∧ values.finished = true ∧ values.state = some state ∧
      state.isTerminal = true ∧ values.revision = some revision ∧
      known.revision < max (row.revision + 1) revision
  | .closing | .flushing _ => ∃ row known, turn = some row ∧ live = some known ∧
      row.state.isTerminal = true ∧ known.revision < row.revision
  | .gone => ∃ row, turn = some row ∧ live = none ∧ row.state.isTerminal = true

/-- The end of the turn is queued for whoever did not read it. -/
def Updates.Flushed (updates : Updates) : Prop :=
  match updates.phase with
  | .waiting => ∃ signal ∈ updates.queue, signal.state.isTerminal = true
  | .composing row => row.state.isTerminal = false →
      ∃ signal ∈ updates.queue, signal.state.isTerminal = true
  | _ => True

/-- The notifier of `_flush_notify` publishes the end of the turn. -/
def Flushing (turn : Option ChatTurnRow) (updates : Updates) (notifier : Notifier) : Prop :=
  notifier.publishes = true ∧
    match notifier.phase with
    | .looking => True
    | .reading principalId => ∀ row ∈ turn, row.principalId = principalId
    | .composing row => row.state.isTerminal = true
    | .ended => updates.Flushed

structure Followed (turn : Option ChatTurnRow) (live : Option LiveTurn) (updates : Updates) :
    Prop where
  read : ∀ row ∈ updates.phase.row, ∃ stored ∈ turn, ReadFrom stored row ∧
    row.principalId = updates.principalId
  queued : ∀ signal ∈ updates.queue, ∃ stored ∈ turn, Handed live stored signal
  received : ∀ signal ∈ updates.received, ∃ stored ∈ turn, Handed live stored signal
  begun : updates.phase ≠ .waiting → updates.phase ≠ .ended → updates.received = []
  waits : updates.phase = .waiting → (∃ stored ∈ turn, stored.principalId = updates.principalId) ∧
    ∀ signal ∈ updates.received, signal.state.isTerminal = false ∧
      ∀ queued ∈ updates.queue, signal.revision ≤ queued.revision
  ordered : (updates.received.map ChatTurnRow.revision).Pairwise (· ≤ ·)
  ended : updates.phase = .ended → ∃ row ∈ turn, row.state.isTerminal = true ∧
    updates.received.getLast? = some row

structure FeedSound (s : LiveFeed) : Prop where
  executed : Executed s.turn s.live s.execute
  composing : ∀ notifier ∈ s.notifiers, ∀ row, notifier.phase = .composing row →
    ∃ stored ∈ s.turn, ReadFrom stored row
  flushing : ∀ i, s.execute = .flushing i →
    ∃ notifier, s.notifiers[i]? = some notifier ∧ Flushing s.turn s.updates notifier
  flushed : s.execute = .gone → s.updates.Flushed
  followed : Followed s.turn s.live s.updates

theorem FeedSound.inOrder (h : FeedSound s) : s.InOrder where
  ordered := h.followed.ordered
  ended ended := h.followed.ended ended
  served gone waiting := by
    have flushed := h.flushed gone
    unfold Updates.Flushed at flushed
    rw [waiting] at flushed
    obtain ⟨signal, queued, -⟩ := flushed
    rw [queued]
    simp

variable {turn : Option ChatTurnRow} {phase : ExecutePhase}

theorem Executed.moved {turn' : Option ChatTurnRow} (h : Executed turn live phase)
    (none : turn = none → turn' = none) (moved : ∀ row ∈ turn, ∃ row' ∈ turn', row.Moved row') :
    Executed turn' live phase := by
  cases phase with
  | idle => exact ⟨none h.1, h.2⟩
  | running =>
    obtain ⟨row, known, stands, living, open_turn⟩ := h
    obtain ⟨row', stands', move⟩ := moved row stands
    exact ⟨row', known, stands', living, (move.live open_turn).1⟩
  | finishing values =>
    obtain ⟨row, known, state, revision, stands, living, open_turn, fin, st, term, rev, below⟩ := h
    obtain ⟨row', stands', move⟩ := moved row stands
    obtain ⟨open_turn', later⟩ := move.live open_turn
    exact ⟨row', known, state, revision, stands', living, open_turn', fin, st, term, rev, by omega⟩
  | closing | flushing i =>
    obtain ⟨row, known, stands, living, ended, below⟩ := h
    obtain ⟨row', stands', move⟩ := moved row stands
    rw [move.ended ended] at stands'
    exact ⟨row, known, stands', living, ended, below⟩
  | gone =>
    obtain ⟨row, stands, living, ended⟩ := h
    obtain ⟨row', stands', move⟩ := moved row stands
    rw [move.ended ended] at stands'
    exact ⟨row, stands', living, ended⟩

variable {updates : Updates}

theorem Followed.moved {turn' : Option ChatTurnRow} (h : Followed turn live updates)
    (moved : ∀ row ∈ turn, ∃ row' ∈ turn', row.Moved row') : Followed turn' live updates where
  read row composing := by
    obtain ⟨stored, stands, readFrom, own⟩ := h.read row composing
    obtain ⟨stored', stands', move⟩ := moved stored stands
    exact ⟨stored', stands', readFrom.moved move, own⟩
  queued signal known := by
    obtain ⟨stored, stands, handed⟩ := h.queued signal known
    obtain ⟨stored', stands', move⟩ := moved stored stands
    exact ⟨stored', stands', handed.moved move⟩
  received signal known := by
    obtain ⟨stored, stands, handed⟩ := h.received signal known
    obtain ⟨stored', stands', move⟩ := moved stored stands
    exact ⟨stored', stands', handed.moved move⟩
  begun := h.begun
  waits waiting := by
    obtain ⟨⟨stored, stands, own⟩, rest⟩ := h.waits waiting
    obtain ⟨stored', stands', move⟩ := moved stored stands
    exact ⟨⟨stored', stands', move.principal.trans own⟩, rest⟩
  ordered := h.ordered
  ended ended := by
    obtain ⟨row, stands, terminal, last⟩ := h.ended ended
    obtain ⟨row', stands', move⟩ := moved row stands
    rw [move.ended terminal] at stands'
    exact ⟨row, stands', terminal, last⟩

theorem Followed.live_later (h : Followed turn live updates)
    (later : ∀ turn' ∈ live', ∃ turn ∈ live, turn.revision ≤ turn'.revision) :
    Followed turn live' updates :=
  { h with
    queued := fun signal known => by
      obtain ⟨stored, stands, handed⟩ := h.queued signal known
      exact ⟨stored, stands, handed.live_later later⟩
    received := fun signal known => by
      obtain ⟨stored, stands, handed⟩ := h.received signal known
      exact ⟨stored, stands, handed.live_later later⟩ }

theorem Followed.of_none (h : Followed none live updates) : Followed turn live' updates where
  read row composing := by
    obtain ⟨stored, stands, -⟩ := h.read row composing
    cases stands
  queued signal known := by
    obtain ⟨stored, stands, -⟩ := h.queued signal known
    cases stands
  received signal known := by
    obtain ⟨stored, stands, -⟩ := h.received signal known
    cases stands
  begun := h.begun
  waits waiting := by
    obtain ⟨⟨stored, stands, -⟩, -⟩ := h.waits waiting
    cases stands
  ordered := h.ordered
  ended ended := by
    obtain ⟨row, stands, -⟩ := h.ended ended
    cases stands

theorem revision_le_observe (row : ChatTurnRow) (live : LiveTurn) :
    live.revision ≤ (live.observe row).revision := by
  unfold LiveTurn.observe
  split
  · exact le_rfl
  · exact le_max_left _ _

theorem observe_lt {live : LiveTurn} {bound : Nat} (below : live.revision < bound)
    (older : row.state.isTerminal = false → row.revision < bound) :
    (live.observe row).revision < bound := by
  unfold LiveTurn.observe
  split
  · exact below
  · rename_i open_row
    exact max_lt below (older (Bool.eq_false_iff.mpr open_row))

theorem Executed.observed (h : Executed turn live phase) (stands : stored ∈ turn)
    (readFrom : ReadFrom stored row) : Executed turn (live.map (LiveTurn.observe row)) phase := by
  cases phase with
  | idle =>
    obtain ⟨rfl, -⟩ := h
    cases stands
  | running =>
    obtain ⟨row', known, rfl, rfl, open_turn⟩ := h
    exact ⟨row', known.observe row, rfl, rfl, open_turn⟩
  | finishing values =>
    obtain ⟨row', known, state, revision, rfl, rfl, open_turn, fin, st, term, rev, below⟩ := h
    cases stands
    refine ⟨stored, known.observe row, state, revision, rfl, rfl, open_turn, fin, st, term, rev, ?_⟩
    exact observe_lt below (fun live => by have := (readFrom.live live).1; omega)
  | closing | flushing i =>
    obtain ⟨row', known, rfl, rfl, ended, below⟩ := h
    cases stands
    exact ⟨stored, known.observe row, rfl, rfl, ended,
      observe_lt below (fun live => (readFrom.live live).2 ended)⟩
  | gone =>
    obtain ⟨row', rfl, rfl, ended⟩ := h
    exact ⟨row', rfl, rfl, ended⟩

theorem Followed.observed (h : Followed turn live updates) (row : ChatTurnRow) :
    Followed turn (live.map (LiveTurn.observe row)) updates := by
  refine h.live_later ?_
  intro turn' known
  obtain ⟨turn, known', rfl⟩ := Option.map_eq_some_iff.mp known
  exact ⟨turn, known', revision_le_observe row turn⟩

@[simp] theorem getTurn_state : (s.getTurn row).state = row.state := by
  unfold LiveFeed.getTurn
  split
  · rfl
  · split <;> rfl

@[simp] theorem getTurn_principalId : (s.getTurn row).principalId = row.principalId := by
  unfold LiveFeed.getTurn
  split
  · rfl
  · split <;> rfl

theorem getTurn_ended (ended : row.state.isTerminal = true) : s.getTurn row = row := by
  unfold LiveFeed.getTurn
  split
  · rfl
  · rw [if_pos ended]

theorem getTurn_revision (open_row : row.state.isTerminal = false) {live : LiveTurn}
    (living : s.live = some live) : (s.getTurn row).revision = (live.observe row).revision := by
  unfold LiveFeed.getTurn LiveTurn.observe
  rw [living]
  simp [open_row]

theorem Executed.below (h : Executed turn live phase) (stands : stored ∈ turn)
    (ended : stored.state.isTerminal = true) :
    ∀ known ∈ live, known.revision < stored.revision := by
  intro known living
  cases phase with
  | idle =>
    obtain ⟨rfl, -⟩ := h
    cases stands
  | running =>
    obtain ⟨row, -, rfl, -, open_turn⟩ := h
    cases stands
    rw [open_turn] at ended
    cases ended
  | finishing values =>
    obtain ⟨row, -, -, -, rfl, -, open_turn, -⟩ := h
    cases stands
    rw [open_turn] at ended
    cases ended
  | closing | flushing i =>
    obtain ⟨row, known', rfl, rfl, -, below⟩ := h
    cases stands
    cases living
    exact below
  | gone =>
    obtain ⟨-, -, rfl, -⟩ := h
    cases living

theorem FeedSound.getTurn_handed (h : FeedSound s) (stands : stored ∈ s.turn)
    (readFrom : ReadFrom stored row) :
    Handed (s.live.map (LiveTurn.observe row)) stored (s.getTurn row) where
  principal := by
    rw [getTurn_principalId]
    exact readFrom.principal
  ended ended := by
    rw [getTurn_state] at ended
    rw [getTurn_ended ended]
    exact readFrom.ended ended
  live open_row := by
    rw [getTurn_state] at open_row
    cases living : s.live with
    | none =>
      have plain : s.getTurn row = row := by
        unfold LiveFeed.getTurn
        rw [living]
      rw [plain]
      exact ⟨(readFrom.live open_row).2, by simp⟩
    | some known =>
      rw [getTurn_revision open_row living]
      refine ⟨fun ended => ?_, ?_⟩
      · exact observe_lt (h.executed.below stands ended known living)
          (fun live => (readFrom.live live).2 ended)
      · rintro _ ⟨⟩
        exact le_rfl

theorem Followed.publish (h : Followed turn live updates) (stands : stored ∈ turn)
    (handed : Handed live stored signal)
    (above : updates.phase = .waiting → ∀ old ∈ updates.received, old.revision ≤ signal.revision) :
    Followed turn live { updates with queue := some signal } :=
  { h with
    queued := by
      rintro _ ⟨⟩
      exact ⟨stored, stands, handed⟩
    waits := fun waiting => by
      obtain ⟨own, received⟩ := h.waits waiting
      refine ⟨own, fun old known => ⟨(received old known).1, ?_⟩⟩
      rintro _ ⟨⟩
      exact above waiting old known }

variable {i : Nat} {notifier : Notifier}

theorem FeedSound.setNotifier (h : FeedSound s) {phase : NotifierPhase}
    (here : s.notifiers[i]? = some notifier)
    (composing : ∀ row, phase = .composing row → ∃ stored ∈ s.turn, ReadFrom stored row)
    (flushing : s.execute = .flushing i → Flushing s.turn s.updates notifier →
      Flushing s.turn s.updates { notifier with phase }) :
    FeedSound (s.setNotifier i notifier phase) where
  executed := h.executed
  composing other member row composes := by
    rcases List.mem_or_eq_of_mem_set member with known | rfl
    · exact h.composing other known row composes
    · exact composing row composes
  flushing j at_j := by
    obtain ⟨flusher, there, flushes⟩ := h.flushing j at_j
    by_cases same : i = j
    · subst same
      rw [here] at there
      cases there
      have bound := (List.getElem?_eq_some_iff.mp here).1
      exact ⟨{ notifier with phase }, List.getElem?_set_self bound, flushing at_j flushes⟩
    · refine ⟨flusher, ?_, flushes⟩
      change (s.notifiers.set i _)[j]? = _
      rw [List.getElem?_set_ne same, there]
  flushed := h.flushed
  followed := h.followed

theorem FeedSound.observed (h : FeedSound s) (stands : stored ∈ s.turn)
    (readFrom : ReadFrom stored row) : FeedSound (s.observed row) :=
  { h with
    executed := h.executed.observed stands readFrom
    followed := h.followed.observed row }

theorem FeedSound.publish (h : FeedSound s) (stands : stored ∈ s.turn)
    (handed : Handed s.live stored signal)
    (timely : s.updates.phase.listed = true → signal.state.isTerminal = false →
      (∀ queued ∈ s.updates.queue, queued.state.isTerminal = false) ∧
      ∃ known ∈ s.live, known.revision ≤ signal.revision) :
    FeedSound (s.publish signal) ∧ s.Replaces (s.publish signal) := by
  unfold LiveFeed.publish
  by_cases listed : s.updates.phase.listed = true
  · rw [if_pos listed]
    have above : ∀ old, (∃ stored ∈ s.turn, Handed s.live stored old) →
        (signal.state.isTerminal = false → old.state.isTerminal = false) →
        old.revision ≤ signal.revision := by
      rintro old ⟨stored', stands', handed'⟩ open_old
      have one : stored' = stored := Option.mem_unique stands' stands
      subst one
      cases state : signal.state.isTerminal with
      | true =>
        have last := handed.ended state
        cases state' : old.state.isTerminal with
        | true => rw [handed'.ended state', last]
        | false =>
          rw [last] at state ⊢
          exact ((handed'.live state').1 state).le
      | false =>
        obtain ⟨-, known, living, below⟩ := timely listed state
        exact ((handed'.live (open_old state)).2 known living).trans below
    have flushed : s.updates.Flushed → { s.updates with queue := some signal }.Flushed := by
      intro flushed
      cases state : signal.state.isTerminal with
      | true =>
        unfold Updates.Flushed
        split
        · exact ⟨signal, rfl, state⟩
        · exact fun _ => ⟨signal, rfl, state⟩
        · trivial
      | false =>
        have none_over := (timely listed state).1
        unfold Updates.Flushed at flushed ⊢
        dsimp only
        split at flushed
        · obtain ⟨queued, known, isOver⟩ := flushed
          rw [none_over queued known] at isOver
          cases isOver
        · rename_i row composing
          intro open_row
          obtain ⟨queued, known, isOver⟩ := flushed open_row
          rw [none_over queued known] at isOver
          cases isOver
        · trivial
    refine ⟨⟨h.executed, h.composing, ?_, fun gone => flushed (h.flushed gone), ?_⟩, ?_⟩
    · intro i at_i
      obtain ⟨notifier, here, publishes, flushes⟩ := h.flushing i at_i
      refine ⟨notifier, here, publishes, ?_⟩
      cases phase : notifier.phase with
      | ended =>
        rw [phase] at flushes
        exact flushed flushes
      | _ =>
        rw [phase] at flushes
        exact flushes
    · refine h.followed.publish stands handed ?_
      intro waiting old known
      have open_old := ((h.followed.waits waiting).2 old known).1
      exact above old (h.followed.received old known) (fun _ => open_old)
    · rintro old queued _ ⟨⟩
      exact above old (h.followed.queued old queued)
        (fun state => (timely listed state).1 old queued)
  · rw [if_neg listed]
    refine ⟨h, ?_⟩
    intro old queued new queued'
    rw [Option.mem_unique queued queued']

theorem publish_setNotifier {phase : NotifierPhase} :
    (s.setNotifier i notifier phase).publish signal =
      (s.publish signal).setNotifier i notifier phase := by
  unfold LiveFeed.publish LiveFeed.setNotifier
  split <;> rfl

theorem flushed_of_published (ended : signal.state.isTerminal = true) :
    (s.publish signal).updates.Flushed := by
  unfold LiveFeed.publish
  split
  · unfold Updates.Flushed
    split
    · exact ⟨signal, rfl, ended⟩
    · exact fun _ => ⟨signal, rfl, ended⟩
    · trivial
  · rename_i unlisted
    unfold Updates.Flushed
    split
    · rename_i waiting
      exact absurd (by rw [waiting]; rfl) unlisted
    · rename_i composing
      exact absurd (by rw [composing]; rfl) unlisted
    · trivial

theorem publish_notifiers : (s.publish signal).notifiers = s.notifiers := by
  unfold LiveFeed.publish
  split <;> rfl

theorem compose_sound (h : FeedSound s) (here : s.notifiers[i]? = some notifier)
    (phase : notifier.phase = .composing row) (timely : (LiveAct.compose i).Timely s) :
    FeedSound (s.compose i notifier row) ∧ s.Replaces (s.compose i notifier row) := by
  obtain ⟨stored, stands, readFrom⟩ := h.composing notifier (List.mem_of_getElem? here) row phase
  have observed := h.observed stands readFrom
  have here' : (s.observed row).notifiers[i]? = some notifier := here
  unfold LiveFeed.compose
  split
  · rename_i publishes
    rw [publish_setNotifier]
    have handed := h.getTurn_handed stands readFrom
    have named : row ∈ notifier.row := by
      unfold Notifier.row
      rw [publishes, phase]
      rfl
    have in_time : (s.observed row).updates.phase.listed = true →
        (s.getTurn row).state.isTerminal = false →
        (∀ queued ∈ s.updates.queue, queued.state.isTerminal = false) ∧
          ∃ known ∈ (s.observed row).live, known.revision ≤ (s.getTurn row).revision := by
      intro listed open_signal
      rw [getTurn_state] at open_signal
      obtain ⟨living, open_queue⟩ := timely notifier here row named listed open_signal
      obtain ⟨known, living⟩ := Option.isSome_iff_exists.mp living
      refine ⟨open_queue, known.observe row, ?_, ?_⟩
      · change known.observe row ∈ s.live.map _
        rw [living]
        rfl
      · rw [getTurn_revision open_signal living]
    obtain ⟨sound, replaces⟩ := observed.publish stands handed in_time
    refine ⟨sound.setNotifier (by rw [publish_notifiers]; exact here') (by simp) ?_, replaces⟩
    rintro - ⟨-, flushes⟩
    rw [phase] at flushes
    refine ⟨publishes, flushed_of_published ?_⟩
    rwa [getTurn_state]
  · rename_i plain
    refine ⟨observed.setNotifier here' (by simp) ?_, ?_⟩
    · rintro - ⟨publishes, -⟩
      exact absurd publishes plain
    · intro old queued new queued'
      rw [Option.mem_unique queued queued']

theorem FeedSound.withUpdates (h : FeedSound s) (followed : Followed s.turn s.live updates)
    (flushed : (∀ row ∈ s.turn, row.state.isTerminal = true) → s.updates.Flushed → updates.Flushed) :
    FeedSound { s with updates } where
  executed := h.executed
  composing := h.composing
  flushing i at_i := by
    obtain ⟨notifier, here, publishes, flushes⟩ := h.flushing i at_i
    refine ⟨notifier, here, publishes, ?_⟩
    cases phase : notifier.phase with
    | ended =>
      rw [phase] at flushes
      refine flushed ?_ flushes
      intro row stands
      obtain ⟨row', -, stands', -, ended, -⟩ : Executed s.turn s.live (.flushing i) :=
        at_i ▸ h.executed
      rwa [Option.mem_unique stands stands']
    | _ =>
      rw [phase] at flushes
      exact flushes
  flushed gone := by
    refine flushed ?_ (h.flushed gone)
    intro row stands
    obtain ⟨row', stands', -, ended⟩ : Executed s.turn s.live .gone := gone ▸ h.executed
    rwa [Option.mem_unique stands stands']
  followed := followed

theorem Followed.yield (h : Followed turn live updates) {queue : Option ChatTurnRow}
    (stands : stored ∈ turn) (handed : Handed live stored signal)
    (own : stored.principalId = updates.principalId)
    (above : ∀ old ∈ updates.received, old.state.isTerminal = false ∧ old.revision ≤ signal.revision)
    (kept : ∀ queued ∈ queue, queued ∈ updates.queue)
    (below : signal.state.isTerminal = false → ∀ queued ∈ queue, signal.revision ≤ queued.revision) :
    Followed turn live
      { updates with
        queue, received := updates.received ++ [signal],
        phase := if signal.state.isTerminal then .ended else .waiting } where
  read row composing := by
    split at composing <;> cases composing
  queued queued known := h.queued queued (kept queued known)
  received old known := by
    rcases List.mem_concat.mp known with known | last
    · exact h.received old known
    · rw [last]
      exact ⟨stored, stands, handed⟩
  begun waiting ended := by
    split at waiting
    · rename_i isOver
      exact absurd (if_pos isOver) ended
    · exact absurd rfl waiting
  waits waiting := by
    split at waiting
    · cases waiting
    · rename_i open_signal
      have live : signal.state.isTerminal = false := Bool.eq_false_iff.mpr open_signal
      refine ⟨⟨stored, stands, own⟩, ?_⟩
      intro old known
      rcases List.mem_concat.mp known with known | last
      · obtain ⟨open_old, older⟩ := above old known
        exact ⟨open_old, fun queued held => older.trans (below live queued held)⟩
      · rw [last]
        exact ⟨live, below live⟩
  ordered := by
    rw [List.map_append, List.pairwise_append]
    refine ⟨h.ordered, List.pairwise_singleton _ _, ?_⟩
    intro old known new last
    obtain ⟨signal', known', rfl⟩ := List.mem_map.mp known
    rw [List.map_singleton, List.mem_singleton] at last
    rw [last]
    exact (above signal' known').2
  ended ended := by
    split at ended
    · rename_i isOver
      refine ⟨signal, ?_, isOver, List.getLast?_concat⟩
      rw [handed.ended isOver]
      exact stands
    · cases ended

theorem replaces_of_queue (same : t.updates.queue = s.updates.queue) : s.Replaces t := by
  intro old queued new queued'
  rw [same] at queued'
  rw [Option.mem_unique queued queued']

theorem replaces_of_none (empty : t.updates.queue = none) : s.Replaces t := by
  intro old queued new queued'
  rw [empty] at queued'
  cases queued'

theorem snapshot_sound (h : FeedSound s) (phase : s.updates.phase = .composing row)
    (timely : LiveAct.snapshot.Timely s) : FeedSound (s.snapshot row) := by
  have composing : row ∈ s.updates.phase.row := by rw [phase]; rfl
  obtain ⟨stored, stands, readFrom, own⟩ := h.followed.read row composing
  have begun := h.followed.begun (by rw [phase]; simp) (by rw [phase]; simp)
  refine (h.observed stands readFrom).withUpdates ?_ ?_
  · refine (h.followed.observed row).yield stands (h.getTurn_handed stands readFrom)
      (readFrom.principal.symm.trans own) ?_ (fun _ => id) ?_
    · intro old known
      rw [begun] at known
      cases known
    · intro open_signal queued held
      rw [getTurn_state] at open_signal
      exact timely row composing open_signal queued held
  · intro _ flushed
    change s.updates.Flushed at flushed
    unfold Updates.Flushed at flushed ⊢
    rw [phase] at flushed
    rw [getTurn_state]
    split
    · rename_i waiting
      split at waiting
      · cases waiting
      · rename_i open_row
        exact flushed (Bool.eq_false_iff.mpr open_row)
    · rename_i composes
      split at composes <;> cases composes
    · trivial

theorem receive_sound (h : FeedSound s) (waiting : s.updates.phase = .waiting)
    (queued : s.updates.queue = some signal) :
    FeedSound (s.receive signal) ∧ s.Replaces (s.receive signal) := by
  obtain ⟨⟨stored, stands, own⟩, received⟩ := h.followed.waits waiting
  obtain ⟨stored', stands', handed⟩ := h.followed.queued signal queued
  have one : stored' = stored := Option.mem_unique stands' stands
  subst one
  unfold LiveFeed.receive
  rw [if_pos (handed.principal.trans own)]
  refine ⟨?_, replaces_of_none rfl⟩
  refine h.withUpdates ?_ ?_
  · refine h.followed.yield stands handed own ?_ (by simp) (by simp)
    intro old known
    exact ⟨(received old known).1, (received old known).2 signal queued⟩
  · intro _ flushed
    unfold Updates.Flushed at flushed ⊢
    rw [waiting] at flushed
    obtain ⟨last, held, isOver⟩ := flushed
    rw [Option.mem_unique held queued] at isOver
    rw [if_pos isOver]
    trivial

theorem read_sound (h : FeedSound s) (reading : s.updates.phase = .reading) :
    FeedSound (s.goTo (match s.ownedTurn s.updates.principalId with
      | none => .raised
      | some row => .composing row)) := by
  have begun := h.followed.begun (by rw [reading]; simp) (by rw [reading]; simp)
  cases found : s.ownedTurn s.updates.principalId with
  | none =>
    refine h.withUpdates ⟨by simp [UpdatesPhase.row], h.followed.queued, h.followed.received,
      fun _ _ => begun, by simp, h.followed.ordered, by simp⟩ ?_
    intro _ _
    trivial
  | some row =>
    obtain ⟨stands, own⟩ := Option.filter_eq_some_iff.mp found
    refine h.withUpdates ⟨?_, h.followed.queued, h.followed.received,
      fun _ _ => begun, by simp, h.followed.ordered, by simp⟩ ?_
    · rintro _ ⟨⟩
      exact ⟨row, stands, .refl row, beq_iff_eq.mp own⟩
    · intro isOver _ open_row
      rw [isOver row stands] at open_row
      cases open_row

theorem subscribe_sound (h : FeedSound s) (subscribing : s.updates.phase = .subscribing) :
    FeedSound (s.goTo .reading) := by
  have begun := h.followed.begun (by rw [subscribing]; simp) (by rw [subscribing]; simp)
  refine h.withUpdates ⟨by simp [UpdatesPhase.row], h.followed.queued, h.followed.received,
    fun _ _ => begun, by simp, h.followed.ordered, by simp⟩ ?_
  intro _ _
  trivial

theorem look_sound (h : FeedSound s) (here : s.notifiers[i]? = some notifier) :
    FeedSound (s.look i notifier) := by
  refine h.setNotifier here ?_ ?_
  · intro row composing
    split at composing <;> cases composing
  · rintro at_i ⟨publishes, -⟩
    refine ⟨publishes, ?_⟩
    obtain ⟨row, -, stands, -⟩ : Executed s.turn s.live (.flushing i) := at_i ▸ h.executed
    rw [stands]
    rintro _ ⟨⟩
    rfl

variable {principalId : String}

theorem get_sound (h : FeedSound s) (here : s.notifiers[i]? = some notifier)
    (reading : notifier.phase = .reading principalId) :
    FeedSound (s.get i notifier principalId) := by
  refine h.setNotifier here ?_ ?_
  · intro row composing
    cases found : s.ownedTurn principalId with
    | none =>
      rw [found] at composing
      cases composing
    | some row' =>
      rw [found] at composing
      cases composing
      exact ⟨row, (Option.filter_eq_some_iff.mp found).1, .refl row⟩
  · rintro at_i ⟨publishes, flushes⟩
    refine ⟨publishes, ?_⟩
    rw [reading] at flushes
    obtain ⟨row, -, stands, -, ended, -⟩ : Executed s.turn s.live (.flushing i) := at_i ▸ h.executed
    have own := flushes row stands
    have found : s.ownedTurn principalId = some row := by
      unfold LiveFeed.ownedTurn
      rw [stands]
      simp [own]
    rw [found]
    exact ended

theorem FeedSound.append (h : FeedSound s) (starts : ∀ row, notifier.phase ≠ .composing row) :
    FeedSound { s with notifiers := s.notifiers ++ [notifier] } :=
  { h with
    composing := fun other member row composes => by
      rcases List.mem_concat.mp member with known | new
      · exact h.composing other known row composes
      · rw [new] at composes
        exact absurd composes (starts row)
    flushing := fun i at_i => by
      obtain ⟨flusher, here, flushes⟩ := h.flushing i at_i
      have bound := (List.getElem?_eq_some_iff.mp here).1
      refine ⟨flusher, ?_, flushes⟩
      rw [List.getElem?_append_left bound, here] }

theorem FeedSound.running (h : FeedSound s) (running : s.execute = .running)
    {live live' : LiveTurn} (living : s.live = some live) (later : live.revision ≤ live'.revision) :
    FeedSound { s with live := some live' } where
  executed := by
    obtain ⟨row, -, stands, -, open_turn⟩ : Executed s.turn s.live .running := running ▸ h.executed
    rw [running]
    exact ⟨row, live', stands, rfl, open_turn⟩
  composing := h.composing
  flushing := h.flushing
  flushed := h.flushed
  followed := by
    refine h.followed.live_later ?_
    rintro _ ⟨⟩
    exact ⟨live, living, later⟩

theorem event_sound (h : FeedSound s) (running : s.execute = .running) {live : LiveTurn}
    (living : s.live = some live) (text : LiveText) (changed : Bool) :
    FeedSound (s.event live text changed) ∧ (s.event live text changed).updates = s.updates := by
  have later : live.revision ≤ if changed then live.revision + 1 else live.revision := by
    split <;> omega
  let live' := fun notifyTask =>
    { live with
      text, revision := if changed then live.revision + 1 else live.revision,
      notifyTask }
  have goes_on : ∀ notifyTask, FeedSound { s with live := some (live' notifyTask) } :=
    fun _ => h.running running living later
  unfold LiveFeed.event LiveFeed.scheduleNotify
  split
  · split
    · exact ⟨(goes_on _).append (by simp), rfl⟩
    · exact ⟨goes_on _, rfl⟩
  · exact ⟨(goes_on _).append (by simp), rfl⟩

theorem mem_modify_ended {notifiers : List Notifier}
    (member : notifier ∈ notifiers.modify i (fun notifier => { notifier with phase := .ended })) :
    notifier ∈ notifiers ∨ notifier.phase = .ended := by
  obtain ⟨j, here⟩ := List.mem_iff_getElem?.mp member
  rw [List.getElem?_modify] at here
  obtain ⟨old, there, rfl⟩ := Option.map_eq_some_iff.mp here
  by_cases same : i = j
  · rw [if_pos same]
    exact Or.inr rfl
  · rw [if_neg same]
    exact Or.inl (List.mem_of_getElem? there)

theorem flush_sound (h : FeedSound s) (closing : s.execute = .closing) {live : LiveTurn}
    (living : s.live = some live) : FeedSound (s.flush live) where
  executed := by
    obtain ⟨row, known, stands, known', ended, below⟩ : Executed s.turn s.live .closing :=
      closing ▸ h.executed
    rw [living, Option.some.injEq] at known'
    subst known'
    exact ⟨row, _, stands, rfl, ended, below⟩
  composing notifier member row composes := by
    rcases List.mem_concat.mp member with known | new
    · cases task : live.notifyTask with
      | none =>
        rw [task] at known
        exact h.composing notifier known row composes
      | some i =>
        rw [task] at known
        rcases mem_modify_ended known with old | ended
        · exact h.composing notifier old row composes
        · rw [ended] at composes
          cases composes
    · rw [new] at composes
      cases composes
  flushing i at_i := by
    unfold LiveFeed.flush at at_i ⊢
    cases at_i
    refine ⟨{ publishes := true, phase := .looking }, ?_, rfl, trivial⟩
    rw [List.getElem?_append_right le_rfl, Nat.sub_self]
    rfl
  flushed gone := by cases gone
  followed := by
    refine h.followed.live_later ?_
    rintro _ ⟨⟩
    exact ⟨live, living, le_rfl⟩

theorem pop_sound (h : FeedSound s) (flushing : s.execute = .flushing i)
    (ended : (s.notifiers[i]?).all (fun notifier => notifier.phase == .ended) = true) :
    FeedSound { s with live := none, execute := .gone } where
  executed := by
    obtain ⟨row, -, stands, -, isOver, -⟩ : Executed s.turn s.live (.flushing i) :=
      flushing ▸ h.executed
    exact ⟨row, stands, rfl, isOver⟩
  composing := h.composing
  flushing j at_j := by cases at_j
  flushed _ := by
    obtain ⟨notifier, here, -, flushes⟩ := h.flushing i flushing
    rw [here] at ended
    rw [beq_iff_eq.mp (show (notifier.phase == .ended) = true from ended)] at flushes
    exact flushes
  followed := h.followed.live_later (by simp)

variable {store : ConversationStore}

theorem client_sound (h : FeedSound s) (moved : TurnMoved s.turnId s.store store) :
    FeedSound { s with store } where
  executed := h.executed.moved moved.1 moved.2
  composing notifier member row composes := by
    obtain ⟨stored, stands, readFrom⟩ := h.composing notifier member row composes
    obtain ⟨stored', stands', move⟩ := moved.2 stored stands
    exact ⟨stored', stands', readFrom.moved move⟩
  flushing i at_i := by
    obtain ⟨notifier, here, publishes, flushes⟩ := h.flushing i at_i
    refine ⟨notifier, here, publishes, ?_⟩
    cases phase : notifier.phase with
    | reading principalId =>
      rw [phase] at flushes
      obtain ⟨stored, -, stands, -⟩ : Executed s.turn s.live (.flushing i) := at_i ▸ h.executed
      obtain ⟨stored', stands', move⟩ := moved.2 stored stands
      intro row known
      rw [Option.mem_unique known stands', move.principal]
      exact flushes stored stands
    | _ =>
      rw [phase] at flushes
      exact flushes
  flushed := h.flushed
  followed := h.followed.moved moved.2

theorem created_sound (h : FeedSound s) (idle : s.execute = .idle)
    (stands : store.turns.lookup s.turnId = some row) (open_row : row.state.isTerminal = false) :
    FeedSound { s with
      store, live := some { revision := row.revision }, execute := .running } := by
  obtain ⟨none_stands, -⟩ : Executed s.turn s.live .idle := idle ▸ h.executed
  refine ⟨⟨row, _, stands, rfl, open_row⟩, ?_, by simp, by simp, ?_⟩
  · intro notifier member row' composes
    obtain ⟨stored, known, -⟩ := h.composing notifier member row' composes
    rw [none_stands] at known
    cases known
  · have followed := h.followed
    rw [none_stands] at followed
    exact followed.of_none

theorem checkpoint_ends {store' : ConversationStore} {turnId : String} {now : Time}
    {values : Checkpoint} {result : ChatTurnRow} {state : ChatTurnState} {revision : Nat}
    (h : checkpoint now principalId turnId values store = .ok (result, store'))
    (stands : store.turns.lookup turnId = some row) (open_row : row.state.isTerminal = false)
    (finished : values.finished = true) (ends : values.state = some state)
    (revised : values.revision = some revision) :
    ∃ row', store'.turns.lookup turnId = some row' ∧ row'.state = state ∧
      row'.principalId = row.principalId ∧ row'.revision = max (row.revision + 1) revision := by
  obtain ⟨current, owned, h⟩ := of_bind h
  have same : current = row := by
    have held := ownedTurn_ok owned
    rw [stands] at held
    exact (Option.some.inj held).symm
  subst same
  rw [if_neg (by rw [open_row]; simp)] at h
  obtain ⟨-, -, -, -, updated, -, h⟩ := of_bind₃ h
  cases h
  have turns : ∀ (s : ConversationStore) (of : ChatApprovalRow → Bool),
      (s.expirePending now "turn_finished" of).turns = s.turns := fun _ _ => rfl
  rw [if_pos finished, turns, lookup_updateTurns, stands]
  refine ⟨_, rfl, ?_⟩
  dsimp only
  rw [if_pos (by simpa using Table.lookup_key stands), ends, revised]
  exact ⟨rfl, rfl, rfl⟩

theorem checkpointed_sound (h : FeedSound s) {values : Checkpoint}
    (finishing : s.execute = .finishing values) {now : Time}
    (stepped : s.store.step (.checkpoint now principalId s.turnId values) = some store) :
    FeedSound { s with store, execute := .closing } := by
  obtain ⟨row, known, state, revision, stands, living, open_row, fin, st, terminal, rev, below⟩ :
      Executed s.turn s.live (.finishing values) := finishing ▸ h.executed
  obtain ⟨result, made⟩ := outcome_some stepped
  obtain ⟨row', stands', ended, principal, revised⟩ :=
    checkpoint_ends (commit_ok_iff.mp made) stands open_row fin st rev
  have isOver : row'.state.isTerminal = true := ended ▸ terminal
  have later : row.revision < row'.revision := by omega
  have read : ∀ {stored other : ChatTurnRow}, stored ∈ s.turn → ReadFrom stored other →
      ReadFrom row' other := by
    intro stored other held readFrom
    rw [Option.mem_unique held stands] at readFrom
    exact readFrom.finished open_row principal later
  have handed : ∀ {stored signal : ChatTurnRow}, stored ∈ s.turn →
      Handed s.live stored signal → Handed s.live row' signal := by
    intro stored signal held handed
    rw [Option.mem_unique held stands] at handed
    refine ⟨handed.principal.trans principal.symm, ?_, ?_⟩
    · intro ended
      rw [handed.ended ended, open_row] at ended
      cases ended
    · intro open_signal
      obtain ⟨-, bounded⟩ := handed.live open_signal
      refine ⟨fun _ => ?_, bounded⟩
      have := bounded known living
      omega
  refine ⟨⟨row', known, stands', living, isOver, by omega⟩, ?_, by simp, by simp, ?_⟩
  · intro notifier member other composes
    obtain ⟨stored, held, readFrom⟩ := h.composing notifier member other composes
    exact ⟨row', stands', read held readFrom⟩
  · have followed := h.followed
    refine ⟨?_, ?_, ?_, followed.begun, ?_, followed.ordered, ?_⟩
    · intro other composing
      obtain ⟨stored, held, readFrom, own⟩ := followed.read other composing
      exact ⟨row', stands', read held readFrom, own⟩
    · intro signal queued
      obtain ⟨stored, held, out⟩ := followed.queued signal queued
      exact ⟨row', stands', handed held out⟩
    · intro signal received
      obtain ⟨stored, held, out⟩ := followed.received signal received
      exact ⟨row', stands', handed held out⟩
    · intro waiting
      obtain ⟨⟨stored, held, own⟩, rest⟩ := followed.waits waiting
      rw [Option.mem_unique held stands] at own
      exact ⟨⟨row', stands', principal.trans own⟩, rest⟩
    · intro ended
      obtain ⟨last, held, over', -⟩ := followed.ended ended
      rw [Option.mem_unique held stands, open_row] at over'
      cases over'

theorem feed_step_sound (h : FeedSound s) {act : LiveAct} (timely : act.Timely s)
    (stepped : s.step act = some t) : FeedSound t ∧ s.Replaces t := by
  have still : ∀ {u : LiveFeed}, u.updates = s.updates → FeedSound u →
      FeedSound u ∧ s.Replaces u :=
    fun same sound => ⟨sound, replaces_of_queue (congrArg Updates.queue same)⟩
  cases act with
  | repository op =>
    unfold LiveFeed.step at stepped
    dsimp only at stepped
    split at stepped
    · rename_i clients
      obtain ⟨store, made, rfl⟩ := Option.map_eq_some_iff.mp stepped
      exact still rfl (client_sound h (client_step_moved clients timely made))
    · cases stepped
  | create now request =>
    unfold LiveFeed.step at stepped
    dsimp only at stepped
    split at stepped <;> cases stepped
    rename_i row store idle made
    rcases create_row (commit_ok_iff.mp made) with ⟨fresh, -⟩ | ⟨names, running, inserted⟩
    · cases fresh
    · have stands := Table.lookup_insert inserted s.turnId
      rw [if_pos (names.trans s.normal)] at stands
      exact still rfl (created_sound h idle stands (by rw [running]; rfl))
  | event text changed =>
    obtain ⟨live, living, stepped⟩ := Option.bind_eq_some_iff.mp stepped
    split at stepped <;> cases stepped
    rename_i running
    obtain ⟨sound, same⟩ := event_sound h running living text changed
    exact still same sound
  | notify | observe principalId =>
    cases stepped
    exact still rfl (h.append (by simp))
  | look i =>
    obtain ⟨notifier, here, stepped⟩ := Option.bind_eq_some_iff.mp stepped
    split at stepped <;> cases stepped
    exact still rfl (look_sound h here)
  | get i =>
    obtain ⟨notifier, here, stepped⟩ := Option.bind_eq_some_iff.mp stepped
    split at stepped <;> cases stepped
    rename_i principalId reading
    exact still rfl (get_sound h here reading)
  | compose i =>
    obtain ⟨notifier, here, stepped⟩ := Option.bind_eq_some_iff.mp stepped
    split at stepped <;> cases stepped
    rename_i row composing
    exact compose_sound h here composing timely
  | finish state failureCode cancelRequested =>
    obtain ⟨live, living, stepped⟩ := Option.bind_eq_some_iff.mp stepped
    split at stepped <;> cases stepped
    rename_i finishes
    obtain ⟨row, known, stands, known', open_row⟩ : Executed s.turn s.live .running :=
      finishes.1 ▸ h.executed
    refine still rfl ⟨?_, h.composing, by simp, by simp, h.followed⟩
    rw [living, Option.some.injEq] at known'
    exact ⟨row, live, state, live.revision + 1, stands, living, open_row, rfl, rfl, finishes.2,
      rfl, by omega⟩
  | checkpoint now principalId =>
    unfold LiveFeed.step at stepped
    dsimp only at stepped
    split at stepped
    · rename_i values finishing
      obtain ⟨store, made, rfl⟩ := Option.map_eq_some_iff.mp stepped
      exact still rfl (checkpointed_sound h finishing made)
    · cases stepped
  | flush =>
    obtain ⟨live, living, stepped⟩ := Option.bind_eq_some_iff.mp stepped
    split at stepped <;> cases stepped
    rename_i closing
    exact still rfl (flush_sound h closing living)
  | pop =>
    unfold LiveFeed.step at stepped
    dsimp only at stepped
    split at stepped
    · rename_i i flushing
      split at stepped <;> cases stepped
      rename_i ended
      exact still rfl (pop_sound h flushing ended)
    · cases stepped
  | subscribe =>
    unfold LiveFeed.step at stepped
    dsimp only at stepped
    split at stepped <;> cases stepped
    rename_i subscribing
    exact ⟨subscribe_sound h subscribing, replaces_of_queue rfl⟩
  | read =>
    unfold LiveFeed.step at stepped
    dsimp only at stepped
    split at stepped <;> cases stepped
    rename_i reading
    exact ⟨read_sound h reading, replaces_of_queue rfl⟩
  | snapshot =>
    unfold LiveFeed.step at stepped
    dsimp only at stepped
    split at stepped <;> cases stepped
    rename_i row composing
    exact ⟨snapshot_sound h composing timely, replaces_of_queue rfl⟩
  | receive =>
    unfold LiveFeed.step at stepped
    dsimp only at stepped
    split at stepped
    · rename_i waiting
      obtain ⟨signal, queued, rfl⟩ := Option.map_eq_some_iff.mp stepped
      exact receive_sound h waiting queued
    · cases stepped

theorem initial_feedSound (sessions : Table SessionRow.sessionHandle) (turnId principalId : String) :
    FeedSound (.initial sessions turnId principalId) where
  executed := ⟨rfl, rfl⟩
  composing := by simp [LiveFeed.initial]
  flushing i at_i := by cases at_i
  flushed gone := by cases gone
  followed := by
    refine ⟨?_, ?_, ?_, fun _ _ => rfl, ?_, .nil, ?_⟩ <;>
      simp [LiveFeed.initial, UpdatesPhase.row]

end Feed

/-- Every run whose notifiers are in time: a subscriber gets revisions that do not fall and the
turn's end last, and what its subscription holds gives way to nothing older. -/
theorem live_updates_in_order (sessions : Table SessionRow.sessionHandle)
    (turnId principalId : String) (acts : List LiveAct)
    (timely : ∀ taken ∈ accepted LiveFeed.step (.initial sessions turnId principalId) acts,
      taken.2.Timely taken.1) :
    (∀ s ∈ trace LiveFeed.step (.initial sessions turnId principalId) acts, s.InOrder) ∧
      ∀ taken ∈ accepted LiveFeed.step (.initial sessions turnId principalId) acts, ∀ t,
        LiveFeed.step taken.1 taken.2 = some t → taken.1.Replaces t := by
  have kept : ∀ s act t, FeedSound s → LiveAct.Timely s act → LiveFeed.step s act = some t →
      FeedSound t :=
    fun _ _ _ h timely stepped => (feed_step_sound h timely stepped).1
  have start := initial_feedSound sessions turnId principalId
  constructor
  · intro s member
    exact (Transition.trace_safe_of_clean kept start timely s member).inOrder
  · have good : ∀ s act t, FeedSound s → LiveAct.Timely s act → LiveFeed.step s act = some t →
        ∀ t', LiveFeed.step s act = some t' → s.Replaces t' :=
      fun _ _ _ h timely _ _ stepped => (feed_step_sound h timely stepped).2
    exact Transition.accepted_of_clean kept good start timely

section Sample

def sampleFeed : LiveFeed := .initial Knoa.Tasks.sampleSessions "t" "p"

/-- A turn begins, and a client calls `updates`. -/
def followedTurn : List LiveAct :=
  [.create 0
      { scope := { principalId := "p", sessionHandle := "s" }, clientRequestId := "r",
        userInput := "hello" }, .subscribe, .read]

def completedTurn (notifier : Nat) : List LiveAct :=
  [.finish .completed "" none, .checkpoint 1 "p", .flush, .look notifier, .get notifier,
    .compose notifier]

/-- A notifier that read the running turn publishes it over the end, and the subscriber waits
on; or a snapshot comes with an older signal queued. -/
theorem late_updates_regress : (¬ ∀ s ∈ trace LiveFeed.step sampleFeed
        (followedTurn ++ [.snapshot, .notify, .look 0, .get 0] ++ completedTurn 1 ++
          [.compose 0, .pop, .receive]), s.InOrder) ∧
      ¬ ∀ s ∈ trace LiveFeed.step sampleFeed
        (followedTurn ++ [.event {} true, .look 0, .get 0, .compose 0, .event {} true, .snapshot,
          .receive]), s.InOrder := by
  constructor
  · intro along
    have last := along _ (Transition.mem_trace_final _ _)
    exact last.served (by decide +kernel) (by decide +kernel) (by decide +kernel)
  · intro along
    have last := along _ (Transition.mem_trace_final _ _)
    exact absurd last.ordered (by decide +kernel)

def sampleFollowed : List LiveAct :=
  followedTurn ++ [.snapshot, .event {} true, .look 0, .get 0, .compose 0, .receive] ++
    completedTurn 1 ++ [.pop, .receive]

theorem live_updates_in_order_sample :
    (∀ s ∈ trace LiveFeed.step sampleFeed sampleFollowed, s.InOrder) ∧
      ∀ taken ∈ accepted LiveFeed.step sampleFeed sampleFollowed, ∀ t,
        LiveFeed.step taken.1 taken.2 = some t → taken.1.Replaces t :=
  live_updates_in_order _ _ _ _ (by decide +kernel)

end Sample

end Knoa.Conversation
