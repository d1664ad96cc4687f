import Knoa.Conversation.Snapshots
import Knoa.Library.Versions

/-!
# Is the revision of a turn a version?

The row counts its own changes and the live turn counts its events; `get_turn` returns the larger
count.
-/
namespace Knoa.Conversation
open Knoa.Tasks Relational Transition Versions

variable {store store' : ConversationStore} {op : ConversationOp} {row : ChatTurnRow}

def ConversationStore.hasPending (s : ConversationStore) (turnId : String) : Bool :=
  (s.approvals.owned ChatApprovalRow.turnId turnId).any fun approval => approval.state == .pending

/-- Where a call changes what is stored of a turn: whether it leaves the turn ended, and with
which revision. -/
def ConversationOp.leaves (s : ConversationStore) (row : ChatTurnRow) :
    ConversationOp → Option (Bool × Nat)
  | .create _ _ _ => none
  | .checkpoint _ _ named values =>
    if named = row.turnId ∧ row.state.isTerminal = false then
      some (values.finished, max (row.revision + 1) (values.revision.getD 0))
    else none
  | .requestCancel _ _ named =>
    if named = row.turnId ∧ row.state.isTerminal = false then some (false, row.revision + 1)
    else none
  | .recoverInterrupted _ =>
    if row.state.isTerminal = false then some (true, row.revision + 1)
    else if s.hasPending row.turnId = true then some (true, row.revision)
    else none
  | .beginToolStep _ _ named stepId _ =>
    if named = row.turnId ∧ s.steps.lookup stepId = none then
      some (row.state.isTerminal, row.revision)
    else none
  | .finishToolStep _ _ named stepId _ =>
    if named = row.turnId ∧
        (s.steps.owned ChatToolStepRow.turnId named).any (fun step => step.stepId == stepId) then
      some (row.state.isTerminal, row.revision)
    else none
  | .requestApproval _ _ named stepId _ _ _ =>
    if named = row.turnId ∧
        (s.approvals.owned ChatApprovalRow.turnId named).all
          (fun approval => approval.stepId != stepId) then
      some (false, row.revision + 1)
    else none
  | .resolveApproval _ _ approvalId _ _ =>
    if (s.approvals.owned ChatApprovalRow.turnId row.turnId).any
        (fun approval => approval.approvalId == approvalId && approval.state == .pending) then
      some (false, row.revision + 1)
    else none
  | .expirePendingApprovals _ _ named _ =>
    if named = row.turnId ∧ s.hasPending named = true then
      some (row.state.isTerminal, row.revision)
    else none

structure SameRecord (turnId : String) (s t : ConversationStore) : Prop where
  row : t.turns.lookup turnId = s.turns.lookup turnId
  toolSteps : t.toolStepsOf turnId = s.toolStepsOf turnId
  approvals : t.approvalsOf turnId = s.approvalsOf turnId

theorem owned_update_fixed {ρ κ ω : Type} [DecidableEq ω] {key : ρ → κ} {t : Table key}
    {owner : ρ → ω} {p : ρ → Bool} {f : ρ → ρ} {k : ∀ row, key (f row) = key row} {o : ω}
    (same : ∀ row, owner (f row) = owner row)
    (fixed : ∀ row ∈ t.owned owner o, p row = true → f row = row) :
    (t.update p f k).owned owner o = t.owned owner o := by
  rw [Table.owned_update same]
  conv_rhs => rw [← List.map_id (t.owned owner o)]
  apply List.map_congr_left
  intro row member
  split
  · next selected => exact fixed row member selected
  · rfl

theorem owned_update_none {ρ κ ω : Type} [DecidableEq ω] {key : ρ → κ} {t : Table key}
    {owner : ρ → ω} {p : ρ → Bool} {f : ρ → ρ} {k : ∀ row, key (f row) = key row} {o : ω}
    (same : ∀ row, owner (f row) = owner row) (untouched : ∀ row ∈ t.owned owner o, p row = false) :
    (t.update p f k).owned owner o = t.owned owner o := by
  refine owned_update_fixed same fun row member selected => ?_
  rw [untouched row member] at selected
  cases selected

variable {p : ChatTurnRow → Bool} {f : ChatTurnRow → ChatTurnRow}
  {k : ∀ row, (f row).turnId = row.turnId}

theorem lookup_updateTurns_other (found : store.turns.lookup row.turnId = some row)
    (untouched : p row = false) :
    (store.updateTurns p f k).turns.lookup row.turnId = store.turns.lookup row.turnId := by
  have after := Table.lookup_update store.turns p f k row.turnId
  rw [found, Option.map_some, untouched] at after
  rw [found]
  exact after

theorem lookup_updateTurns_self (found : store.turns.lookup row.turnId = some row)
    (touched : p row = true) :
    (store.updateTurns p f k).turns.lookup row.turnId = some (f row) := by
  have after := Table.lookup_update store.turns p f k row.turnId
  rw [found, Option.map_some, touched] at after
  exact after

variable {now : Time} {turnId : String}

theorem lookup_expirePending {resolvedBy : String} {of : ChatApprovalRow → Bool} :
    (store.expirePending now resolvedBy of).turns.lookup turnId = store.turns.lookup turnId := rfl

theorem approvalsOf_updateTurns :
    (store.updateTurns p f k).approvalsOf turnId = store.approvalsOf turnId := rfl

theorem toolStepsOf_updateSteps {p : ChatToolStepRow → Bool} {f : ChatToolStepRow → ChatToolStepRow}
    {k : ∀ row, (f row).stepId = row.stepId} (same : ∀ step, (f step).turnId = step.turnId)
    (untouched : ∀ step ∈ store.steps.owned ChatToolStepRow.turnId turnId, p step = false) :
    (store.updateSteps p f k).toolStepsOf turnId = store.toolStepsOf turnId := by
  exact congrArg _ (owned_update_none (k := k) same untouched)

theorem approvalsOf_updateApprovals {p : ChatApprovalRow → Bool}
    {f : ChatApprovalRow → ChatApprovalRow} {k : ∀ row, (f row).approvalId = row.approvalId}
    (same : ∀ approval, (f approval).turnId = approval.turnId)
    (untouched : ∀ approval ∈ store.approvals.owned ChatApprovalRow.turnId turnId,
      p approval = false) :
    (store.updateApprovals p f k).approvalsOf turnId = store.approvalsOf turnId := by
  exact congrArg _ (owned_update_none (k := k) same untouched)

theorem approvalsOf_expirePending {resolvedBy : String} {of : ChatApprovalRow → Bool}
    (untouched : ∀ approval ∈ store.approvals.owned ChatApprovalRow.turnId turnId,
      (of approval && approval.state == .pending) = false) :
    (store.expirePending now resolvedBy of).approvalsOf turnId = store.approvalsOf turnId :=
  approvalsOf_updateApprovals (fun _ => rfl) untouched

theorem not_pending (none_pending : store.hasPending turnId = false) :
    ∀ approval ∈ store.approvals.owned ChatApprovalRow.turnId turnId,
      (approval.state == .pending) = false := by
  intro approval member
  have none_of := List.any_eq_false.mp none_pending approval member
  exact Bool.not_eq_true _ ▸ none_of

theorem leaves_le {ended : Bool} {revision : Nat} (left : op.leaves store row = some (ended, revision)) :
    row.revision ≤ revision := by
  cases op <;> simp only [ConversationOp.leaves] at left <;> grind

theorem ConversationTaken.record (taken : ConversationTaken store op store')
    (found : store.turns.lookup row.turnId = some row) : SameRecord row.turnId store store' ∨
      ∃ ended revision row', op.leaves store row = some (ended, revision) ∧
        store'.turns.lookup row.turnId = some row' ∧ row'.state.isTerminal = ended ∧
        row'.revision = revision := by
  cases taken with
  | same timely => exact .inl ⟨rfl, rfl, rfl⟩
  | created starts inserted =>
    refine .inl ⟨?_, rfl, rfl⟩
    have after := Table.lookup_insert inserted row.turnId
    split at after
    · next same =>
        have fresh := Table.insert_fresh inserted
        rw [same] at fresh
        exact absurd (List.mem_map_of_mem (Table.lookup_mem found)) fresh
    · exact after
  | checkpointed current live ends =>
    rename_i now principalId named values stands
    by_cases same : named = row.turnId
    · subst same
      rw [found] at current
      cases current
      have moved := lookup_updateTurns_self (k := fun _ => rfl)
        (p := fun turn => turn.turnId == row.turnId) (f := fun turn =>
          { turn with
            state := values.state.getD row.state, reasoning := values.reasoning.getD turn.reasoning,
            content := values.content.getD turn.content,
            finalOutput := values.finalOutput.getD turn.finalOutput,
            timeline := values.timeline.getD turn.timeline,
            artifacts := values.artifacts.getD turn.artifacts,
            failureCode := values.failureCode.getD turn.failureCode,
            cancelRequested := values.cancelRequested.getD turn.cancelRequested, updatedAt := now,
            finishedAt := if values.finished then some now else turn.finishedAt,
            revision := max (turn.revision + 1) (values.revision.getD 0) })
        found (beq_self_eq_true _)
      have leaves : (ConversationOp.checkpoint now principalId row.turnId values).leaves store row =
          some (values.finished, max (row.revision + 1) (values.revision.getD 0)) := by
        simp only [ConversationOp.leaves, live, and_self, if_true]
      cases ending : values.finished with
      | true =>
        rw [ending] at leaves ends moved
        exact .inr ⟨true, _, _, leaves, moved, ends, rfl⟩
      | false =>
        rw [ending] at leaves ends moved
        exact .inr ⟨false, _, _, leaves, moved, ends, rfl⟩
    · have apart : (row.turnId == named) = false := beq_eq_false_iff_ne.mpr (Ne.symm same)
      refine .inl ⟨?_, ?_, ?_⟩
      · split
        · exact lookup_expirePending.trans (lookup_updateTurns_other found apart)
        · exact lookup_updateTurns_other found apart
      · split <;> rfl
      · split
        · refine approvalsOf_expirePending ?_
          intro approval member
          rw [(Table.mem_owned.mp member).2, apart, Bool.false_and]
        · rfl
  | cancelRequested =>
    rename_i now principalId named
    by_cases touched : named = row.turnId ∧ row.state.isTerminal = false
    · obtain ⟨rfl, live⟩ := touched
      refine .inr ⟨false, _, _, ?_, lookup_updateTurns_self found ?_, live, rfl⟩
      · simp only [ConversationOp.leaves, live, and_self, if_true]
      · simp [live]
    · refine .inl ⟨lookup_updateTurns_other found ?_, rfl, rfl⟩
      rw [Bool.and_eq_false_iff]
      by_cases same : named = row.turnId
      · refine .inr ?_
        have ended : row.state.isTerminal = true := by
          by_contra live
          exact touched ⟨same, Bool.not_eq_true _ ▸ live⟩
        rw [ended]
        rfl
      · exact .inl (beq_eq_false_iff_ne.mpr (Ne.symm same))
  | recovered =>
    rename_i now
    have interrupted : row.state.isInterrupted = !row.state.isTerminal := by
      cases row.state <;> rfl
    cases ended : row.state.isTerminal with
    | false =>
      rw [ended] at interrupted
      refine .inr ⟨true, _, _, ?_,
        lookup_expirePending.trans (lookup_updateTurns_self found interrupted), rfl, rfl⟩
      simp only [ConversationOp.leaves, ended, if_true]
    | true =>
      rw [ended] at interrupted
      cases waiting : store.hasPending row.turnId with
      | true =>
        refine .inr ⟨true, _, row, ?_, ?_, ended, rfl⟩
        · simp [ConversationOp.leaves, ended, waiting]
        · exact (lookup_expirePending.trans
            (lookup_updateTurns_other found interrupted)).trans found
      | false =>
        refine .inl
          ⟨lookup_expirePending.trans (lookup_updateTurns_other found interrupted), rfl, ?_⟩
        refine approvalsOf_expirePending ?_
        intro approval member
        rw [Bool.true_and]
        exact not_pending waiting approval member
  | begun new of running inserted =>
    rename_i now principalId named stepId call step steps
    by_cases same : named = row.turnId
    · refine .inr ⟨_, _, row, ?_, found, rfl, rfl⟩
      simp only [ConversationOp.leaves, same, new, and_self, if_true]
    · refine .inl ⟨rfl, ?_, rfl⟩
      unfold ConversationStore.toolStepsOf
      rw [Table.owned_of_append_other (Table.insert_rows inserted)]
      exact fun other => same (of ▸ other.symm)
  | finished =>
    rename_i now principalId named stepId result
    by_cases touched : named = row.turnId ∧
        (store.steps.owned ChatToolStepRow.turnId named).any (fun step => step.stepId == stepId)
    · refine .inr ⟨_, _, row, ?_, found, rfl, rfl⟩
      rw [ConversationOp.leaves, if_pos touched]
    · refine .inl ⟨rfl, ?_, rfl⟩
      refine toolStepsOf_updateSteps (fun _ => rfl) ?_
      intro step member
      by_contra selected
      simp only [Bool.not_eq_false, Bool.and_eq_true, beq_iff_eq] at selected
      have owner := (Table.mem_owned.mp member).2
      rw [owner] at selected
      refine touched ⟨selected.2.symm, List.any_eq_true.mpr ⟨step, ?_, by simp [selected.1]⟩⟩
      rw [← selected.2]
      exact member
  | requested new of inserted =>
    rename_i now principalId named stepId approvalId reason call approval approvals
    by_cases same : named = row.turnId
    · refine .inr ⟨false, _, _, ?_, @lookup_updateTurns_self { store with approvals }
        row _ _ _ found (by simp [same]), rfl, rfl⟩
      have first : (store.approvals.owned ChatApprovalRow.turnId named).all
          (fun approval => approval.stepId != stepId) = true := by
        rw [List.all_eq_true]
        intro other member
        obtain ⟨stands, owner⟩ := Table.mem_owned.mp member
        rw [bne_iff_ne]
        exact fun step => new other stands ⟨owner, step⟩
      rw [ConversationOp.leaves, if_pos ⟨same, first⟩]
    · refine .inl ⟨@lookup_updateTurns_other { store with approvals } row _ _ _ found
        (beq_eq_false_iff_ne.mpr (Ne.symm same)), rfl, ?_⟩
      refine congrArg _ (Table.owned_of_append_other (Table.insert_rows inserted) ?_)
      exact fun other => same (of ▸ other.symm)
  | resolved of pending =>
    rename_i now principalId approvalId resolvedBy approved approval
    have named := Table.lookup_key of
    have stands := Table.lookup_mem of
    by_cases same : approval.turnId = row.turnId
    · refine .inr ⟨false, _, _, ?_, @lookup_updateTurns_self (store.updateApprovals _ _ _) row _ _
        _ found (by simp [same]), rfl, rfl⟩
      rw [ConversationOp.leaves, if_pos]
      refine List.any_eq_true.mpr ⟨approval, Table.mem_owned.mpr ⟨stands, same⟩, ?_⟩
      simp [named, pending]
    · refine .inl ⟨@lookup_updateTurns_other (store.updateApprovals _ _ _) row _ _ _ found
        (beq_eq_false_iff_ne.mpr (Ne.symm same)), rfl, ?_⟩
      refine approvalsOf_updateTurns.trans (approvalsOf_updateApprovals (fun _ => rfl) ?_)
      intro other member
      rw [beq_eq_false_iff_ne]
      intro one
      have equal : other = approval :=
        Table.mem_unique (Table.mem_owned.mp member).1 stands (one.trans named.symm)
      exact same (equal ▸ (Table.mem_owned.mp member).2)
  | expired =>
    rename_i now principalId named resolvedBy
    by_cases touched : named = row.turnId ∧ store.hasPending named = true
    · refine .inr ⟨_, _, row, ?_, found, rfl, rfl⟩
      rw [ConversationOp.leaves, if_pos touched]
    · refine .inl ⟨rfl, rfl, approvalsOf_expirePending ?_⟩
      intro approval member
      rw [Bool.and_eq_false_iff]
      by_cases same : named = row.turnId
      · refine .inr (not_pending ?_ approval member)
        by_contra waiting
        rw [Bool.not_eq_false] at waiting
        exact touched ⟨same, same ▸ waiting⟩
      · refine .inl ?_
        rw [(Table.mem_owned.mp member).2, beq_eq_false_iff_ne]
        exact Ne.symm same

namespace TurnViews

variable (s : TurnViews)

/-- The snapshot of a `get_turn` that nothing comes between. -/
def current : Option ChatTurn := s.turn.map fun row => s.compose
  { row, toolSteps := s.store.toolStepsOf s.turnId, approvals := s.store.approvalsOf s.turnId,
    interactions := listOwner s.interactions (s.owner row.principalId) }

def revision : Nat := (s.current.map ChatTurn.revision).getD 0

def liveRevision : Nat := (s.live.map LiveTurn.revision).getD 0

def merged (ended : Bool) (revision : Nat) : Nat :=
  if ended = true then revision else max s.liveRevision revision

/-- Whether an act changes what is shown of the turn: a call that writes of it, an interaction of
its own, a live event. -/
def changes : ViewAct → Bool
  | .repository op => s.turn.any fun row => (op.leaves s.store row).isSome
  | .request key request _ _ =>
    request.ownerKind == .conversationTurn && request.ownerId == s.turnId &&
      (s.interactions.rows.find? fun record => record.key == key).isNone
  | .settle interactionId _ _ => (s.interactions.lookup interactionId).any fun record =>
      record.pending && (record.ownerKind == .conversationTurn && record.ownerId == s.turnId)
  | .event text => text.isSome
  | .pop => true
  | .getTurn _ | .query _ => false

/-- Whether the row's revision is raised with no live one at or above it, or the live one with no
row's above it; of an ended turn only the row counts. -/
def raises (s' : TurnViews) : Bool :=
  s.turn.any fun row => s'.turn.any fun row' =>
    row.revision < row'.revision && (row.state.isTerminal || s.liveRevision < row'.revision) ||
      !row'.state.isTerminal && (s.liveRevision < s'.liveRevision && row.revision < s'.liveRevision)

/-- Whether the turn ends, or its live text goes, with the live revision above the row's. -/
def falls : ViewAct → Bool
  | .repository op => s.turn.any fun row => (op.leaves s.store row).any fun left =>
      !row.state.isTerminal && left.1 && left.2 < s.liveRevision
  | .pop => s.turn.any fun row => !row.state.isTerminal && row.revision < s.liveRevision
  | _ => false

end TurnViews

/-- What has come since a snapshot was last handed out. -/
structure Since where
  changed : Bool := false
  raised : Bool := true

namespace TurnViews

def note (s : TurnViews) (a : ViewAct) (s' : TurnViews) (w : Since) : Since :=
  match a with
  | .query i =>
    match s.gets[i]? with
    | some (.composing _) => { raised := false }
    | _ => w
  | a => { changed := w.changed || s.changes a, raised := w.raised || s.raises s' }

def run (env : SchemaEnv) := Transition.recording (TurnViews.step env) note

/-- What a `get_turn` returns has not changed since it was read, and if the turn has changed since
the last snapshot, so has a revision that counts. The revision does not fall. -/
def Clean (s : TurnViews × Since) : ViewAct → Prop
  | .query i =>
    match s.1.gets[i]? with
    | some (.composing turn) =>
      (s.1.turn = some turn.row ∧ turn.toolSteps = s.1.store.toolStepsOf s.1.turnId ∧
        turn.approvals = s.1.store.approvalsOf s.1.turnId ∧
        turn.interactions = listOwner s.1.interactions (s.1.owner turn.row.principalId)) ∧
      (s.2.changed = true → s.2.raised = true)
    | _ => True
  | a => s.1.falls a = false

instance (s : TurnViews × Since) (a : ViewAct) : Decidable (Clean s a) := by
  unfold Clean
  cases a with
  | query i =>
    dsimp only
    split <;> infer_instance
  | _ => infer_instance

end TurnViews

section Views
variable {s s' : TurnViews} {env : SchemaEnv} {w : Since}

theorem compose_revision (turn : ChatTurn) : (s.compose turn).revision =
    s.merged turn.row.state.isTerminal turn.row.revision := by
  unfold TurnViews.compose TurnViews.merged TurnViews.liveRevision
  cases s.live with
  | none | some live => cases turn.row.state.isTerminal <;> simp [ChatTurn.revision]

theorem revision_of_turn (stored : s.turn = some row) :
    s.revision = s.merged row.state.isTerminal row.revision := by
  rw [TurnViews.revision, TurnViews.current, stored]
  exact compose_revision _

/-- A raise is one of what `get_turn` returns, if the live revision has not fallen. -/
theorem raises_lt (raised : s.raises s' = true) (grows : s.liveRevision ≤ s'.liveRevision) :
    s.revision < s'.revision := by
  obtain ⟨row, stored, raised⟩ := (Option.any_eq_true _ _).mp raised
  obtain ⟨row', stored', raised⟩ := (Option.any_eq_true _ _).mp raised
  rw [revision_of_turn stored, revision_of_turn stored', TurnViews.merged, TurnViews.merged]
  simp only [Bool.or_eq_true, Bool.and_eq_true, decide_eq_true_eq, Bool.not_eq_true'] at raised
  split <;> split <;> grind

/-- The snapshots that were returned are versions of the turn; with no change since the last one a
client would see it again. -/
structure Versioned (s : TurnViews) (w : Since) : Prop where
  ordered : Ordered ChatTurn.revision ChatTurn.visible s.returned
  below : ∀ turn ∈ s.returned, turn.revision ≤ s.revision
  outdated : w.raised = true → Outdated ChatTurn.revision s.returned s.revision
  same : w.changed = false → Current ChatTurn.revision ChatTurn.visible s.returned s.revision
    (s.current.map ChatTurn.visible)
  stands : s.turn = none → s.returned = []
  named : ∀ turn ∈ s.returned, turn.row.turnId = s.turnId

theorem versioned_of_empty (empty : s.returned = []) : Versioned s w := by
  have nothing : ∀ {P : ChatTurn → Prop}, ∀ turn ∈ s.returned, P turn := by
    intro P turn member
    rw [empty] at member
    cases member
  refine ⟨?_, nothing, fun _ => nothing, fun _ => ⟨nothing, nothing⟩, fun _ => empty, nothing⟩
  rw [empty]
  exact Versions.ordered_nil

/-- An act that leaves the revision where it is or raises it. -/
theorem Versioned.moved (versioned : Versioned s w) (s' : TurnViews) (changed : Bool)
    (returned : s'.returned = s.returned) (turnId : s'.turnId = s.turnId) (stands : s'.turn = none → s.turn = none)
    (le : s.revision ≤ s'.revision) (lt : s.raises s' = true → s.revision < s'.revision)
    (same : changed = false → s'.current = s.current) :
    Versioned s' { changed := w.changed || changed, raised := w.raised || s.raises s' } := by
  refine ⟨by rw [returned]; exact versioned.ordered, ?_, ?_, ?_, ?_, ?_⟩
  · rw [returned]
    exact fun turn member => (versioned.below turn member).trans le
  · intro raised
    rw [returned]
    rcases (Bool.or_eq_true _ _).mp raised with before | now
    · exact (versioned.outdated before).mono le
    · exact fun turn member => (versioned.below turn member).trans_lt (lt now)
  · intro unchanged
    obtain ⟨before, now⟩ := Bool.or_eq_false_iff.mp unchanged
    rw [returned, TurnViews.revision, same now]
    exact versioned.same before
  · intro absent
    rw [returned]
    exact versioned.stands (stands absent)
  · rw [returned, turnId]
    exact versioned.named

theorem Versioned.repository (versioned : Versioned s w) {op : ConversationOp}
    (clean : s.falls (.repository op) = false) (h : s.step env (.repository op) = some s') :
    Versioned s' (s.note (.repository op) s' w) := by
  obtain ⟨store, taken, rfl⟩ := Option.map_eq_some_iff.mp h
  cases stored : s.turn with
  | none => exact versioned_of_empty (versioned.stands stored)
  | some row =>
    have found : s.store.turns.lookup row.turnId = some row := by
      rw [Table.lookup_key stored]
      exact stored
    have named : row.turnId = s.turnId := Table.lookup_key stored
    rcases (conversation_step_taken taken).record found with same | ⟨ended, revision, row', left,
      after, ends, counts⟩
    · rw [named] at same
      have still : ({ s with store } : TurnViews).current = s.current := by
        unfold TurnViews.current TurnViews.turn
        simp only [same.row, same.toolSteps, same.approvals]
        rfl
      refine versioned.moved { s with store } _ rfl rfl ?_ ?_ (raises_lt · le_rfl) fun _ => still
      · intro absent
        exact same.row.symm.trans absent
      · rw [TurnViews.revision, TurnViews.revision, still]
    · rw [named] at after
      have later := @revision_of_turn row' { s with store } after
      refine versioned.moved { s with store } _ rfl rfl ?_ ?_ (raises_lt · le_rfl) ?_
      · intro absent
        cases after.symm.trans absent
      · have upward : row.revision ≤ revision := leaves_le left
        rw [revision_of_turn stored, later, ends, counts]
        simp only [TurnViews.falls, stored, left, Option.any_some, Bool.and_eq_false_iff,
          decide_eq_false_iff_not, Bool.not_eq_false'] at clean
        rw [TurnViews.merged, TurnViews.merged]
        change _ ≤ if ended = true then revision else max s.liveRevision revision
        split <;> split <;> grind
      · intro unchanged
        simp only [TurnViews.changes, stored, left, Option.any_some, Option.isSome_some] at unchanged
        cases unchanged

theorem Versioned.event (versioned : Versioned s w) {text : Option LiveText}
    (h : s.step env (.event text) = some s') : Versioned s' (s.note (.event text) s' w) := by
  obtain ⟨live, going, after⟩ := Option.map_eq_some_iff.mp h
  cases text with
  | none =>
    subst after
    exact versioned.moved s _ rfl rfl id le_rfl (raises_lt · le_rfl) fun _ => rfl
  | some text =>
    subst after
    have grows : s.liveRevision ≤ (({ s with live := some { live with
        text, revision := live.revision + 1 } } : TurnViews)).liveRevision := by
      rw [TurnViews.liveRevision, going]
      exact Nat.le_succ _
    refine versioned.moved { s with live := some { live with text, revision := live.revision + 1 } } _
      rfl rfl id ?_ (raises_lt · grows) nofun
    cases stored : s.turn with
    | none =>
      rw [TurnViews.revision, TurnViews.current, stored]
      exact Nat.zero_le _
    | some row =>
      have later := @revision_of_turn row
        { s with live := some { live with text, revision := live.revision + 1 } } stored
      rw [revision_of_turn stored, later, TurnViews.merged, TurnViews.merged]
      split
      · exact le_rfl
      · omega

theorem Versioned.pop (versioned : Versioned s w) (clean : s.falls .pop = false)
    (h : s.step env .pop = some s') : Versioned s' (s.note .pop s' w) := by
  cases h
  refine versioned.moved { s with live := none } true rfl rfl id ?_ ?_ nofun
  · cases stored : s.turn with
    | none =>
      rw [TurnViews.revision, TurnViews.current, stored]
      exact Nat.zero_le _
    | some row =>
      have later := @revision_of_turn row { s with live := none } stored
      rw [revision_of_turn stored, later, TurnViews.merged, TurnViews.merged]
      simp only [TurnViews.falls, stored, Option.any_some, Bool.and_eq_false_iff,
        decide_eq_false_iff_not, Bool.not_eq_false'] at clean
      split
      · exact le_rfl
      · grind
  · intro raised
    obtain ⟨row, stored, raised⟩ := (Option.any_eq_true _ _).mp raised
    obtain ⟨row', stored', raised⟩ := (Option.any_eq_true _ _).mp raised
    have one : row' = row := Option.some.inj (stored'.symm.trans stored)
    have none_left : ({ s with live := none } : TurnViews).liveRevision = 0 := rfl
    simp [one, none_left] at raised

theorem listOwner_of_owned {t u : InteractionTable} {owner : String × OwnerKind × String}
    (same : t.owned HumanInteraction.owner owner = u.owned HumanInteraction.owner owner) :
    listOwner t owner = listOwner u owner := by
  rw [listOwner, same, listOwner]

theorem Versioned.interactions (versioned : Versioned s w) {interactions : InteractionTable}
    {changed : Bool} (same : changed = false → ∀ principalId,
      listOwner interactions (s.owner principalId) = listOwner s.interactions (s.owner principalId)) :
    Versioned { s with interactions }
      { changed := w.changed || changed, raised := w.raised || s.raises { s with interactions } } := by
  have level : s.revision = ({ s with interactions } : TurnViews).revision := by
    cases stored : s.turn with
    | none =>
      have after : ({ s with interactions } : TurnViews).turn = none := stored
      rw [TurnViews.revision, TurnViews.revision, TurnViews.current, TurnViews.current, stored, after]
      rfl
    | some row =>
      rw [revision_of_turn stored, @revision_of_turn row { s with interactions } stored]
      rfl
  refine versioned.moved { s with interactions } _ rfl rfl id level.le (raises_lt · le_rfl)
    fun unchanged => ?_
  refine congrArg (Option.map · s.turn) (funext fun row => ?_)
  exact congrArg (fun interactions => s.compose
    { row, toolSteps := s.store.toolStepsOf s.turnId, approvals := s.store.approvalsOf s.turnId,
      interactions }) (same unchanged row.principalId)

variable {interactionId : String}

theorem requestInteraction_created {key : InteractionKey} {stored : Option HumanInteraction}
    {request : InteractionRequest} {free : Bool} {record : HumanInteraction}
    (h : requestInteraction env key stored request now interactionId free = some (record, true)) :
    stored = none ∧ record.owner = (request.principalId, request.ownerKind, request.ownerId) := by
  unfold requestInteraction at h
  split at h
  · split at h
    · split at h <;> cases h
    · dsimp only at h
      split at h <;> cases h
      exact ⟨rfl, rfl⟩
  · cases h

variable {call : InteractionCall}

theorem write_ended {record after : HumanInteraction} {changed : Bool}
    (h : call.write env (some record) now = some (after, changed)) (ended : record.pending = false) :
    after = record := by
  cases call with
  | resolve principalId value resolvedBy =>
    simp only [InteractionCall.write, resolveInteraction, ended, if_true] at h
    split at h <;> cases h
    rfl
  | expire principalId =>
    simp only [InteractionCall.write, expireInteraction, ended, if_true] at h
    split at h <;> cases h
    rfl

theorem write_stored {after : HumanInteraction} {changed : Bool} :
    call.write env none now ≠ some (after, changed) := by
  cases call <;> exact nofun

theorem Versioned.request (versioned : Versioned s w) {key : InteractionKey}
    {request : InteractionRequest} (h : s.step env (.request key request now interactionId) = some s') :
    Versioned s' (s.note (.request key request now interactionId) s' w) := by
  simp only [TurnViews.step] at h
  split at h
  · cases h
  · next record created asked =>
      split at h
      · next new =>
          subst new
          obtain ⟨interactions, inserted, rfl⟩ := Option.map_eq_some_iff.mp h
          obtain ⟨unknown, owner⟩ := requestInteraction_created asked
          refine versioned.interactions fun unchanged principalId => listOwner_of_owned ?_
          refine Table.owned_of_append_other (Table.insert_rows inserted) ?_
          rw [owner, TurnViews.owner]
          intro same
          simp only [Prod.mk.injEq] at same
          simp [TurnViews.changes, unknown, ← same.2.1, ← same.2.2] at unchanged
      · cases h
        exact versioned.interactions fun _ _ => rfl

theorem Versioned.settle (versioned : Versioned s w)
    (h : s.step env (.settle interactionId call now) = some s') :
    Versioned s' (s.note (.settle interactionId call now) s' w) := by
  simp only [TurnViews.step] at h
  split at h
  · cases h
  · next after changed written =>
      cases h
      cases stored : s.interactions.lookup interactionId with
      | none =>
        rw [stored] at written
        exact absurd written write_stored
      | some record =>
        rw [stored] at written
        refine versioned.interactions fun unchanged principalId => listOwner_of_owned ?_
        refine owned_update_fixed (f := fun record : HumanInteraction => record.settled after)
          (k := fun _ => rfl) (fun _ => rfl) ?_
        intro row member same
        obtain ⟨stands, owner⟩ := Table.mem_owned.mp member
        have one : row = record := Table.mem_unique stands (Table.lookup_mem stored)
          ((eq_of_beq same).trans (Table.lookup_key stored).symm)
        rw [TurnViews.owner, HumanInteraction.owner, Prod.mk.injEq, Prod.mk.injEq] at owner
        have ended : record.pending = false := by
          simpa [TurnViews.changes, stored, ← one, owner.2.1, owner.2.2] using unchanged
        rw [one, write_ended written ended]
        rfl

theorem give_compose {read turn : ChatTurn} (same : turn.row = read.row) :
    (s.give read).compose turn = s.compose turn := by
  unfold TurnViews.give TurnViews.compose
  cases s.live with
  | none => rfl
  | some live =>
    simp only [Option.map_some, LiveTurn.observe, same]
    cases read.row.state.isTerminal with
    | true => rfl
    | false => simp

theorem Versioned.hand (versioned : Versioned s w) {turn : ChatTurn} (stored : s.turn = some turn.row)
    (now : s.current = some (s.compose turn)) (risen : w.changed = true → w.raised = true) :
    Versioned (s.give turn) { raised := false } := by
  have counts : (s.compose turn).revision = s.revision := by
    rw [TurnViews.revision, now]
    rfl
  have kept : (s.give turn).current = s.current := by
    have before : s.current = s.turn.map fun row => s.compose
        { row, toolSteps := s.store.toolStepsOf s.turnId,
          approvals := s.store.approvalsOf s.turnId,
          interactions := listOwner s.interactions (s.owner row.principalId) } := rfl
    have after : (s.give turn).current = s.turn.map fun row => (s.give turn).compose
        { row, toolSteps := s.store.toolStepsOf s.turnId,
          approvals := s.store.approvalsOf s.turnId,
          interactions := listOwner s.interactions (s.owner row.principalId) } := rfl
    rw [before, after, stored, Option.map_some, Option.map_some]
    exact congrArg some (give_compose rfl)
  have revision : (s.give turn).revision = s.revision := by
    rw [TurnViews.revision, TurnViews.revision, kept]
  have shown : Current ChatTurn.revision ChatTurn.visible s.returned s.revision
      (some (s.compose turn).visible) := by
    cases changed : w.changed with
    | false =>
      have same := versioned.same changed
      rwa [now, Option.map_some] at same
    | true => exact (versioned.outdated (risen changed)).current _
  have next := shown.append counts
  refine ⟨versioned.ordered.append shown counts, ?_, nofun, fun _ => ?_, ?_, ?_⟩
  · rw [revision]
    exact next.below
  · rw [revision, kept, now]
    exact next
  · intro absent
    cases stored.symm.trans absent
  · intro other member
    rcases List.mem_concat.mp member with old | last
    · exact versioned.named other old
    · rw [last]
      have named : turn.row.turnId = s.turnId := Table.lookup_key stored
      unfold TurnViews.compose
      split
      · exact named
      · split <;> exact named

/-- Of a `get_turn` only its last step hands something out. -/
theorem Versioned.of_gets (versioned : Versioned s w) (gets : List GetPhase) :
    Versioned { s with gets } w :=
  ⟨versioned.ordered, versioned.below, versioned.outdated, versioned.same, versioned.stands,
    versioned.named⟩

theorem Versioned.query (versioned : Versioned s w) {i : Nat} (clean : TurnViews.Clean (s, w) (.query i))
    (h : s.step env (.query i) = some s') : Versioned s' (s.note (.query i) s' w) := by
  rw [TurnViews.Clean] at clean
  rw [TurnViews.note]
  simp only [TurnViews.step] at h
  split at h
  · cases h
  · cases h
  · next turn composing =>
      cases h
      rw [composing] at clean ⊢
      obtain ⟨⟨stored, toolSteps, approvals, interactions⟩, risen⟩ := clean
      have now : s.current = some (s.compose turn) := by
        unfold TurnViews.current
        rw [stored, Option.map_some, ← toolSteps, ← approvals, ← interactions]
      exact (versioned.hand stored now risen).of_gets _
  · next phase _ other going =>
      cases h
      rw [going]
      cases phase with
      | composing turn => exact absurd rfl (other turn)
      | _ => exact versioned.of_gets _

theorem Versioned.step {a : ViewAct} (versioned : Versioned s w) (clean : TurnViews.Clean (s, w) a)
    (h : s.step env a = some s') : Versioned s' (s.note a s' w) := by
  cases a with
  | repository op => exact versioned.repository clean h
  | event text => exact versioned.event h
  | request key request now interactionId => exact versioned.request h
  | settle interactionId call now => exact versioned.settle h
  | getTurn principalId =>
    cases h
    exact (versioned.moved s false rfl rfl id le_rfl (raises_lt · le_rfl) fun _ => rfl).of_gets _
  | query i => exact versioned.query clean h
  | pop => exact versioned.pop clean h

end Views

section Merge
variable {merged : List ChatTurn} {turn kept : ChatTurn}

def turnIds (turns : List ChatTurn) : List String := turns.map fun turn => turn.row.turnId

theorem mergeTurn_mem (h : kept ∈ mergeTurn merged turn) : kept = turn ∨ kept ∈ merged := by
  induction merged with
  | nil => exact .inl (List.mem_singleton.mp h)
  | cons current merged ih =>
    rw [mergeTurn] at h
    split at h
    · rcases List.mem_cons.mp h with rfl | later
      · split
        · exact .inl rfl
        · exact .inr List.mem_cons_self
      · exact .inr (List.mem_cons_of_mem _ later)
    · rcases List.mem_cons.mp h with rfl | later
      · exact .inr List.mem_cons_self
      · exact (ih later).imp_right (List.mem_cons_of_mem _)

theorem mergeTurn_ids (merged : List ChatTurn) (turn : ChatTurn) : turnIds (mergeTurn merged turn) =
      if turn.row.turnId ∈ turnIds merged then turnIds merged
      else turnIds merged ++ [turn.row.turnId] := by
  induction merged with
  | nil => rfl
  | cons current merged ih =>
    rw [mergeTurn]
    split
    · next same =>
        have newest : (if current.revision < turn.revision then turn else current).row.turnId =
            current.row.turnId := by
          split
          · exact same.symm
          · rfl
        simp [turnIds, newest, same]
    · next apart =>
        have other : ¬turn.row.turnId = current.row.turnId := fun same => apart same.symm
        have step : turnIds (current :: mergeTurn merged turn) =
          current.row.turnId :: turnIds (mergeTurn merged turn) := rfl
        have before : turnIds (current :: merged) = current.row.turnId :: turnIds merged := rfl
        rw [step, ih, before]
        simp only [List.mem_cons, other, false_or]
        split <;> rfl

theorem mergeTurn_nodup (unique : (turnIds merged).Nodup) :
    (turnIds (mergeTurn merged turn)).Nodup := by
  rw [mergeTurn_ids]
  split
  · exact unique
  · next fresh =>
      rw [List.nodup_append]
      refine ⟨unique, List.nodup_singleton _, ?_⟩
      rintro id member _ last rfl
      exact fresh (List.mem_singleton.mp last ▸ member)

theorem mergeTurn_highest (unique : (turnIds merged).Nodup) (h : kept ∈ mergeTurn merged turn)
    (same : kept.row.turnId = turn.row.turnId) : turn.revision ≤ kept.revision ∧
      ∀ other ∈ merged, other.row.turnId = turn.row.turnId → other.revision ≤ kept.revision := by
  induction merged with
  | nil =>
    rw [List.mem_singleton.mp h]
    exact ⟨le_rfl, fun _ member => absurd member List.not_mem_nil⟩
  | cons current merged ih =>
    obtain ⟨absent, later_unique⟩ := List.nodup_cons.mp unique
    have only : ∀ other ∈ merged, other.row.turnId ≠ current.row.turnId := by
      intro other member equal
      refine absent ?_
      dsimp only
      rw [← equal]
      exact List.mem_map_of_mem (f := fun turn : ChatTurn => turn.row.turnId) member
    rw [mergeTurn] at h
    split at h
    · next here =>
        rcases List.mem_cons.mp h with rfl | later
        · have bounds : turn.revision ≤
              (if current.revision < turn.revision then turn else current).revision ∧
              current.revision ≤
              (if current.revision < turn.revision then turn else current).revision := by
            split <;> omega
          refine ⟨bounds.1, fun other member equal => ?_⟩
          rcases List.mem_cons.mp member with rfl | old
          · exact bounds.2
          · exact absurd (equal.trans here.symm) (only other old)
        · exact absurd (same.trans here.symm) (only kept later)
    · next apart =>
        rcases List.mem_cons.mp h with rfl | later
        · exact absurd same apart
        · obtain ⟨newest, oldest⟩ := ih later_unique later
          refine ⟨newest, fun other member equal => ?_⟩
          rcases List.mem_cons.mp member with rfl | old
          · exact absurd equal apart
          · exact oldest other old equal

theorem mergeTurn_other (h : kept ∈ mergeTurn merged turn)
    (apart : kept.row.turnId ≠ turn.row.turnId) : kept ∈ merged := by
  rcases mergeTurn_mem h with rfl | old
  · exact absurd rfl apart
  · exact old

structure Merged (seen merged : List ChatTurn) : Prop where
  unique : (turnIds merged).Nodup
  from_seen : ∀ kept ∈ merged, kept ∈ seen
  present : ∀ turn ∈ seen, turn.row.turnId ∈ turnIds merged
  highest : ∀ kept ∈ merged, ∀ turn ∈ seen, turn.row.turnId = kept.row.turnId →
    turn.revision ≤ kept.revision

theorem Merged.nil : Merged [] [] where
  unique := List.nodup_nil
  from_seen := fun _ member => absurd member List.not_mem_nil
  present := fun _ member => absurd member List.not_mem_nil
  highest := fun _ member => absurd member List.not_mem_nil

theorem Merged.add {seen : List ChatTurn} (state : Merged seen merged) (turn : ChatTurn) :
    Merged (seen ++ [turn]) (mergeTurn merged turn) where
  unique := mergeTurn_nodup state.unique
  from_seen := by
    intro kept member
    rcases mergeTurn_mem member with rfl | old
    · exact List.mem_concat_self
    · exact List.mem_append_left _ (state.from_seen kept old)
  present := by
    intro other member
    rw [mergeTurn_ids]
    rcases List.mem_concat.mp member with old | last
    · have known := state.present other old
      split
      · exact known
      · exact List.mem_append_left _ known
    · rw [last]
      split
      · assumption
      · exact List.mem_concat_self
  highest := by
    intro kept member other seen_now equal
    by_cases same : kept.row.turnId = turn.row.turnId
    · obtain ⟨newest, others⟩ := mergeTurn_highest state.unique member same
      rcases List.mem_concat.mp seen_now with old | last
      · obtain ⟨entry, stands, id⟩ := List.mem_map.mp (state.present other old)
        have bound := state.highest entry stands other old id.symm
        exact bound.trans (others entry stands (id.trans (equal.trans same)))
      · rw [last]
        exact newest
    · have old_entry := mergeTurn_other member same
      rcases List.mem_concat.mp seen_now with old | last
      · exact state.highest kept old_entry other old equal
      · rw [last] at equal
        exact absurd equal.symm same

theorem Merged.fold {seen : List ChatTurn} (state : Merged seen merged) (turns : List ChatTurn) :
    Merged (seen ++ turns) (turns.foldl mergeTurn merged) := by
  induction turns generalizing seen merged with
  | nil =>
    rw [List.append_nil]
    exact state
  | cons turn turns ih =>
    have moved : seen ++ turn :: turns = seen ++ [turn] ++ turns := by simp
    rw [moved]
    exact ih (state.add turn)

theorem mergeConversationTurns_merged (localeLe : String → String → Bool)
    (collections : List (List ChatTurn)) :
    Merged collections.flatten (mergeConversationTurns localeLe collections) := by
  have folded := Merged.nil.fold collections.flatten
  rw [List.nil_append] at folded
  have moved := List.perm_insertionSort (fun left right : ChatTurn =>
    left.row.createdAt < right.row.createdAt ∨ left.row.createdAt = right.row.createdAt ∧
      localeLe left.row.turnId right.row.turnId = true) (collections.flatten.foldl mergeTurn [])
  have ids := moved.map fun turn : ChatTurn => turn.row.turnId
  constructor
  · exact ids.nodup_iff.mpr folded.unique
  · exact fun kept member => folded.from_seen kept (moved.mem_iff.mp member)
  · intro turn member
    exact ids.mem_iff.mpr (folded.present turn member)
  · exact fun kept member => folded.highest kept (moved.mem_iff.mp member)

end Merge

/-- The snapshots that were returned: one revision is one view, a later view that differs has the
higher revision, and a merge of them keeps for each turn what was seen last. -/
structure AsVersions (s : TurnViews) : Prop where
  one : ∀ a ∈ s.returned, ∀ b ∈ s.returned, a.revision = b.revision → a.visible = b.visible
  rises : ∀ (i j : Nat) (a b : ChatTurn), s.returned[i]? = some a → s.returned[j]? = some b →
    i < j → a.visible ≠ b.visible → a.revision < b.revision
  present : ∀ localeLe collections, ∀ turn ∈ collections.flatten,
    turn.row.turnId ∈ turnIds (mergeConversationTurns localeLe collections)
  latest : ∀ localeLe collections, (∀ turn ∈ collections.flatten, turn ∈ s.returned) →
    ∀ kept ∈ mergeConversationTurns localeLe collections, kept ∈ s.returned ∧
      ∀ (i j : Nat) (turn : ChatTurn), s.returned[i]? = some kept → s.returned[j]? = some turn →
        i < j → turn ∈ collections.flatten → turn.visible = kept.visible

theorem Versioned.asVersions {s : TurnViews} {w : Since} (versioned : Versioned s w) :
    AsVersions s where
  one := fun _ first _ second same => versioned.ordered.view_eq first second same
  rises := fun _ _ _ _ first second before differ =>
    versioned.ordered.rev_lt first second before differ
  present := fun localeLe collections =>
    (mergeConversationTurns_merged localeLe collections).present
  latest := by
    intro localeLe collections delivered kept member
    have state := mergeConversationTurns_merged localeLe collections
    have kept_seen := state.from_seen kept member
    have kept_returned := delivered kept kept_seen
    refine ⟨kept_returned, fun i j turn first second before seen => ?_⟩
    have one_turn : turn.row.turnId = kept.row.turnId :=
      (versioned.named turn (delivered turn seen)).trans (versioned.named kept kept_returned).symm
    exact versioned.ordered.kept first second before (state.highest kept member turn seen one_turn)

section Sample

/-- Every schema is fine and every answer too. -/
def anySchema : SchemaEnv where
  checkSchema _ := true
  objectType _ := true
  accepts _ _ := true

def sampleViews : TurnViews where
  store := sampleConversations
  interactions := ⟨[], by decide⟩
  turnId := "t"
  live := some { revision := 1 }

/-- A `get_turn` that nothing comes between. -/
def getAll (i : Nat) : List ViewAct := .getTurn "p" :: List.replicate 5 (.query i)

def sampleRequest : ViewAct :=
  .repository (.requestApproval 2 "p" "t" "step" "approval" sampleCall "reason")

def sampleCreate : ViewAct :=
  .repository (.create 0 "t"
    { scope := { principalId := "p", sessionHandle := "s" }, clientRequestId := "r",
      userInput := "hello" })

/-- A tool step and an approval, each with a live event behind it. -/
def sampleVersions : List ViewAct :=
  sampleCreate :: getAll 0 ++
    .repository (.beginToolStep 1 "p" "t" "step" sampleCall) :: .event (some {}) :: getAll 1 ++
    sampleRequest :: .event (some {}) :: getAll 2

/-- The approval comes when the live text is two changes ahead of the row. -/
def sampleUnseen : List ViewAct :=
  sampleCreate :: .event (some {}) :: .event (some {}) :: getAll 0 ++ sampleRequest :: getAll 1

end Sample

end Knoa.Conversation
