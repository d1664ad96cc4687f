import Knoa.Conversation.ChatTurns
import Knoa.Library.Transition

/-!
# What a chat turn ends with

A turn that has ended has nothing pending and nothing under way, and what is recorded
stays, as long as no call comes late.
-/
namespace Knoa.Conversation
open Knoa.Tasks Relational Transaction Transition

def ConversationStore.live (s : ConversationStore) (turnId : String) : Prop :=
  ∀ turn ∈ s.turns.rows, turn.turnId = turnId → turn.state.isTerminal = false

structure Settled (s : ConversationStore) : Prop where
  approvals : ∀ approval ∈ s.approvals.rows, approval.state = .pending → s.live approval.turnId
  steps : ∀ step ∈ s.steps.rows, step.state = .running → s.live step.turnId

structure KeepsOutcomes (s t : ConversationStore) : Prop where
  turns : ∀ turn ∈ s.turns.rows, turn.state.isTerminal = true →
    ∃ later ∈ t.turns.rows, later.turnId = turn.turnId ∧ later.state = turn.state
  steps : ∀ step ∈ s.steps.rows, step.state ≠ .running →
    ∃ later ∈ t.steps.rows, later.stepId = step.stepId ∧ later.state = step.state ∧
      later.result = step.result
  approvals : ∀ approval ∈ s.approvals.rows, approval.state ≠ .pending →
    ∃ later ∈ t.approvals.rows, later.approvalId = approval.approvalId ∧
      later.state = approval.state

/-- A call in time: nothing begins on a turn that has ended, no turn ends with a step
under way, and no step ends twice with another outcome. -/
def ConversationOp.Timely (s : ConversationStore) : ConversationOp → Prop
  | .checkpoint _ _ turnId values => values.finished = true → s.live turnId →
      ∀ step ∈ s.steps.rows, step.turnId = turnId → step.state ≠ .running
  | .recoverInterrupted _ => ∀ step ∈ s.steps.rows, step.state = .running →
      ∀ turn ∈ s.turns.rows, turn.turnId = step.turnId → turn.state.isTerminal = true
  | .beginToolStep _ _ turnId stepId _ => s.steps.lookup stepId = none → s.live turnId
  | .finishToolStep _ _ turnId stepId result => ∀ step ∈ s.steps.rows, step.stepId = stepId →
      step.turnId = turnId → step.state ≠ .running →
        step.state = result.stepState ∧ step.result = some result
  | .requestApproval _ _ turnId stepId _ _ _ =>
    (∀ approval ∈ s.approvals.rows, ¬(approval.turnId = turnId ∧ approval.stepId = stepId)) →
      s.live turnId
  | _ => True

inductive ConversationTaken (s : ConversationStore) : ConversationOp → ConversationStore → Prop
  | same {op : ConversationOp} (timely : op.Timely s) : ConversationTaken s op s
  | created {now : Time} {turnId : String} {request : ChatTurnRequest} {row : ChatTurnRow}
      {conversations : Table ConversationSessionRow.sessionHandle}
      {turns : Table ChatTurnRow.turnId} (starts : row.state = .running)
      (inserted : s.turns.insert row = some turns) :
      ConversationTaken s (.create now turnId request) { s with conversations, turns }
  | checkpointed {now : Time} {principalId turnId : String} {values : Checkpoint}
      {current : ChatTurnRow} (found : s.turns.lookup turnId = some current)
      (live : current.state.isTerminal = false)
      (ends : (values.state.getD current.state).isTerminal = values.finished) :
      ConversationTaken s (.checkpoint now principalId turnId values)
        (let written := s.updateTurns (fun row => row.turnId == turnId) (fun row =>
          { row with
            state := values.state.getD current.state,
            reasoning := values.reasoning.getD row.reasoning,
            content := values.content.getD row.content,
            finalOutput := values.finalOutput.getD row.finalOutput,
            timeline := values.timeline.getD row.timeline,
            artifacts := values.artifacts.getD row.artifacts,
            failureCode := values.failureCode.getD row.failureCode,
            cancelRequested := values.cancelRequested.getD row.cancelRequested, updatedAt := now,
            finishedAt := if values.finished then some now else row.finishedAt,
            revision := max (row.revision + 1) (values.revision.getD 0) })
        if values.finished
          then written.expirePending now "turn_finished" (fun row => row.turnId == turnId)
          else written)
  | cancelRequested {now : Time} {principalId turnId : String} :
      ConversationTaken s (.requestCancel now principalId turnId)
        (s.updateTurns (fun row => row.turnId == turnId && !row.state.isTerminal) (fun row =>
          { row with cancelRequested := true, updatedAt := now, revision := row.revision + 1 }))
  | recovered {now : Time} :
      ConversationTaken s (.recoverInterrupted now)
        ((s.updateTurns (fun row => row.state.isInterrupted) (fun row =>
          { row with
            state := .failed, failureCode := "service_restarted", updatedAt := now,
            finishedAt := some now,
            revision := row.revision + 1 })).expirePending now "service_restart" (fun _ => true))
  | begun {now : Time} {principalId turnId stepId : String} {call : ProposedToolCall}
      {row : ChatToolStepRow} {steps : Table ChatToolStepRow.stepId}
      (new : s.steps.lookup stepId = none) (of : row.turnId = turnId)
      (running : row.state = .running) (inserted : s.steps.insert row = some steps) :
      ConversationTaken s (.beginToolStep now principalId turnId stepId call) { s with steps }
  | finished {now : Time} {principalId turnId stepId : String} {result : ToolStepResult} :
      ConversationTaken s (.finishToolStep now principalId turnId stepId result)
        (s.updateSteps (fun row => row.stepId == stepId && row.turnId == turnId) (fun row =>
          { row with state := result.stepState, result := some result, updatedAt := now }))
  | requested {now : Time} {principalId turnId stepId approvalId reason : String}
      {call : ProposedToolCall} {row : ChatApprovalRow}
      {approvals : Table ChatApprovalRow.approvalId}
      (new : ∀ approval ∈ s.approvals.rows, ¬(approval.turnId = turnId ∧ approval.stepId = stepId))
      (of : row.turnId = turnId) (inserted : s.approvals.insert row = some approvals) :
      ConversationTaken s (.requestApproval now principalId turnId stepId approvalId call reason)
        ({ s with approvals }.updateTurns (fun turn => turn.turnId == turnId)
          (fun turn =>
            { turn with
              state := .waitingApproval, updatedAt := now, revision := turn.revision + 1 }))
  | resolved {now : Time} {principalId approvalId resolvedBy : String} {approved : Bool}
      {row : ChatApprovalRow} (found : s.approvals.lookup approvalId = some row)
      (pending : row.state = .pending) :
      ConversationTaken s (.resolveApproval now principalId approvalId approved resolvedBy)
        ((s.updateApprovals (fun other => other.approvalId == approvalId) (fun other =>
          { other with
            state := if approved then .approved else .rejected, resolvedAt := some now,
            resolvedBy })).updateTurns (fun turn => turn.turnId == row.turnId)
          (fun turn =>
            { turn with state := .running, updatedAt := now, revision := turn.revision + 1 }))
  | expired {now : Time} {principalId turnId resolvedBy : String} :
      ConversationTaken s (.expirePendingApprovals now principalId turnId resolvedBy)
        (s.expirePending now resolvedBy (fun row => row.turnId == turnId))

section Calls

variable {s s' : ConversationStore} {op : ConversationOp} {now : Time}

variable {principalId turnId : String}

theorem ownedTurn_ok {row : ChatTurnRow} (h : s.ownedTurn principalId turnId = .ok row) :
    s.turns.lookup turnId = some row :=
  (Option.filter_eq_some_iff.mp (orRaise_ok_iff.mp h)).1

theorem create_taken {request : ChatTurnRequest} {result : ChatTurnRow × Bool}
    (h : create now turnId request s = .ok (result, s')) :
    ConversationTaken s (.create now turnId request) s' := by
  obtain ⟨_, -, _, -, h⟩ := of_bind₂ h
  split at h
  · obtain ⟨_, -, h⟩ := of_bind h
    cases h
    exact .same trivial
  · obtain ⟨_, -, conversations, -, turns, inserted, h⟩ := of_bind₃ h
    cases h
    exact .created rfl (orRaise_ok_iff.mp inserted)

theorem checkpoint_taken {values : Checkpoint} {result : ChatTurnRow}
    (h : checkpoint now principalId turnId values s = .ok (result, s')) :
    ConversationTaken s (.checkpoint now principalId turnId values) s' := by
  obtain ⟨current, owned, h⟩ := of_bind h
  have found := ownedTurn_ok owned
  split at h
  · rename_i ended
    cases h
    refine .same ?_
    intro _ live
    have still := live _ (Table.lookup_mem found) (Table.lookup_key found)
    rw [ended] at still
    cases still
  · rename_i live
    obtain ⟨_, first, _, second, _, -, h⟩ := of_bind₃ h
    cases h
    rw [require_ok_iff] at first second
    refine .checkpointed found (by simpa using live) ?_
    cases finished : values.finished with
    | true => simpa [finished] using first
    | false => simpa [finished] using second

theorem requestCancel_taken {result : ChatTurnRow}
    (h : requestCancel now principalId turnId s = .ok (result, s')) :
    ConversationTaken s (.requestCancel now principalId turnId) s' := by
  obtain ⟨_, -, _, -, h⟩ := of_bind₂ h
  cases h
  exact .cancelRequested

theorem recoverInterrupted_taken {result : List ChatTurnRow}
    (h : recoverInterrupted now s = .ok (result, s')) :
    ConversationTaken s (.recoverInterrupted now) s' := by
  obtain ⟨_, -, h⟩ := of_bind h
  cases h
  exact .recovered

theorem insertStep_ok {row : ChatToolStepRow} {steps : Table ChatToolStepRow.stepId}
    (h : s.insertStep row = some steps) : s.steps.insert row = some steps := by
  unfold ConversationStore.insertStep at h
  split at h
  · cases h
  · exact h

variable {stepId : String}

theorem beginToolStep_taken {call : ProposedToolCall} {result : ChatToolStepRow × Bool}
    (h : beginToolStep now principalId turnId stepId call s = .ok (result, s')) :
    ConversationTaken s (.beginToolStep now principalId turnId stepId call) s' := by
  obtain ⟨_, -, h⟩ := of_bind h
  split at h
  · rename_i new
    obtain ⟨steps, inserted, h⟩ := of_bind h
    cases h
    exact .begun new rfl rfl (insertStep_ok (orRaise_ok_iff.mp inserted))
  · rename_i existing found
    obtain ⟨_, -, h⟩ := of_bind h
    cases h
    refine .same ?_
    intro new
    rw [found] at new
    cases new

theorem finishToolStep_taken {result : ToolStepResult} {row : ChatToolStepRow}
    (h : finishToolStep now principalId turnId stepId result s = .ok (row, s')) :
    ConversationTaken s (.finishToolStep now principalId turnId stepId result) s' := by
  obtain ⟨_, -, _, -, h⟩ := of_bind₂ h
  cases h
  exact .finished

theorem requestApproval_taken {approvalId reason : String} {call : ProposedToolCall}
    {result : ChatApprovalRow × Bool}
    (h : requestApproval now principalId turnId stepId approvalId call reason s = .ok (result, s')) :
    ConversationTaken s (.requestApproval now principalId turnId stepId approvalId call reason)
      s' := by
  obtain ⟨_, -, h⟩ := of_bind h
  split at h
  · rename_i approval found
    cases h
    refine .same ?_
    intro new
    have matched := List.find?_some found
    rw [Bool.and_eq_true, beq_iff_eq, beq_iff_eq] at matched
    exact absurd matched (new approval (List.mem_of_find?_eq_some found))
  · rename_i absent
    obtain ⟨approvals, inserted, h⟩ := of_bind h
    cases h
    refine .requested ?_ rfl (orRaise_ok_iff.mp inserted)
    intro approval member same
    have unmatched := List.find?_eq_none.mp absent approval member
    rw [Bool.and_eq_true, beq_iff_eq, beq_iff_eq] at unmatched
    exact unmatched same

theorem resolveApproval_taken {approvalId resolvedBy : String} {approved : Bool}
    {result : ChatApprovalRow × Bool × String}
    (h : resolveApproval now principalId approvalId approved resolvedBy s = .ok (result, s')) :
    ConversationTaken s (.resolveApproval now principalId approvalId approved resolvedBy) s' := by
  obtain ⟨row, owned, h⟩ := of_bind h
  have found := (Option.filter_eq_some_iff.mp (orRaise_ok_iff.mp owned)).1
  obtain ⟨resolved, -, h⟩ := of_bind h
  cases h
  by_cases pending : row.state = .pending
  · rw [if_pos (beq_iff_eq.mpr pending)]
    exact .resolved found pending
  · rw [if_neg (by simpa using pending)]
    exact .same trivial

theorem expirePendingApprovals_taken {resolvedBy : String} {result : List String}
    (h : expirePendingApprovals now principalId turnId resolvedBy s = .ok (result, s')) :
    ConversationTaken s (.expirePendingApprovals now principalId turnId resolvedBy) s' := by
  obtain ⟨_, -, h⟩ := of_bind h
  cases h
  exact .expired

theorem outcome_some {α : Type} {result : Except ConversationError α × ConversationStore}
    (h : ConversationStore.outcome result = some s') : ∃ a, result = (.ok a, s') := by
  obtain ⟨returned, store⟩ := result
  cases returned with
  | error e => cases h
  | ok a =>
    cases h
    exact ⟨a, rfl⟩

theorem conversation_step_taken (h : s.step op = some s') : ConversationTaken s op s' := by
  cases op with
  | create =>
    obtain ⟨result, made⟩ := outcome_some h
    exact create_taken (commit_ok_iff.mp made)
  | checkpoint =>
    obtain ⟨result, made⟩ := outcome_some h
    exact checkpoint_taken (commit_ok_iff.mp made)
  | requestCancel =>
    obtain ⟨result, made⟩ := outcome_some h
    exact requestCancel_taken (commit_ok_iff.mp made)
  | recoverInterrupted =>
    obtain ⟨result, made⟩ := outcome_some h
    exact recoverInterrupted_taken (commit_ok_iff.mp made)
  | beginToolStep =>
    obtain ⟨result, made⟩ := outcome_some h
    exact beginToolStep_taken (commit_ok_iff.mp made)
  | finishToolStep =>
    obtain ⟨result, made⟩ := outcome_some h
    exact finishToolStep_taken (commit_ok_iff.mp made)
  | requestApproval =>
    obtain ⟨result, made⟩ := outcome_some h
    exact requestApproval_taken (commit_ok_iff.mp made)
  | resolveApproval =>
    obtain ⟨result, made⟩ := outcome_some h
    exact resolveApproval_taken (commit_ok_iff.mp made)
  | expirePendingApprovals =>
    obtain ⟨result, made⟩ := outcome_some h
    exact expirePendingApprovals_taken (commit_ok_iff.mp made)

end Calls

section Outcomes

variable {s t u : ConversationStore}

theorem KeepsOutcomes.refl (s : ConversationStore) : KeepsOutcomes s s where
  turns turn member _ := ⟨turn, member, rfl, rfl⟩
  steps step member _ := ⟨step, member, rfl, rfl, rfl⟩
  approvals approval member _ := ⟨approval, member, rfl, rfl⟩

theorem KeepsOutcomes.trans (h : KeepsOutcomes s t) (k : KeepsOutcomes t u) :
    KeepsOutcomes s u := by
  refine ⟨?_, ?_, ?_⟩
  · intro turn member ended
    obtain ⟨next, listed, id, state⟩ := h.turns turn member ended
    obtain ⟨later, present, id', state'⟩ := k.turns next listed (by rw [state]; exact ended)
    exact ⟨later, present, id'.trans id, state'.trans state⟩
  · intro step member ended
    obtain ⟨next, listed, id, state, result⟩ := h.steps step member ended
    obtain ⟨later, present, id', state', result'⟩ :=
      k.steps next listed (by rw [state]; exact ended)
    exact ⟨later, present, id'.trans id, state'.trans state, result'.trans result⟩
  · intro approval member ended
    obtain ⟨next, listed, id, state⟩ := h.approvals approval member ended
    obtain ⟨later, present, id', state'⟩ := k.approvals next listed (by rw [state]; exact ended)
    exact ⟨later, present, id'.trans id, state'.trans state⟩

theorem KeepsOutcomes.of_subset (turns : s.turns.rows ⊆ t.turns.rows)
    (steps : s.steps.rows ⊆ t.steps.rows) (approvals : s.approvals.rows ⊆ t.approvals.rows) :
    KeepsOutcomes s t where
  turns turn member _ := ⟨turn, turns member, rfl, rfl⟩
  steps step member _ := ⟨step, steps member, rfl, rfl, rfl⟩
  approvals approval member _ := ⟨approval, approvals member, rfl, rfl⟩

theorem KeepsOutcomes.updateTurns {p : ChatTurnRow → Bool} {f : ChatTurnRow → ChatTurnRow}
    {keep : ∀ row, (f row).turnId = row.turnId}
    (same : ∀ turn ∈ s.turns.rows, turn.state.isTerminal = true → p turn = true →
      (f turn).state = turn.state) : KeepsOutcomes s (s.updateTurns p f keep) := by
  refine ⟨?_, fun step member _ => ⟨step, member, rfl, rfl, rfl⟩,
    fun approval member _ => ⟨approval, member, rfl, rfl⟩⟩
  intro turn member ended
  refine ⟨_, List.mem_map_of_mem member, ?_⟩
  split
  · rename_i selected
    exact ⟨keep turn, same turn member ended selected⟩
  · exact ⟨rfl, rfl⟩

theorem KeepsOutcomes.updateSteps {p : ChatToolStepRow → Bool}
    {f : ChatToolStepRow → ChatToolStepRow} {keep : ∀ row, (f row).stepId = row.stepId}
    (same : ∀ step ∈ s.steps.rows, step.state ≠ .running → p step = true →
      (f step).state = step.state ∧ (f step).result = step.result) :
    KeepsOutcomes s (s.updateSteps p f keep) := by
  refine ⟨fun turn member _ => ⟨turn, member, rfl, rfl⟩, ?_,
    fun approval member _ => ⟨approval, member, rfl, rfl⟩⟩
  intro step member ended
  refine ⟨_, List.mem_map_of_mem member, ?_⟩
  split
  · rename_i selected
    exact ⟨keep step, same step member ended selected⟩
  · exact ⟨rfl, rfl, rfl⟩

theorem KeepsOutcomes.updateApprovals {p : ChatApprovalRow → Bool}
    {f : ChatApprovalRow → ChatApprovalRow} {keep : ∀ row, (f row).approvalId = row.approvalId}
    (only : ∀ approval ∈ s.approvals.rows, p approval = true → approval.state = .pending) :
    KeepsOutcomes s (s.updateApprovals p f keep) := by
  refine ⟨fun turn member _ => ⟨turn, member, rfl, rfl⟩,
    fun step member _ => ⟨step, member, rfl, rfl, rfl⟩, ?_⟩
  intro approval member ended
  refine ⟨approval, List.mem_map.mpr ⟨approval, member, if_neg ?_⟩, rfl, rfl⟩
  intro selected
  exact ended (only approval member selected)

theorem KeepsOutcomes.expirePending {now : Time} {resolvedBy : String}
    {of : ChatApprovalRow → Bool} : KeepsOutcomes s (s.expirePending now resolvedBy of) := by
  refine KeepsOutcomes.updateApprovals ?_
  intro approval _ selected
  rw [Bool.and_eq_true, beq_iff_eq] at selected
  exact selected.2

end Outcomes

section Liveness

variable {s : ConversationStore} {turnId : String} {now : Time}

theorem live_updateTurns {p : ChatTurnRow → Bool} {f : ChatTurnRow → ChatTurnRow}
    {keep : ∀ row, (f row).turnId = row.turnId} :
    (s.updateTurns p f keep).live turnId ↔ ∀ turn ∈ s.turns.rows, turn.turnId = turnId →
      (if p turn then f turn else turn).state.isTerminal = false := by
  constructor
  · intro live turn member names
    refine live _ (List.mem_map_of_mem member) ?_
    split
    · exact (keep turn).trans names
    · exact names
  · intro each turn member names
    obtain ⟨old, present, rfl⟩ := List.mem_map.mp member
    refine each old present ?_
    rw [← names]
    split
    · exact (keep old).symm
    · rfl

variable {resolvedBy : String} {of : ChatApprovalRow → Bool}

@[simp] theorem live_expirePending :
    (s.expirePending now resolvedBy of).live turnId ↔ s.live turnId := Iff.rfl

theorem Settled.updateTurns (h : Settled s) {p : ChatTurnRow → Bool}
    {f : ChatTurnRow → ChatTurnRow} {keep : ∀ row, (f row).turnId = row.turnId}
    (open_ : ∀ turn ∈ s.turns.rows, turn.state.isTerminal = false → p turn = true →
      (f turn).state.isTerminal = false) : Settled (s.updateTurns p f keep) := by
  have kept : ∀ {id}, s.live id → (s.updateTurns p f keep).live id := by
    intro id live
    apply live_updateTurns.mpr
    intro turn member names
    have before := live turn member names
    split
    · rename_i selected
      exact open_ turn member before selected
    · exact before
  exact ⟨fun approval member pending => kept (h.approvals approval member pending),
    fun step member running => kept (h.steps step member running)⟩

theorem mem_expirePending {approval : ChatApprovalRow}
    (member : approval ∈ (s.expirePending now resolvedBy of).approvals.rows)
    (pending : approval.state = .pending) : approval ∈ s.approvals.rows ∧ of approval = false := by
  obtain ⟨old, present, rfl⟩ := List.mem_map.mp member
  by_cases selected : (of old && old.state == .pending) = true
  · rw [if_pos selected] at pending
    cases pending
  · rw [if_neg selected] at pending ⊢
    refine ⟨present, ?_⟩
    rw [Bool.and_eq_true, beq_iff_eq, not_and] at selected
    exact Bool.eq_false_iff.mpr (fun chosen => selected chosen pending)

theorem Settled.expirePending (h : Settled s) : Settled (s.expirePending now resolvedBy of) where
  approvals approval member pending :=
    h.approvals approval (mem_expirePending member pending).1 pending
  steps := h.steps

end Liveness

section Steps

variable {s s' : ConversationStore} {op : ConversationOp} {now : Time} {turnId : String}

theorem Settled.created (h : Settled s) {row : ChatTurnRow}
    {conversations : Table ConversationSessionRow.sessionHandle} {turns : Table ChatTurnRow.turnId}
    (starts : row.state = .running) (inserted : s.turns.insert row = some turns) :
    Settled { s with conversations, turns } ∧ KeepsOutcomes s { s with conversations, turns } := by
  have rows := Table.insert_rows inserted
  have kept : ∀ {id}, s.live id →
      ({ s with conversations, turns } : ConversationStore).live id := by
    intro id live turn member names
    rw [rows] at member
    rcases List.mem_concat.mp member with old | new
    · exact live turn old names
    · rw [new, starts]
      rfl
  refine ⟨⟨fun approval member pending => kept (h.approvals approval member pending),
    fun step member running => kept (h.steps step member running)⟩, ?_⟩
  refine KeepsOutcomes.of_subset ?_ (List.Subset.refl _) (List.Subset.refl _)
  rw [rows]
  exact List.subset_append_left _ _

theorem Settled.ended_iff (h : Settled s) {current : ChatTurnRow}
    (found : s.turns.lookup turnId = some current)
    {f : ChatTurnRow → ChatTurnRow} {keep : ∀ row, (f row).turnId = row.turnId}
    (ends : (f current).state.isTerminal = true) {resolvedBy : String} :
    Settled ((s.updateTurns (fun row => row.turnId == turnId) f keep).expirePending now resolvedBy
        (fun row => row.turnId == turnId)) ↔
      ∀ step ∈ s.steps.rows, step.turnId = turnId → step.state ≠ .running := by
  constructor
  · intro settled step member names running
    have after := settled.steps step member running
    rw [names, live_expirePending, live_updateTurns] at after
    have ended := after current (Table.lookup_mem found) (Table.lookup_key found)
    rw [if_pos (by rw [Table.lookup_key found]; exact beq_self_eq_true _), ends] at ended
    cases ended
  · intro none_running
    have kept : ∀ {id}, id ≠ turnId → s.live id →
        (s.updateTurns (fun row => row.turnId == turnId) f keep).live id := by
      intro id apart before
      apply live_updateTurns.mpr
      intro turn member names
      rw [if_neg]
      · exact before turn member names
      · intro selected
        exact apart (names.symm.trans (beq_iff_eq.mp selected))
    refine ⟨?_, ?_⟩
    · intro approval member pending
      obtain ⟨present, other⟩ := mem_expirePending member pending
      refine kept ?_ (h.approvals approval present pending)
      intro same
      rw [same, beq_self_eq_true] at other
      cases other
    · intro step member running
      exact kept (fun same => none_running step member same running) (h.steps step member running)

theorem Settled.checkpointed_iff (h : Settled s) {principalId : String} {values : Checkpoint}
    {current : ChatTurnRow} (found : s.turns.lookup turnId = some current)
    (live : current.state.isTerminal = false) {f : ChatTurnRow → ChatTurnRow}
    {keep : ∀ row, (f row).turnId = row.turnId}
    (ends : ∀ row, (f row).state.isTerminal = values.finished) :
    (let written := s.updateTurns (fun row => row.turnId == turnId) f keep
      let stored := if values.finished
        then written.expirePending now "turn_finished" (fun row => row.turnId == turnId)
        else written
      Settled stored ∧ KeepsOutcomes s stored) ↔
        (ConversationOp.checkpoint now principalId turnId values).Timely s := by
  have alive : s.live turnId := by
    intro turn member names
    rw [Table.mem_unique member (Table.lookup_mem found)
      (names.trans (Table.lookup_key found).symm)]
    exact live
  have written : KeepsOutcomes s (s.updateTurns (fun row => row.turnId == turnId) f keep) := by
    refine KeepsOutcomes.updateTurns ?_
    intro turn member ended selected
    rw [alive turn member (beq_iff_eq.mp selected)] at ended
    cases ended
  change _ ↔ (values.finished = true → s.live turnId → ∀ step ∈ s.steps.rows,
    step.turnId = turnId → step.state ≠ .running)
  cases finished : values.finished with
  | false =>
    rw [finished] at ends
    refine ⟨fun _ finishes => (by cases finishes), fun _ => ⟨?_, written⟩⟩
    exact h.updateTurns (fun turn _ _ _ => ends turn)
  | true =>
    rw [finished] at ends
    have ended := ends current
    refine ⟨fun both _ _ => (h.ended_iff found ended).mp both.1, fun timely => ⟨?_, ?_⟩⟩
    · exact (h.ended_iff found ended).mpr (timely rfl alive)
    · exact written.trans KeepsOutcomes.expirePending

theorem Settled.recovered_iff (h : Settled s) {f : ChatTurnRow → ChatTurnRow}
    {keep : ∀ row, (f row).turnId = row.turnId} (fails : ∀ row, (f row).state = .failed) :
    Settled ((s.updateTurns (·.state.isInterrupted) f keep).expirePending now "service_restart"
      (fun _ => true)) ↔ (ConversationOp.recoverInterrupted now).Timely s := by
  constructor
  · intro settled step member running turn present names
    have after := settled.steps step member running
    rw [live_expirePending, live_updateTurns] at after
    have ended := after turn present names
    cases state : turn.state with
    | running | waitingApproval =>
      rw [state] at ended
      simp [ChatTurnState.isInterrupted, fails, ChatTurnState.isTerminal] at ended
    | completed | failed | cancelled => rfl
  · intro timely
    refine ⟨?_, ?_⟩
    · intro approval member pending
      have other := (mem_expirePending member pending).2
      cases other
    · intro step member running
      rw [live_expirePending, live_updateTurns]
      intro turn present names
      have ended := timely step member running turn present names
      rw [h.steps step member running turn present names] at ended
      cases ended

theorem Settled.begun_iff (h : Settled s) {row : ChatToolStepRow}
    {steps : Table ChatToolStepRow.stepId} (running : row.state = .running)
    (inserted : s.steps.insert row = some steps) :
    Settled { s with steps } ↔ s.live row.turnId := by
  have rows := Table.insert_rows inserted
  constructor
  · intro settled
    refine settled.steps row ?_ running
    rw [rows]
    exact List.mem_concat_self
  · intro live
    refine ⟨h.approvals, ?_⟩
    intro step member under_way
    rw [rows] at member
    rcases List.mem_concat.mp member with old | new
    · exact h.steps step old under_way
    · rw [new]
      exact live

theorem finished_iff {stepId : String} {result : ToolStepResult} {principalId : String} :
    KeepsOutcomes s (s.updateSteps (fun row => row.stepId == stepId && row.turnId == turnId)
      (fun row => { row with state := result.stepState, result := some result, updatedAt := now })) ↔
        (ConversationOp.finishToolStep now principalId turnId stepId result).Timely s := by
  constructor
  · intro keeps step member named names ended
    obtain ⟨later, present, same, state, recorded⟩ := keeps.steps step member ended
    obtain ⟨old, known, rfl⟩ := List.mem_map.mp present
    have one : old = step := by
      refine Table.mem_unique known member ?_
      rw [← same]
      split <;> rfl
    subst one
    rw [if_pos (by simp [named, names])] at state recorded
    exact ⟨state.symm, recorded.symm⟩
  · intro timely
    refine KeepsOutcomes.updateSteps ?_
    intro step member ended selected
    rw [Bool.and_eq_true, beq_iff_eq, beq_iff_eq] at selected
    obtain ⟨state, recorded⟩ := timely step member selected.1 selected.2 ended
    exact ⟨state.symm, recorded.symm⟩

theorem Settled.finished (h : Settled s) {p : ChatToolStepRow → Bool}
    {f : ChatToolStepRow → ChatToolStepRow} {keep : ∀ row, (f row).stepId = row.stepId}
    (ends : ∀ step, (f step).state ≠ .running) : Settled (s.updateSteps p f keep) := by
  refine ⟨h.approvals, ?_⟩
  intro step member running
  obtain ⟨old, present, rfl⟩ := List.mem_map.mp member
  by_cases selected : p old = true
  · rw [if_pos selected] at running
    exact absurd running (ends old)
  · rw [if_neg selected] at running ⊢
    exact h.steps old present running

theorem ToolStepResult.stepState_ended (result : ToolStepResult) : result.stepState ≠ .running := by
  unfold ToolStepResult.stepState
  split <;> simp

variable {f : ChatTurnRow → ChatTurnRow} {keep : ∀ row, (f row).turnId = row.turnId}

theorem requested_live {approvals : Table ChatApprovalRow.approvalId}
    (waits : ∀ turn, (f turn).state = .waitingApproval) (keeps : KeepsOutcomes s
      ({ s with approvals }.updateTurns (fun turn => turn.turnId == turnId) f keep)) :
    s.live turnId := by
  intro turn member names
  apply Bool.eq_false_iff.mpr
  intro ended
  obtain ⟨later, present, same, state⟩ := keeps.turns turn member ended
  obtain ⟨old, known, rfl⟩ := List.mem_map.mp present
  have one : old = turn := by
    refine Table.mem_unique known member ?_
    rw [← same]
    split
    · exact (keep old).symm
    · rfl
  subst one
  rw [if_pos (by simp [names]), waits] at state
  rw [← state] at ended
  cases ended

theorem Settled.requested (h : Settled s) {row : ChatApprovalRow}
    {approvals : Table ChatApprovalRow.approvalId} (of : row.turnId = turnId)
    (inserted : s.approvals.insert row = some approvals) (live : s.live turnId)
    (waits : ∀ turn, (f turn).state = .waitingApproval) :
    let asked := { s with approvals }.updateTurns (fun turn => turn.turnId == turnId) f keep
    Settled asked ∧ KeepsOutcomes s asked := by
  intro _
  have rows := Table.insert_rows inserted
  have asked : Settled { s with approvals } := by
    refine ⟨?_, h.steps⟩
    intro approval member pending
    rw [rows] at member
    rcases List.mem_concat.mp member with old | new
    · exact h.approvals approval old pending
    · rw [new, of]
      exact live
  have grown : KeepsOutcomes s { s with approvals } := by
    refine KeepsOutcomes.of_subset (List.Subset.refl _) (List.Subset.refl _) ?_
    rw [rows]
    exact List.subset_append_left _ _
  refine ⟨asked.updateTurns (fun turn _ _ _ => by rw [waits]; rfl),
    grown.trans (KeepsOutcomes.updateTurns ?_)⟩
  intro turn member ended selected
  rw [live turn member (beq_iff_eq.mp selected)] at ended
  cases ended

theorem Settled.resolved (h : Settled s) {approvalId : String} {row : ChatApprovalRow}
    (found : s.approvals.lookup approvalId = some row) (pending : row.state = .pending)
    {g : ChatApprovalRow → ChatApprovalRow} {named : ∀ row, (g row).approvalId = row.approvalId}
    (answers : ∀ other, (g other).state ≠ .pending) (runs : ∀ turn, (f turn).state = .running) :
    let answered := (s.updateApprovals (fun other => other.approvalId == approvalId) g
      named).updateTurns (fun turn => turn.turnId == row.turnId) f keep
    Settled answered ∧ KeepsOutcomes s answered := by
  intro _
  have live := h.approvals row (Table.lookup_mem found) pending
  have answered : Settled
      (s.updateApprovals (fun other => other.approvalId == approvalId) g named) := by
    refine ⟨?_, h.steps⟩
    intro approval member waits
    obtain ⟨old, present, rfl⟩ := List.mem_map.mp member
    by_cases selected : (old.approvalId == approvalId) = true
    · rw [if_pos selected] at waits
      exact absurd waits (answers old)
    · rw [if_neg selected] at waits ⊢
      exact h.approvals old present waits
  refine ⟨answered.updateTurns (fun turn _ _ _ => by rw [runs]; rfl),
    (KeepsOutcomes.updateApprovals ?_).trans (KeepsOutcomes.updateTurns ?_)⟩
  · intro approval member selected
    rw [Table.mem_unique member (Table.lookup_mem found)
      ((beq_iff_eq.mp selected).trans (Table.lookup_key found).symm)]
    exact pending
  intro turn member ended selected
  rw [live turn member (beq_iff_eq.mp selected)] at ended
  cases ended

theorem timely_exact (h : Settled s) (taken : ConversationTaken s op s') :
    Settled s' ∧ KeepsOutcomes s s' ↔ op.Timely s := by
  cases taken with
  | same timely => exact ⟨fun _ => timely, fun _ => ⟨h, KeepsOutcomes.refl s⟩⟩
  | created starts inserted => exact ⟨fun _ => trivial, fun _ => h.created starts inserted⟩
  | checkpointed found live ends => exact h.checkpointed_iff found live (fun _ => ends)
  | cancelRequested =>
    refine ⟨fun _ => trivial, fun _ => ⟨h.updateTurns (fun _ _ live _ => live),
      KeepsOutcomes.updateTurns (fun _ _ _ _ => rfl)⟩⟩
  | recovered =>
    refine ⟨fun both => (h.recovered_iff (fun _ => rfl)).mp both.1,
      fun timely => ⟨(h.recovered_iff (fun _ => rfl)).mpr timely, ?_⟩⟩
    refine (KeepsOutcomes.updateTurns ?_).trans KeepsOutcomes.expirePending
    intro turn _ ended interrupted
    cases state : turn.state <;> rw [state] at ended interrupted <;> cases ended <;>
      cases interrupted
  | @begun _ _ _ _ _ row steps new of running inserted =>
    have exactly := h.begun_iff running inserted
    rw [of] at exactly
    refine ⟨fun both _ => exactly.mp both.1, fun timely => ⟨exactly.mpr (timely new), ?_⟩⟩
    refine KeepsOutcomes.of_subset (List.Subset.refl _) ?_ (List.Subset.refl _)
    rw [Table.insert_rows inserted]
    exact List.subset_append_left _ _
  | finished => exact ⟨fun both => finished_iff.mp both.2, fun timely =>
    ⟨h.finished fun _ => ToolStepResult.stepState_ended _, finished_iff.mpr timely⟩⟩
  | requested new of inserted =>
    exact ⟨fun both _ => requested_live (fun _ => rfl) both.2, fun timely =>
      h.requested of inserted (timely new) (fun _ => rfl)⟩
  | resolved found pending => exact ⟨fun _ => trivial, fun _ =>
    h.resolved found pending (fun _ => by dsimp only; split <;> simp) (fun _ => rfl)⟩
  | expired => exact ⟨fun _ => trivial, fun _ => ⟨h.expirePending, KeepsOutcomes.expirePending⟩⟩

end Steps

theorem initial_settled (sessions : Table SessionRow.sessionHandle) :
    Settled (.initial sessions) where
  approvals _ member := by cases member
  steps _ member := by cases member

theorem chat_turn_terminality (sessions : Table SessionRow.sessionHandle)
    (ops : List ConversationOp) :
    ((∀ s ∈ trace ConversationStore.step (.initial sessions) ops, Settled s) ∧
        (trace ConversationStore.step (.initial sessions) ops).Pairwise KeepsOutcomes) ↔
      ∀ taken ∈ accepted ConversationStore.step (.initial sessions) ops,
        taken.2.Timely taken.1 := by
  have exactly : ∀ s op s', True → Settled s → ConversationStore.step s op = some s' →
      (Settled s' ∧ KeepsOutcomes s s' ↔ op.Timely s) :=
    fun _ _ _ _ h stepped => timely_exact h (conversation_step_taken stepped)
  exact trace_pairwise_iff KeepsOutcomes.refl (fun _ _ _ h k => h.trans k) (fun _ _ _ _ _ => trivial)
    exactly trivial (initial_settled sessions)

section Sample

def sampleConversations : ConversationStore :=
  .initial (.single { sessionHandle := "s", principalId := "p", agentId := "a" })

def sampleCall : ProposedToolCall where
  callId := "c"
  name := "write"
  arguments := .emptyObject

/-- A turn runs and is completed. -/
def sampleCompleted : List ConversationOp :=
  [.create 0 "t"
      { scope := { principalId := "p", sessionHandle := "s" }, clientRequestId := "r",
        userInput := "hello" },
    .checkpoint 1 "p" "t" { state := some .completed, finished := true }]

/-- A late request for an approval takes the completed turn back. -/
theorem late_approval_reopens :
    let s := final ConversationStore.step sampleConversations sampleCompleted
    let t := final ConversationStore.step s
      [.requestApproval 2 "p" "t" "step" "approval" sampleCall "reason"]
    s.turns.rows.map ChatTurnRow.state = [.completed] ∧
      t.turns.rows.map ChatTurnRow.state = [.waitingApproval] ∧
      t.approvals.rows.map ChatApprovalRow.state = [.pending] := by
  decide +kernel

end Sample

end Knoa.Conversation
