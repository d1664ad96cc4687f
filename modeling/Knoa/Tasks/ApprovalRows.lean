import Knoa.Tasks.Finality

/-!
# What a call does to an approval row

A call keeps every approval and its state, unless it decides the one it names or
cancels the pending ones of a Task it stops. New approvals are pending.
-/
namespace Knoa.Tasks
open Relational (Table)
open Transaction (of_bind)

/-- What a call makes of the state of an approval: a decision names it, a cancellation ends its Task. -/
inductive ApprovalFate (op : Op) (v v' : TaskView) (a a' : ApprovalRow) : Prop
  | kept (state : a'.state = a.state)
  | resolved {now : Time} {principalId approvalId resolvedBy : String} {approved : Bool}
      {resumeState : TaskState}
      (call : op = .resolveApproval now principalId approvalId approved resumeState resolvedBy)
      (named : a.approvalId = strip approvalId) (pending : a.state = .pending)
      (state : a'.state = if approved then .approved else .denied)
  | cancelled {now : Time} {principalId taskId reason : String}
      (call : op = .requestCancel now principalId taskId reason) (pending : a.state = .pending)
      (state : a'.state = .cancelled) (ended : v'.row.state = .cancelled)
  | paused {now : Time} {principalId taskId reason : String}
      (call : op = .requestPause now principalId taskId reason)
      (waiting : v.row.state = .waitingApproval) (named : v.row.taskId = strip taskId)
      (pending : a.state = .pending) (state : a'.state = .cancelled)

/-- `a'` is what has become of `a`. -/
structure Carried (op : Op) (v v' : TaskView) (a a' : ApprovalRow) : Prop where
  approvalId : a'.approvalId = a.approvalId
  taskId : a'.taskId = a.taskId
  fate : ApprovalFate op v v' a a'

section Moves

variable {s : Store} {op : Op} {v v' : TaskView}

theorem Carried.refl (a : ApprovalRow) : Carried op v v' a a := ⟨rfl, rfl, .kept rfl⟩

theorem decide_carried {now at_ : Time} {principalId approvalId named resolvedBy resolver : String}
    {approved : Bool} {resumeState : TaskState}
    (call : op = .resolveApproval now principalId approvalId approved resumeState resolvedBy)
    (names : named = strip approvalId) (a : ApprovalRow) :
    Carried op v v' a (if a.approvalId = named ∧ a.state = .pending then
      { a with
        state := if approved then .approved else .denied, resolvedAt := some at_,
        resolvedBy := resolver } else a) := by
  by_cases mine : a.approvalId = named ∧ a.state = .pending
  · rw [if_pos mine]
    exact ⟨rfl, rfl, .resolved call (mine.1.trans names) mine.2 rfl⟩
  · rw [if_neg mine]
    exact .refl a

/-- A move keeps every approval in its place and appends pending ones. -/
theorem Move.approvals (move : Move s op v v') : ∃ f new, v'.approvals = v.approvals.map f ++ new ∧
      (∀ a ∈ v.approvals, Carried op v v' a (f a)) ∧
      ∀ a ∈ new, a.state = .pending ∧ strip a.approvalId = a.approvalId := by
  have settled : ∀ {f : ApprovalRow → ApprovalRow}, v'.approvals = v.approvals.map f →
      (∀ a, Carried op v v' a (f a)) → ∃ f new, v'.approvals = v.approvals.map f ++ new ∧
        (∀ a ∈ v.approvals, Carried op v v' a (f a)) ∧
        ∀ a ∈ new, a.state = .pending ∧ strip a.approvalId = a.approvalId := by
    intro f mapped carried
    refine ⟨f, [], by rw [mapped, List.append_nil], fun a _ => carried a, ?_⟩
    intro a member
    cases member
  have same : v'.approvals = v.approvals → ∃ f new, v'.approvals = v.approvals.map f ++ new ∧
      (∀ a ∈ v.approvals, Carried op v v' a (f a)) ∧
      ∀ a ∈ new, a.state = .pending ∧ strip a.approvalId = a.approvalId := by
    intro equal
    exact settled (f := id) (by rw [equal, List.map_id]) Carried.refl
  cases move with
  | cancelWaiting _ _ _ row =>
    refine settled rfl ?_
    intro a
    split
    · rename_i pending
      exact ⟨rfl, rfl, .cancelled rfl pending rfl row.state⟩
    · exact .refl a
  | pauseWaiting waiting named =>
    refine settled rfl ?_
    intro a
    split
    · rename_i pending
      exact ⟨rfl, rfl, .paused rfl waiting named pending rfl⟩
    · exact .refl a
  | annotate =>
    refine settled rfl ?_
    intro a
    split
    · exact ⟨rfl, rfl, .kept rfl⟩
    · exact .refl a
  | ask _ _ _ pending _ _ normal =>
    refine ⟨id, _, by rw [List.map_id], fun a _ => .refl a, ?_⟩
    intro a member
    rw [List.mem_singleton.mp member]
    exact ⟨pending, normal⟩
  | resolve _ _ _ named | resolveQueued _ _ _ named => exact settled rfl (decide_carried rfl named)
  | _ => exact same rfl

end Moves

def TaskCancelled (s : Store) (taskId : String) : Prop :=
  ∃ row ∈ s.tasks.rows, row.taskId = taskId ∧ row.state = .cancelled

instance (s : Store) (taskId : String) : Decidable (TaskCancelled s taskId) := by
  unfold TaskCancelled
  infer_instance

def TaskWaiting (s : Store) (taskId : String) : Prop :=
  ∃ row ∈ s.tasks.rows, row.taskId = taskId ∧ row.state = .waitingApproval

instance (s : Store) (taskId : String) : Decidable (TaskWaiting s taskId) := by
  unfold TaskWaiting
  infer_instance

section Stores

variable {s s' : Store} {op : Op}

variable {taskId : String}

theorem taskCancelled_view {v : TaskView} (seen : s.view taskId = some v)
    (state : v.row.state = .cancelled) : TaskCancelled s taskId :=
  ⟨v.row, view_mem seen, view_taskId seen, state⟩

theorem TaskCancelled.view (h : TaskCancelled s taskId) :
    ∃ v, s.view taskId = some v ∧ v.row.state = .cancelled := by
  obtain ⟨row, member, rfl, state⟩ := h
  obtain ⟨v, seen, rfl⟩ := view_of_mem member
  exact ⟨v, seen, state⟩

theorem Refines.taskCancelled (refines : Refines s op s') (h : TaskCancelled s taskId) :
    TaskCancelled s' taskId := by
  obtain ⟨v, seen, state⟩ := h.view
  cases refines.changed taskId with
  | same slice => exact taskCancelled_view ((view_of_slice slice).trans seen) state
  | moved before after move =>
    rw [seen] at before
    cases before
    have row := (move.of_terminal (by rw [state]; rfl)).1
    exact taskCancelled_view after (by rw [row, state])
  | created absent =>
    rw [seen] at absent
    cases absent

/-- `ApprovalFate` with the Task looked up in the stores. -/
inductive RowFate (s : Store) (op : Op) (s' : Store) (a a' : ApprovalRow) : Prop
  | kept (state : a'.state = a.state)
  | resolved {now : Time} {principalId approvalId resolvedBy : String} {approved : Bool}
      {resumeState : TaskState}
      (call : op = .resolveApproval now principalId approvalId approved resumeState resolvedBy)
      (named : a.approvalId = strip approvalId) (pending : a.state = .pending)
      (state : a'.state = if approved then .approved else .denied)
  | cancelled (pending : a.state = .pending) (state : a'.state = .cancelled)
      (ended : TaskCancelled s' a.taskId)
  | paused {now : Time} {principalId taskId reason : String}
      (call : op = .requestPause now principalId taskId reason)
      (waiting : TaskWaiting s (strip taskId)) (pending : a.state = .pending)
      (state : a'.state = .cancelled)

structure RowCarried (s : Store) (op : Op) (s' : Store) (a a' : ApprovalRow) : Prop where
  approvalId : a'.approvalId = a.approvalId
  taskId : a'.taskId = a.taskId
  fate : RowFate s op s' a a'

theorem Carried.row {v v' : TaskView} {a a' : ApprovalRow} (carried : Carried op v v' a a')
    (before : s.view a.taskId = some v) (after : s'.view a.taskId = some v') :
    RowCarried s op s' a a' := by
  refine ⟨carried.approvalId, carried.taskId, ?_⟩
  cases carried.fate with
  | kept state => exact .kept state
  | resolved call named pending state => exact .resolved call named pending state
  | cancelled _ pending state ended =>
    exact .cancelled pending state (taskCancelled_view after ended)
  | paused call waiting named pending state =>
    refine .paused call ⟨v.row, ?_, named, waiting⟩ pending state
    exact view_mem before

/-- No approval is lost. -/
theorem Refines.approval_kept (rooted : Rooted s) (refines : Refines s op s') {a : ApprovalRow}
    (member : a ∈ s.approvals.rows) : ∃ a' ∈ s'.approvals.rows, RowCarried s op s' a a' := by
  obtain ⟨v, seen, known⟩ := approval_view rooted member
  cases refines.changed a.taskId with
  | same slice =>
    have after := (view_of_slice slice).trans seen
    rw [view_approvals after] at known
    exact ⟨a, (mem_approvalsOf.mp known).1, rfl, rfl, .kept rfl⟩
  | moved before after move =>
    rw [seen] at before
    cases before
    obtain ⟨f, new, approvals, carried, -⟩ := move.approvals
    have present : f a ∈ s'.approvalsOf a.taskId := by
      rw [← view_approvals after, approvals]
      exact List.mem_append_left _ (List.mem_map_of_mem known)
    exact ⟨f a, (mem_approvalsOf.mp present).1, (carried a known).row seen after⟩
  | created absent =>
    rw [seen] at absent
    cases absent

/-- An approval was there before the call, or it is pending. -/
theorem Refines.approval_from (rooted : Rooted s) (refines : Refines s op s') {a' : ApprovalRow}
    (member : a' ∈ s'.approvals.rows) : (∃ a ∈ s.approvals.rows, RowCarried s op s' a a') ∨
      (a'.state = .pending ∧ strip a'.approvalId = a'.approvalId) := by
  obtain ⟨v', after, known⟩ := approval_view (refines.rooted rooted) member
  cases refines.changed a'.taskId with
  | same slice =>
    have before := (view_of_slice slice).symm.trans after
    rw [view_approvals before] at known
    exact Or.inl ⟨a', (mem_approvalsOf.mp known).1, rfl, rfl, .kept rfl⟩
  | moved before now_seen move =>
    rw [after] at now_seen
    cases now_seen
    obtain ⟨f, new, approvals, carried, fresh⟩ := move.approvals
    rw [approvals] at known
    rcases List.mem_append.mp known with old | born
    · obtain ⟨a, present, rfl⟩ := List.mem_map.mp old
      have keeps := carried a present
      rw [keeps.taskId] at before after
      rw [view_approvals before] at present
      exact Or.inl ⟨a, (mem_approvalsOf.mp present).1, keeps.row before after⟩
    · exact Or.inr (fresh a' born)
  | created _ _ _ _ _ now_seen =>
    rw [after] at now_seen
    cases now_seen
    cases known

def NormalApprovals (s : Store) : Prop :=
  ∀ row ∈ s.approvals.rows, strip row.approvalId = row.approvalId

theorem Refines.normalApprovals (rooted : Rooted s) (refines : Refines s op s')
    (h : NormalApprovals s) : NormalApprovals s' := by
  intro row member
  rcases refines.approval_from rooted member with ⟨old, before, carried⟩ | ⟨-, normal⟩
  · rw [carried.approvalId]
    exact h old before
  · exact normal

variable {env : Env}

variable {now : Time} {principalId : String}

theorem requestApproval_known {approvalIds : Nat → String}
    {request : ApprovalRequest} {result : TaskApprovalRecord × TaskEvent × Bool}
    (h : requestApproval env now approvalIds principalId taskId request s = (.ok result, s')) :
    result.1 ∈ s'.approvals.rows ∧ result.1.taskId = strip taskId := by
  obtain ⟨fields, normal, ⟨found, -, rfl⟩ | opened⟩ := requestApproval_ok h
  · have selected := List.find?_some found
    simp only [Bool.and_eq_true, beq_iff_eq] at selected
    rw [normalizeApproval_ok normal] at selected
    exact ⟨List.mem_of_find?_eq_some found, selected.1⟩
  · obtain ⟨approvalId, task, -, -, owned, once⟩ := opened
    obtain ⟨v, seen, -, made, writes⟩ := openApproval_effect owned once
    have after := writes.view_some seen
    have known : result.1 ∈ s'.approvalsOf fields.taskId := by
      rw [← view_approvals after, made]
      exact List.mem_concat_self
    obtain ⟨present, owner⟩ := mem_approvalsOf.mp known
    refine ⟨present, owner.trans ?_⟩
    rw [normalizeApproval_ok normal]

/-- An approval that is returned decided was on record. -/
theorem requestApproval_decided {approvalIds : Nat → String}
    {request : ApprovalRequest} {result : TaskApprovalRecord × TaskEvent × Bool}
    (h : requestApproval env now approvalIds principalId taskId request s = (.ok result, s'))
    (decided : result.1.state ≠ .pending) : s' = s := by
  obtain ⟨fields, normal, ⟨-, -, same⟩ | opened⟩ := requestApproval_ok h
  · exact same
  · obtain ⟨approvalId, task, -, -, owned, once⟩ := opened
    obtain ⟨v, -, -, made, -⟩ := openApproval_effect owned once
    rw [made] at decided
    exact absurd rfl decided

theorem annotateApprovalReview_named {approvalId reason : String}
    {result : TaskApprovalRecord × TaskEvent}
    (h : annotateApprovalReview env principalId approvalId reason s = .ok (result, s')) :
    result.1.approvalId = strip approvalId := by
  obtain ⟨principal, -, h⟩ := of_bind h
  obtain ⟨key, normal, h⟩ := of_bind h
  obtain ⟨approval, owned, h⟩ := of_bind h
  obtain ⟨requested, -, h⟩ := of_bind h
  rw [← normalizeIdentifier_ok normal]
  split at h
  · obtain ⟨payload, -, h⟩ := of_bind h
    obtain ⟨updated, reread, h⟩ := of_bind h
    cases h
    exact (ownedApproval_mem reread).2
  · cases h
    exact (ownedApproval_mem owned).2

theorem resolveApproval_known {approvalId resolvedBy : String}
    {approved changed : Bool} {resumeState : TaskState} {approval : TaskApprovalRecord}
    {event : Option TaskEvent}
    (h : resolveApproval env now principalId approvalId approved resumeState resolvedBy s =
      .ok ((approval, event, changed), s')) :
    approval ∈ s'.approvals.rows ∧ approval.approvalId = strip approvalId ∧
      approval.state ≠ .pending ∧
      (changed = true → approval.state = if approved then .approved else .denied) := by
  obtain ⟨old, member, named, ⟨decided, same, rfl⟩ | written⟩ := resolveApproval_effect h
  · cases same
    refine ⟨member, named, decided, ?_⟩
    intro wrong
    cases wrong
  · obtain ⟨pending, -, -, made, v, seen, -, known, writes⟩ := written
    have after := writes.view_some seen
    replace made : approval = { old with
      state := if approved then .approved else .denied, resolvedAt := some now,
      resolvedBy := strip resolvedBy } := made
    have present : approval ∈ s'.approvalsOf old.taskId := by
      rw [← view_approvals after]
      refine List.mem_map.mpr ⟨old, known, ?_⟩
      rw [if_pos ⟨rfl, pending⟩, made]
    refine ⟨(mem_approvalsOf.mp present).1, ?_, ?_, ?_⟩
    · rw [made]
      exact named
    · rw [made]
      cases approved <;> simp
    · intro _
      rw [made]

end Stores

end Knoa.Tasks
