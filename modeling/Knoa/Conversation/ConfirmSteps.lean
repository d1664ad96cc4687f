import Knoa.Conversation.Confirmations
import Knoa.Library.Parties
import Knoa.Library.Transition

/-!
# The steps of the confirmations

Every step that is taken, in one list of cases: a decision is never unmade, and the calls under way
come to an end.
-/
namespace Knoa.Conversation
open Knoa.Tasks
open Transition (accepted final)

namespace ConfirmPhase

/-- The future of the call is registered. -/
def registered : ConfirmPhase → Bool
  | .checking _ | .checked _ _ | .reviewing | .notifying _ _ | .resolving _ | .waiting => true
  | _ => false

/-- The call has read the approval as pending, and relies on its future. -/
def relies : ConfirmPhase → Bool
  | .checked _ .pending | .reviewing | .notifying _ _ | .waiting => true
  | _ => false

def ended : ConfirmPhase → Bool
  | .returned _ | .raised => true
  | _ => false

/-- The steps that are left to the call, with those of the `resolve` that it may make. -/
def rank : ConfirmPhase → Nat
  | .requesting => 12
  | .inserting => 11
  | .registering _ => 10
  | .checking _ => 9
  | .checked _ _ => 8
  | .reviewing => 7
  | .notifying _ _ => 6
  | .resolving _ | .waiting => 1
  | .returned _ | .raised => 0

theorem registered_of_relies {phase : ConfirmPhase} (h : phase.relies = true) :
    phase.registered = true := by
  cases phase <;> first | rfl | cases h

end ConfirmPhase

namespace ResolvePhase

/-- A decision is on its way to the waiter. -/
def sets : ResolvePhase → Bool
  | .settling true _ => true
  | _ => false

def rank : ResolvePhase → Nat
  | .reading => 3
  | .writing => 2
  | .settling _ _ => 1
  | .done _ | .raised => 0

end ResolvePhase

def CancelPhase.rank : CancelPhase → Nat
  | .listing => 3
  | .expiring _ => 2
  | .settling _ => 1
  | .done => 0

/-- A step of a call that is under way. -/
def DeskAct.goesOn : DeskAct → Bool
  | .configure _ | .confirm _ _ | .resolve _ _ | .cancelTurn | .turnFinished _ _ => false
  | _ => true

namespace ApprovalDesk

def decision (s : ApprovalDesk) : Option Bool :=
  (s.approval.filter (fun row => row.state ≠ .pending)).map (fun row => row.state = .approved)

/-- What is recorded stays as it is. -/
def KeepsDecision (s t : ApprovalDesk) : Prop :=
  ∀ row ∈ s.approval, row.state ≠ .pending → t.approval = some row

def rank (s : ApprovalDesk) : Nat :=
  (s.confirms.map (fun confirm => confirm.phase.rank)).sum +
    (s.resolves.map (fun resolve => resolve.phase.rank)).sum + (s.cancels.map CancelPhase.rank).sum

end ApprovalDesk

section Decision

variable {s t u : ApprovalDesk}

theorem pending_iff : s.pending = true ↔ ∃ row, s.approval = some row ∧ row.state = .pending := by
  unfold ApprovalDesk.pending
  cases s.approval <;> simp

theorem decision_eq_some_iff {approved : Bool} : s.decision = some approved ↔
    ∃ row, s.approval = some row ∧ row.state ≠ .pending ∧
      approved = decide (row.state = .approved) := by
  unfold ApprovalDesk.decision
  cases s.approval with
  | none => simp
  | some row =>
    by_cases pending : row.state = .pending
    · simp [Option.filter, pending]
    · simp only [Option.filter, pending, ne_eq, not_false_eq_true, decide_true, if_true,
        Option.map_some, Option.some.injEq, exists_eq_left', true_and]
      exact eq_comm

theorem decision_ne_none_iff :
    s.decision ≠ none ↔ ∃ row, s.approval = some row ∧ row.state ≠ .pending := by
  rw [Option.ne_none_iff_exists']
  simp only [decision_eq_some_iff]
  constructor
  · rintro ⟨_, row, stored, settled, -⟩
    exact ⟨row, stored, settled⟩
  · rintro ⟨row, stored, settled⟩
    exact ⟨_, row, stored, settled, rfl⟩

theorem decision_of_stored {row : ChatApprovalRow} (stored : s.approval = some row)
    (settled : row.state ≠ .pending) : s.decision = some (decide (row.state = .approved)) :=
  decision_eq_some_iff.mpr ⟨row, stored, settled, rfl⟩

theorem decision_of_pending (h : s.pending = true) : s.decision = none := by
  obtain ⟨row, stands, pending⟩ := pending_iff.mp h
  by_contra decided
  obtain ⟨other, stored, settled⟩ := decision_ne_none_iff.mp decided
  rw [stands] at stored
  cases stored
  exact settled pending

theorem keepsDecision_refl (s : ApprovalDesk) : s.KeepsDecision s := fun _ stored _ => stored

theorem keepsDecision_trans (first : s.KeepsDecision t) (second : t.KeepsDecision u) :
    s.KeepsDecision u :=
  fun row stored settled => second row (first row stored settled) settled

end Decision

/-- Every step that is taken, one case each. -/
inductive DeskTaken (s : ApprovalDesk) : DeskAct → ApprovalDesk → Prop
  | configure (settings : ReviewSettings) :
      DeskTaken s (.configure settings) { s with settings }
  | confirm (call : ProposedToolCall) (reason : String) : DeskTaken s (.confirm call reason)
      { s with confirms := s.confirms ++ [{ call := call, reason }] }
  | request {i : Nat} {confirm : Confirm} (found : s.confirms[i]? = some confirm)
      (phase : confirm.phase = .requesting) : DeskTaken s (.request i) (s.request i confirm)
  | insert {i : Nat} {confirm : Confirm} (now : Time) (approvalId : String)
      (found : s.confirms[i]? = some confirm) (phase : confirm.phase = .inserting) :
      DeskTaken s (.insert i now approvalId) (s.insert i confirm now approvalId)
  | register {i : Nat} {confirm : Confirm} {created : Bool}
      (found : s.confirms[i]? = some confirm) (phase : confirm.phase = .registering created) :
      DeskTaken s (.register i) (s.register i confirm created)
  | check {i : Nat} {confirm : Confirm} {created : Bool} {row : ChatApprovalRow}
      (found : s.confirms[i]? = some confirm) (phase : confirm.phase = .checking created)
      (stored : s.approval = some row) :
      DeskTaken s (.check i) (s.goTo i confirm (.checked created row.state))
  | missing {i : Nat} {confirm : Confirm} {created : Bool}
      (found : s.confirms[i]? = some confirm) (phase : confirm.phase = .checking created)
      (nothing : s.approval = none) : DeskTaken s (.check i) (s.finish i confirm .raised)
  | settle {i : Nat} {confirm : Confirm} {created : Bool} {state : ChatApprovalState}
      (found : s.confirms[i]? = some confirm) (phase : confirm.phase = .checked created state) :
      DeskTaken s (.settle i) (s.settle i confirm created state)
  | review {i : Nat} {confirm : Confirm} (review : Option Review)
      (found : s.confirms[i]? = some confirm) (phase : confirm.phase = .reviewing) :
      DeskTaken s (.review i review) (s.review i confirm review)
  | notified {i : Nat} {confirm : Confirm} {created : Bool} {review : Option Review}
      (found : s.confirms[i]? = some confirm) (phase : confirm.phase = .notifying created review) :
      DeskTaken s (.notified i) (s.notified i confirm created review)
  | resolved {i k : Nat} {confirm : Confirm} {resolve : Resolve} {state : ChatApprovalState}
      (found : s.confirms[i]? = some confirm) (phase : confirm.phase = .resolving k)
      (call : s.resolves[k]? = some resolve) (done : resolve.phase = .done state) :
      DeskTaken s (.resolved i) (s.finish i confirm (.returned (state = .approved)))
  | failed {i k : Nat} {confirm : Confirm} {resolve : Resolve}
      (found : s.confirms[i]? = some confirm) (phase : confirm.phase = .resolving k)
      (call : s.resolves[k]? = some resolve) (raised : resolve.phase = .raised) :
      DeskTaken s (.resolved i) (s.finish i confirm .raised)
  | wake {i : Nat} {confirm : Confirm} {approved : Bool}
      (found : s.confirms[i]? = some confirm) (phase : confirm.phase = .waiting)
      (future : confirm.future = some approved) :
      DeskTaken s (.wake i) (s.finish i confirm (.returned approved))
  | resolve (approved : Bool) (resolvedBy : String) : DeskTaken s (.resolve approved resolvedBy)
      { s with resolves := s.resolves ++ [{ approved := approved, resolvedBy }] }
  | read {k : Nat} {resolve : Resolve} (call : s.resolves[k]? = some resolve)
      (phase : resolve.phase = .reading) : DeskTaken s (.read k) (s.read k resolve)
  | write {k : Nat} {resolve : Resolve} (now : Time) (call : s.resolves[k]? = some resolve)
      (phase : resolve.phase = .writing) : DeskTaken s (.write k now) (s.write k resolve now)
  | set {k : Nat} {resolve : Resolve} {changed : Bool} {state : ChatApprovalState}
      (call : s.resolves[k]? = some resolve) (phase : resolve.phase = .settling changed state) :
      DeskTaken s (.set k) (s.settleResolve k resolve changed state)
  | cancelTurn : DeskTaken s .cancelTurn { s with cancels := s.cancels ++ [.listing] }
  | list {k : Nat} (call : s.cancels[k]? = some .listing) :
      DeskTaken s (.list k) (s.setCancel k (.expiring s.pending))
  | expire {k : Nat} {listed : Bool} (now : Time) (call : s.cancels[k]? = some (.expiring listed)) :
      DeskTaken s (.expire k now)
        ((s.expirePending now "turn_cancelled").setCancel k (.settling listed))
  | setExpired {k : Nat} {listed : Bool} (call : s.cancels[k]? = some (.settling listed)) :
      DeskTaken s (.setExpired k) ((if listed then s.setResult false else s).setCancel k .done)
  | turnFinished (now : Time) (resolvedBy : String) :
      DeskTaken s (.turnFinished now resolvedBy) (s.expirePending now resolvedBy)

section Steps

variable {s t : ApprovalDesk} {act : DeskAct} {i k : Nat} {confirm confirm' : Confirm}

theorem onConfirm_eq_some_iff {f : Confirm → Option ApprovalDesk} :
    s.onConfirm i f = some t ↔ ∃ confirm, s.confirms[i]? = some confirm ∧ f confirm = some t :=
  Option.bind_eq_some_iff

theorem desk_taken_of_confirm {f : Confirm → Option ApprovalDesk} (h : s.onConfirm i f = some t)
    (each : ∀ confirm, s.confirms[i]? = some confirm → f confirm = some t → DeskTaken s act t) :
    DeskTaken s act t := by
  obtain ⟨confirm, found, taken⟩ := onConfirm_eq_some_iff.mp h
  exact each confirm found taken

theorem desk_taken_of_resolve {f : Resolve → Option ApprovalDesk}
    (h : (s.resolves[k]?).bind f = some t)
    (each : ∀ resolve, s.resolves[k]? = some resolve → f resolve = some t → DeskTaken s act t) :
    DeskTaken s act t := by
  obtain ⟨resolve, call, taken⟩ := Option.bind_eq_some_iff.mp h
  exact each resolve call taken

theorem desk_taken (taken : s.step act = some t) : DeskTaken s act t := by
  cases act with
  | configure settings => cases taken; exact .configure settings
  | confirm call reason => cases taken; exact .confirm call reason
  | resolve approved resolvedBy => cases taken; exact .resolve approved resolvedBy
  | cancelTurn => cases taken; exact .cancelTurn
  | turnFinished now resolvedBy => cases taken; exact .turnFinished now resolvedBy
  | request i =>
    refine desk_taken_of_confirm taken (fun confirm found step => ?_)
    split at step
    · cases step; exact .request found ‹_›
    · cases step
  | insert i now approvalId =>
    refine desk_taken_of_confirm taken (fun confirm found step => ?_)
    split at step
    · cases step; exact .insert now approvalId found ‹_›
    · cases step
  | register i =>
    refine desk_taken_of_confirm taken (fun confirm found step => ?_)
    split at step
    · cases step; exact .register found ‹_›
    · cases step
  | check i =>
    refine desk_taken_of_confirm taken (fun confirm found step => ?_)
    split at step
    · cases step; exact .check found ‹_› ‹_›
    · cases step; exact .missing found ‹_› ‹_›
    · cases step
  | settle i =>
    refine desk_taken_of_confirm taken (fun confirm found step => ?_)
    split at step
    · cases step; exact .settle found ‹_›
    · cases step
  | review i review =>
    refine desk_taken_of_confirm taken (fun confirm found step => ?_)
    split at step
    · cases step; exact .review review found ‹_›
    · cases step
  | notified i =>
    refine desk_taken_of_confirm taken (fun confirm found step => ?_)
    split at step
    · cases step; exact .notified found ‹_›
    · cases step
  | resolved i =>
    refine desk_taken_of_confirm taken (fun confirm found step => ?_)
    split at step
    · obtain ⟨resolve, call, step⟩ := Option.bind_eq_some_iff.mp step
      split at step
      · cases step; exact .resolved found ‹_› call ‹_›
      · cases step; exact .failed found ‹_› call ‹_›
      · cases step
    · cases step
  | wake i =>
    refine desk_taken_of_confirm taken (fun confirm found step => ?_)
    split at step
    · obtain ⟨approved, future, rfl⟩ := Option.map_eq_some_iff.mp step
      exact .wake found ‹_› future
    · cases step
  | read k =>
    refine desk_taken_of_resolve taken (fun resolve call step => ?_)
    split at step
    · cases step; exact .read call ‹_›
    · cases step
  | write k now =>
    refine desk_taken_of_resolve taken (fun resolve call step => ?_)
    split at step
    · cases step; exact .write now call ‹_›
    · cases step
  | set k =>
    refine desk_taken_of_resolve taken (fun resolve call step => ?_)
    split at step
    · cases step; exact .set call ‹_›
    · cases step
  | list k =>
    simp only [ApprovalDesk.step] at taken
    split at taken
    · cases taken; exact .list ‹_›
    · cases taken
  | expire k now =>
    simp only [ApprovalDesk.step] at taken
    split at taken
    · cases taken; exact .expire now ‹_›
    · cases taken
  | setExpired k =>
    simp only [ApprovalDesk.step] at taken
    split at taken
    · cases taken; exact .setExpired ‹_›
    · cases taken

theorem setResult_cases (s : ApprovalDesk) (decision : Bool) :
    (∃ i confirm, s.waiter = some i ∧ s.confirms[i]? = some confirm ∧ confirm.future = none ∧
      s.setResult decision = s.setConfirm i { confirm with future := some decision }) ∨
    s.setResult decision = s ∧ ∀ i confirm, s.waiter = some i → s.confirms[i]? = some confirm →
      confirm.future ≠ none :=
  Parties.setOnce_cases s.waiter s.confirms Confirm.future
    (fun i confirm => s.setConfirm i { confirm with future := some decision }) s (by
      unfold ApprovalDesk.setResult
      split <;> simp [*])

@[simp] theorem setResult_approval (decision : Bool) :
    (s.setResult decision).approval = s.approval := by
  rcases setResult_cases s decision with ⟨_, _, -, -, -, same⟩ | ⟨same, -⟩ <;> rw [same]
  rfl

@[simp] theorem setResult_resolves (decision : Bool) :
    (s.setResult decision).resolves = s.resolves := by
  rcases setResult_cases s decision with ⟨_, _, -, -, -, same⟩ | ⟨same, -⟩ <;> rw [same]
  rfl

@[simp] theorem setResult_cancels (decision : Bool) :
    (s.setResult decision).cancels = s.cancels := by
  rcases setResult_cases s decision with ⟨_, _, -, -, -, same⟩ | ⟨same, -⟩ <;> rw [same]
  rfl

theorem expirePending_keeps (now : Time) (resolvedBy : String) :
    s.KeepsDecision (s.expirePending now resolvedBy) := by
  intro row stored settled
  rw [Option.mem_def] at stored
  simp [ApprovalDesk.expirePending, stored, settled]

theorem expirePending_of_settled (now : Time) (resolvedBy : String) (settled : s.pending = false) :
    s.expirePending now resolvedBy = s := by
  obtain ⟨_, _, approval, _, _, _, _, _⟩ := s
  unfold ApprovalDesk.expirePending
  cases approval with
  | none => rfl
  | some row =>
    have not_pending : row.state ≠ .pending := by simpa [ApprovalDesk.pending] using settled
    simp [not_pending]

theorem expirePending_of_pending (now : Time) (resolvedBy : String) (pending : s.pending = true) :
    (s.expirePending now resolvedBy).decision = some false := by
  obtain ⟨row, stored, state⟩ := pending_iff.mp pending
  simp [ApprovalDesk.decision, ApprovalDesk.expirePending, stored, state, Option.filter]

theorem desk_step_keeps (taken : s.step act = some t) (apart : ∀ k now, act ≠ .write k now) :
    s.KeepsDecision t := by
  cases desk_taken taken with
  | write now _ _ => exact absurd rfl (apart _ now)
  | request found phase =>
    unfold ApprovalDesk.request
    split
    · exact keepsDecision_refl s
    · split <;> exact keepsDecision_refl s
  | insert now approvalId found phase =>
    unfold ApprovalDesk.insert
    split
    · exact keepsDecision_refl s
    · rename_i nothing
      intro row stored
      rw [nothing] at stored
      cases stored
  | register found phase =>
    unfold ApprovalDesk.register
    split <;> exact keepsDecision_refl s
  | review review found phase =>
    unfold ApprovalDesk.review
    split <;> exact keepsDecision_refl s
  | notified found phase =>
    unfold ApprovalDesk.notified
    split
    · split <;> exact keepsDecision_refl s
    · exact keepsDecision_refl s
  | set call phase =>
    intro row stored _
    unfold ApprovalDesk.settleResolve
    split
    · exact (setResult_approval _).trans stored
    · exact stored
  | expire now call =>
    intro row stored settled
    exact expirePending_keeps now _ row stored settled
  | setExpired call =>
    intro row stored _
    split
    · exact (setResult_approval _).trans stored
    · exact stored
  | turnFinished now resolvedBy => exact expirePending_keeps now resolvedBy
  | _ => exact keepsDecision_refl s

theorem desk_step_decided (taken : s.step act = some t) (decided : s.decision ≠ none) :
    t.decision ≠ none := by
  obtain ⟨row, stored, settled⟩ := decision_ne_none_iff.mp decided
  by_cases writes : ∃ k now, act = .write k now
  · obtain ⟨k, now, rfl⟩ := writes
    cases desk_taken taken with
    | write now call phase =>
      refine decision_ne_none_iff.mpr ⟨_, congrArg (Option.map _) stored, ?_⟩
      unfold Resolve.decision
      split <;> exact nofun
  · have keeps := desk_step_keeps taken (fun k now same => writes ⟨k, now, same⟩)
    exact decision_ne_none_iff.mpr ⟨row, keeps row stored settled, settled⟩

end Steps

section Rank

variable {s t : ApprovalDesk} {act : DeskAct} {i k : Nat} {confirm confirm' : Confirm}

theorem rank_setConfirm (found : s.confirms[i]? = some confirm)
    (lower : confirm'.phase.rank < confirm.phase.rank) :
      (s.setConfirm i confirm').rank < s.rank := by
  have change := Parties.rank_set (b := confirm') (fun confirm => confirm.phase.rank) found
  simp only [ApprovalDesk.rank, ApprovalDesk.setConfirm]
  omega

theorem rank_setResolve {resolve : Resolve} {phase : ResolvePhase}
    (call : s.resolves[k]? = some resolve) (lower : phase.rank < resolve.phase.rank) :
    (s.setResolve k resolve phase).rank < s.rank := by
  have change := Parties.rank_set (b := { resolve with phase })
    (fun resolve => resolve.phase.rank) call
  simp only [ApprovalDesk.rank, ApprovalDesk.setResolve] at *
  omega

theorem rank_setCancel {phase phase' : CancelPhase} (call : s.cancels[k]? = some phase)
    (lower : phase'.rank < phase.rank) : (s.setCancel k phase').rank < s.rank := by
  have change := Parties.rank_set (b := phase') CancelPhase.rank call
  simp only [ApprovalDesk.rank, ApprovalDesk.setCancel]
  omega

theorem rank_setResult (decision : Bool) : (s.setResult decision).rank = s.rank := by
  rcases setResult_cases s decision with ⟨i, confirm, -, found, -, same⟩ | ⟨same, -⟩ <;> rw [same]
  simp only [ApprovalDesk.rank, ApprovalDesk.setConfirm]
  rw [Parties.rank_set_same (b := { confirm with future := some decision })
    (fun confirm => confirm.phase.rank) found rfl]

theorem rank_goTo {phase : ConfirmPhase} (found : s.confirms[i]? = some confirm)
    (lower : phase.rank < confirm.phase.rank) : (s.goTo i confirm phase).rank < s.rank :=
  rank_setConfirm found lower

theorem rank_finish {phase : ConfirmPhase} (found : s.confirms[i]? = some confirm)
    (lower : phase.rank < confirm.phase.rank) : (s.finish i confirm phase).rank < s.rank :=
  rank_goTo (s := s) found lower

theorem desk_step_rank (taken : s.step act = some t) (goes : act.goesOn = true) :
    t.rank < s.rank := by
  cases desk_taken taken with
  | configure _ | confirm _ _ | resolve _ _ | cancelTurn | turnFinished _ _ => cases goes
  | request found phase =>
    unfold ApprovalDesk.request
    split
    · exact rank_goTo found (by simp [phase, ConfirmPhase.rank])
    · split <;> exact rank_goTo found (by simp [phase, ConfirmPhase.rank])
  | insert now approvalId found phase =>
    unfold ApprovalDesk.insert
    split
    · exact rank_goTo found (by simp [phase, ConfirmPhase.rank])
    · exact rank_goTo (s := s) found (by simp [phase, ConfirmPhase.rank])
  | register found phase =>
    unfold ApprovalDesk.register
    split
    · exact rank_goTo found (by simp [phase, ConfirmPhase.rank])
    · exact rank_goTo (s := s) found (by simp [phase, ConfirmPhase.rank])
  | check found phase stored => exact rank_goTo found (by simp [phase, ConfirmPhase.rank])
  | missing found phase nothing | resolved found phase call done | failed found phase call raised
  | wake found phase future => exact rank_finish found (by simp [phase, ConfirmPhase.rank])
  | settle found phase =>
    refine rank_setConfirm found ?_
    rw [phase]
    split <;> split <;> exact Nat.lt_of_sub_eq_succ rfl
  | review review found phase =>
    unfold ApprovalDesk.review
    split
    · exact rank_finish found (by simp [phase, ConfirmPhase.rank])
    · exact rank_goTo found (by simp [phase, ConfirmPhase.rank])
  | @notified i confirm created review found phase =>
    unfold ApprovalDesk.notified
    split
    · split
      · have change := Parties.rank_set (b := { confirm with phase := .resolving s.resolves.length })
          (fun confirm => confirm.phase.rank) found
        have before : confirm.phase.rank = 6 := by rw [phase]; rfl
        have after : (ConfirmPhase.resolving s.resolves.length).rank = 1 := rfl
        dsimp only at change
        simp only [ApprovalDesk.rank, ApprovalDesk.goTo, ApprovalDesk.setConfirm, List.map_append,
          List.map_cons, List.map_nil, List.sum_append, List.sum_cons, List.sum_nil,
          ResolvePhase.rank]
        omega
      · exact rank_goTo found (by simp [phase, ConfirmPhase.rank])
    · exact rank_goTo found (by simp [phase, ConfirmPhase.rank])
  | read call phase =>
    refine rank_setResolve call ?_
    split
    · simp [phase, ResolvePhase.rank]
    · split <;> simp [phase, ResolvePhase.rank]
  | write now call phase => exact rank_setResolve (s := s) call (by simp [phase, ResolvePhase.rank])
  | @set k resolve changed state call phase =>
    unfold ApprovalDesk.settleResolve
    split
    · rw [← rank_setResult (s := s) resolve.approved]
      rw [← setResult_resolves resolve.approved] at call
      exact rank_setResolve call (by simp [phase, ResolvePhase.rank])
    · exact rank_setResolve call (by simp [phase, ResolvePhase.rank])
  | list call => exact rank_setCancel call (by simp [CancelPhase.rank])
  | expire now call => exact rank_setCancel (s := s) call (by simp [CancelPhase.rank])
  | setExpired call =>
    split
    · rw [← rank_setResult (s := s) false]
      rw [← setResult_cancels false] at call
      exact rank_setCancel call (by simp [CancelPhase.rank])
    · exact rank_setCancel call (by simp [CancelPhase.rank])

end Rank

end Knoa.Conversation
