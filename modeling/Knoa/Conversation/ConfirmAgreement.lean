import Knoa.Conversation.ConfirmSteps

/-!
# What a confirmation returns

One decision is recorded for an approval, `confirm` returns it, and no call is left waiting: as long
as every write finds the approval as it was read, and one that expires has nobody waiting.
-/
namespace Knoa.Conversation
open Knoa.Tasks Transition

namespace ApprovalDesk

/-- What `confirm` has returned is what is recorded. -/
def Agrees (s : ApprovalDesk) : Prop :=
  ∀ confirm ∈ s.confirms, ∀ approved, confirm.phase = .returned approved →
    s.decision = some approved

/-- A call is on its way to the waiter with the decision. -/
def Waking (s : ApprovalDesk) : Prop :=
  (∃ resolve ∈ s.resolves, resolve.phase.sets = true) ∨ .settling true ∈ s.cancels

end ApprovalDesk

/-- A step of a call that is under way, and one that does not wait for the reviewer. -/
def DeskAct.unaided (s : ApprovalDesk) (act : DeskAct) : Bool :=
  act.goesOn && match act with
    | .review i _ => (s.confirms[i]?).any (fun confirm => confirm.future.isSome)
    | _ => true

/-- The calls under way take no more steps than their rank, and while a `confirm` has not
ended one of them has a step to take. -/
def ApprovalDesk.Answers (s : ApprovalDesk) : Prop :=
  ∀ acts, (∀ act ∈ acts, act.goesOn = true) →
    (accepted ApprovalDesk.step s acts).length ≤ s.rank ∧
      ((∀ confirm ∈ (final ApprovalDesk.step s acts).confirms, confirm.phase.ended = true) ∨
        ∃ act, act.unaided (final ApprovalDesk.step s acts) = true ∧
          ((final ApprovalDesk.step s acts).step act).isSome = true)

def DeskAct.Wakes (s : ApprovalDesk) : DeskAct → Prop
  | .expire k _ => s.pending = true → s.cancels[k]? ≠ some (.expiring false)
  | .turnFinished _ _ => s.pending = true → ∀ i ∈ s.waiter, ∀ confirm ∈ s.confirms[i]?,
      confirm.phase.relies = false
  | _ => True

/-- A write finds the approval as it was read, and an approval that expires with its turn has
no waiter that relies on it. -/
def DeskAct.Timely (s : ApprovalDesk) : DeskAct → Prop
  | .write _ _ => s.pending = true
  | .expire k _ => s.cancels[k]? = some (.expiring s.pending)
  | .turnFinished _ _ => s.pending = true → ∀ i ∈ s.waiter, ∀ confirm ∈ s.confirms[i]?,
      confirm.phase.relies = false
  | _ => True

instance DeskAct.decidableTimely (s : ApprovalDesk) (act : DeskAct) : Decidable (act.Timely s) := by
  unfold DeskAct.Timely
  split <;> infer_instance

variable {act : DeskAct}

theorem DeskAct.Timely.wakes {s : ApprovalDesk} (h : act.Timely s) : act.Wakes s := by
  cases act with
  | expire k now =>
    intro pending unlisted
    rw [h, pending] at unlisted
    cases unlisted
  | turnFinished now resolvedBy => exact h
  | _ => trivial

structure DeskLive (s : ApprovalDesk) : Prop where
  waiting : ∀ (i : Nat) (confirm : Confirm), s.confirms[i]? = some confirm →
    confirm.phase.registered = true → s.waiter = some i
  known : ∀ (i k : Nat) (confirm : Confirm), s.confirms[i]? = some confirm →
    confirm.phase = .resolving k → k < s.resolves.length
  woken : s.decision ≠ none → ∀ confirm ∈ s.confirms, confirm.phase.relies = true →
    confirm.future = none → s.Waking

section Live

variable {s t : ApprovalDesk} {act : DeskAct} {i k : Nat} {confirm confirm' : Confirm}

theorem DeskLive.setConfirm (live : DeskLive s) (found : s.confirms[i]? = some confirm)
    (registered : confirm'.phase.registered = true → confirm.phase.registered = true)
    (known : ∀ k, confirm'.phase = .resolving k → k < s.resolves.length)
    (relies : s.decision ≠ none → confirm'.phase.relies = true → confirm'.future = none →
      confirm.phase.relies = true ∧ confirm.future = none) :
    DeskLive (s.setConfirm i confirm') where
  waiting := by
    intro j other found' waits
    rcases Parties.getElem?_set_cases found' with ⟨rfl, rfl⟩ | ⟨_, found'⟩
    · exact live.waiting i confirm found (registered waits)
    · exact live.waiting j other found' waits
  known := by
    intro j k other found' resolving
    rcases Parties.getElem?_set_cases found' with ⟨rfl, rfl⟩ | ⟨_, found'⟩
    · exact known k resolving
    · exact live.known j k other found' resolving
  woken := by
    intro decided
    refine Parties.forall_set (live.woken decided) ?_
    intro waits nothing
    obtain ⟨waits, nothing⟩ := relies decided waits nothing
    exact live.woken decided confirm (List.mem_of_getElem? found) waits nothing

theorem DeskLive.goTo {phase : ConfirmPhase} (live : DeskLive s)
    (found : s.confirms[i]? = some confirm) (plain : phase.registered = false) :
    DeskLive (s.goTo i confirm phase) := by
  refine live.setConfirm found ?_ ?_ ?_
  · intro waits
    rw [plain] at waits
    cases waits
  · rintro k rfl
    cases plain
  · intro _ relies _
    rw [ConfirmPhase.registered_of_relies relies] at plain
    cases plain

theorem DeskLive.finish {phase : ConfirmPhase} (live : DeskLive s)
    (found : s.confirms[i]? = some confirm) (plain : phase.registered = false) :
    DeskLive (s.finish i confirm phase) where
  known := (live.goTo found plain).known
  woken := (live.goTo found plain).woken
  waiting := by
    intro j other found' waits
    rcases Parties.getElem?_set_cases found' with ⟨rfl, rfl⟩ | ⟨apart, found'⟩
    · rw [plain] at waits
      cases waits
    · have waiter := live.waiting j other found' waits
      simp [ApprovalDesk.finish, waiter, Option.filter, Ne.symm apart]

theorem DeskLive.setResolve {resolve : Resolve} {phase : ResolvePhase} (live : DeskLive s)
    (call : s.resolves[k]? = some resolve)
    (delivered : resolve.phase.sets = true → ∀ confirm ∈ s.confirms,
      confirm.phase.relies = true → confirm.future ≠ none) :
    DeskLive (s.setResolve k resolve phase) where
  waiting := live.waiting
  known := by
    intro j k' other found resolving
    simp only [ApprovalDesk.setResolve, List.length_set]
    exact live.known j k' other found resolving
  woken := by
    intro decided other member relies nothing
    rcases live.woken decided other member relies nothing with ⟨by_, listed, sets⟩ | cancelled
    · refine Or.inl ⟨by_, Parties.mem_set_other listed call ?_, sets⟩
      rintro rfl
      exact delivered sets other member relies nothing
    · exact Or.inr cancelled

theorem DeskLive.setCancel {phase phase' : CancelPhase} (live : DeskLive s)
    (call : s.cancels[k]? = some phase)
    (delivered : phase = .settling true → ∀ confirm ∈ s.confirms,
      confirm.phase.relies = true → confirm.future ≠ none) : DeskLive (s.setCancel k phase') :=
  { live with
    woken := by
      intro decided other member relies nothing
      rcases live.woken decided other member relies nothing with resolved | cancelled
      · exact Or.inl resolved
      · refine Or.inr (Parties.mem_set_other cancelled call ?_)
        rintro rfl
        exact delivered rfl other member relies nothing }

theorem DeskLive.setResult (live : DeskLive s) (decision : Bool) :
    DeskLive (s.setResult decision) ∧ ∀ confirm ∈ (s.setResult decision).confirms,
      confirm.phase.relies = true → confirm.future ≠ none := by
  rcases setResult_cases s decision with ⟨i, confirm, waiter, found, nothing, same⟩ | ⟨same, given⟩
  · rw [same]
    refine ⟨live.setConfirm found id (fun k => live.known i k confirm found) ?_, ?_⟩
    · nofun
    · intro other member relies
      obtain ⟨j, found'⟩ := List.mem_iff_getElem?.mp member
      rcases Parties.getElem?_set_cases found' with ⟨rfl, rfl⟩ | ⟨apart, found'⟩
      · exact nofun
      · have mine := live.waiting j other found' (ConfirmPhase.registered_of_relies relies)
        rw [waiter] at mine
        exact absurd (Option.some.inj mine) apart
  · rw [same]
    refine ⟨live, ?_⟩
    intro other member relies
    obtain ⟨j, found⟩ := List.mem_iff_getElem?.mp member
    exact given j other (live.waiting j other found (ConfirmPhase.registered_of_relies relies)) found

theorem DeskLive.undecided {approval : Option ChatApprovalRow} (live : DeskLive s)
    (nothing : ({ s with approval } : ApprovalDesk).decision = none) :
    DeskLive { s with approval } :=
  { live with
    woken := fun decided => absurd nothing decided }

theorem DeskLive.waking {approval : Option ChatApprovalRow} {resolves : List Resolve}
    {cancels : List CancelPhase} (live : DeskLive s) (length : s.resolves.length ≤ resolves.length)
    (waking : ({ s with
      approval, resolves, cancels } : ApprovalDesk).Waking) :
    DeskLive { s with approval, resolves, cancels } where
  waiting := live.waiting
  known i k confirm found resolving :=
    Nat.lt_of_lt_of_le (live.known i k confirm found resolving) length
  woken _ _ _ _ _ := waking

theorem request_live (live : DeskLive s) (found : s.confirms[i]? = some confirm) :
    DeskLive (s.request i confirm) := by
  unfold ApprovalDesk.request
  split
  · exact live.goTo found rfl
  · split <;> exact live.goTo found rfl

theorem insert_live (live : DeskLive s) (found : s.confirms[i]? = some confirm) (now : Time)
    (approvalId : String) : DeskLive (s.insert i confirm now approvalId) := by
  unfold ApprovalDesk.insert
  split
  · exact live.goTo found rfl
  · exact (@DeskLive.goTo s i confirm (.registering true) live found rfl).undecided rfl

variable {created : Bool}

section
variable (live : DeskLive s)
include live

section
variable (found : s.confirms[i]? = some confirm)
include found

theorem register_live : DeskLive (s.register i confirm created) := by
  unfold ApprovalDesk.register
  split
  · exact live.goTo found rfl
  · rename_i free
    refine ⟨?_, ?_, ?_⟩
    · intro j other found' waits
      rcases Parties.getElem?_set_cases found' with ⟨rfl, rfl⟩ | ⟨_, found'⟩
      · rfl
      · rw [live.waiting j other found' waits] at free
        exact absurd rfl free
    · intro j k other found' resolving
      rcases Parties.getElem?_set_cases found' with ⟨rfl, rfl⟩ | ⟨_, found'⟩
      · cases resolving
      · exact live.known j k other found' resolving
    · intro decided
      refine Parties.forall_set (live.woken decided) ?_
      intro relies
      cases relies

theorem check_live {row : ChatApprovalRow} (phase : confirm.phase = .checking created)
    (stored : s.approval = some row) :
    DeskLive (s.goTo i confirm (.checked created row.state)) := by
  refine live.setConfirm found ?_ nofun ?_
  · intro _
    rw [phase]
    rfl
  · intro decided relies _
    obtain ⟨row', stored', settled⟩ := decision_ne_none_iff.mp decided
    rw [stored] at stored'
    cases stored'
    cases state : row.state with
    | pending => exact absurd state settled
    | _ => rw [state] at relies; cases relies

theorem settle_live {state : ChatApprovalState} (phase : confirm.phase = .checked created state) :
    DeskLive (s.settle i confirm created state) := by
  refine live.setConfirm found ?_ ?_ ?_
  · intro _
    rw [phase]
    rfl
  · intro k resolving
    split at resolving <;> split at resolving <;> cases resolving
  · intro _ _ nothing
    split at nothing
    · cases nothing
    · rename_i unread
      refine ⟨?_, nothing⟩
      have pending : state = .pending := by
        by_contra settled
        exact unread ⟨settled, nothing⟩
      rw [phase, pending]
      rfl

theorem review_live (phase : confirm.phase = .reviewing) (review : Option Review) :
    DeskLive (s.review i confirm review) := by
  unfold ApprovalDesk.review
  split
  · exact live.finish found rfl
  · refine live.setConfirm found ?_ nofun ?_
    · intro _
      rw [phase]
      rfl
    · intro _ _ nothing
      rw [phase]
      exact ⟨rfl, nothing⟩

theorem notified_live {review : Option Review} (phase : confirm.phase = .notifying created review) :
    DeskLive (s.notified i confirm created review) := by
  have waits : DeskLive (s.goTo i confirm .waiting) := by
    refine live.setConfirm found ?_ nofun ?_
    · intro _
      rw [phase]
      rfl
    · intro _ _ nothing
      rw [phase]
      exact ⟨rfl, nothing⟩
  unfold ApprovalDesk.notified
  split
  · split
    · refine ⟨?_, ?_, ?_⟩
      · intro j other found' registered
        rcases Parties.getElem?_set_cases found' with ⟨rfl, rfl⟩ | ⟨_, found'⟩
        · exact live.waiting i confirm found (by rw [phase]; rfl)
        · exact live.waiting j other found' registered
      · intro j k other found' resolving
        simp only [List.length_append, List.length_singleton]
        rcases Parties.getElem?_set_cases found' with ⟨rfl, rfl⟩ | ⟨_, found'⟩
        · cases resolving
          exact Nat.lt_succ_self _
        · exact Nat.lt_succ_of_lt (live.known j k other found' resolving)
      · intro decided
        refine Parties.forall_set ?_ nofun
        intro other member relies nothing
        rcases live.woken decided other member relies nothing with ⟨by_, listed, sets⟩ | cancelled
        · exact Or.inl ⟨by_, List.mem_append_left _ listed, sets⟩
        · exact Or.inr cancelled
    · exact waits
  · exact waits

end

theorem settleResolve_live {resolve : Resolve} {changed : Bool} {state : ChatApprovalState}
    (call : s.resolves[k]? = some resolve) (phase : resolve.phase = .settling changed state) :
    DeskLive (s.settleResolve k resolve changed state) := by
  unfold ApprovalDesk.settleResolve
  split
  · obtain ⟨live', given⟩ := live.setResult resolve.approved
    rw [← setResult_resolves resolve.approved] at call
    exact live'.setResolve call (fun _ => given)
  · rename_i unchanged
    refine live.setResolve call ?_
    intro sets
    rw [phase, Bool.not_eq_true _ |>.mp unchanged] at sets
    cases sets

theorem expirePending_live (now : Time) (resolvedBy : String)
    (nobody : s.pending = true → ∀ i ∈ s.waiter, ∀ confirm ∈ s.confirms[i]?,
      confirm.phase.relies = false) : DeskLive (s.expirePending now resolvedBy) := by
  cases pending : s.pending with
  | false =>
    rw [expirePending_of_settled now resolvedBy pending]
    exact live
  | true =>
    refine ⟨live.waiting, live.known, ?_⟩
    intro _ confirm member relies _
    obtain ⟨i, found⟩ := List.mem_iff_getElem?.mp member
    have waiter := live.waiting i confirm found (ConfirmPhase.registered_of_relies relies)
    rw [nobody pending i waiter confirm found] at relies
    cases relies

theorem expire_live {listed : Bool} (call : s.cancels[k]? = some (.expiring listed)) (now : Time)
    (wakes : s.pending = true → s.cancels[k]? ≠ some (.expiring false)) :
    DeskLive ((s.expirePending now "turn_cancelled").setCancel k (.settling listed)) := by
  cases pending : s.pending with
  | false =>
    rw [expirePending_of_settled now _ pending]
    exact live.setCancel call nofun
  | true =>
    have told : listed = true := by
      cases listed with
      | true => rfl
      | false => exact absurd call (wakes pending)
    subst told
    exact live.waking (Nat.le_refl _) (Or.inr (Parties.mem_set_self call))

theorem desk_step_live (wakes : act.Wakes s) (taken : s.step act = some t) : DeskLive t := by
  cases desk_taken taken with
  | configure settings => exact ⟨live.waiting, live.known, live.woken⟩
  | confirm call reason =>
    refine ⟨?_, ?_, ?_⟩
    · intro j other found waits
      rcases Parties.getElem?_append_cases found with ⟨-, rfl⟩ | found
      · cases waits
      · exact live.waiting j other found waits
    · intro j k other found resolving
      rcases Parties.getElem?_append_cases found with ⟨-, rfl⟩ | found
      · cases resolving
      · exact live.known j k other found resolving
    · intro decided
      exact Parties.forall_append (live.woken decided) nofun
  | request found phase => exact request_live live found
  | insert now approvalId found phase => exact insert_live live found now approvalId
  | register found _ => exact register_live live found
  | check found phase stored => exact check_live live found phase stored
  | missing found phase nothing | resolved found phase call done | failed found phase call raised
  | wake found phase future => exact live.finish found rfl
  | settle found phase => exact settle_live live found phase
  | review review found phase => exact review_live live found phase review
  | notified found phase => exact notified_live live found phase
  | resolve approved resolvedBy =>
    refine ⟨live.waiting, ?_, ?_⟩
    · intro i k confirm found resolving
      rw [List.length_append]
      exact Nat.lt_add_right _ (live.known i k confirm found resolving)
    · intro decided confirm member relies nothing
      rcases live.woken decided confirm member relies nothing with ⟨by_, listed, sets⟩ | cancelled
      · exact Or.inl ⟨by_, List.mem_append_left _ listed, sets⟩
      · exact Or.inr cancelled
  | read call phase =>
    refine live.setResolve call ?_
    rw [phase]
    exact nofun
  | write now call phase =>
    refine live.waking (by rw [List.length_set]) (Or.inl ⟨_, Parties.mem_set_self call, rfl⟩)
  | set call phase => exact settleResolve_live live call phase
  | cancelTurn =>
    refine ⟨live.waiting, live.known, ?_⟩
    intro decided confirm member relies nothing
    rcases live.woken decided confirm member relies nothing with resolved | cancelled
    · exact Or.inl resolved
    · exact Or.inr (List.mem_append_left _ cancelled)
  | list call => exact live.setCancel call nofun
  | expire now call => exact expire_live live call now wakes
  | setExpired call =>
    split
    · obtain ⟨live', given⟩ := live.setResult false
      rw [← setResult_cancels false] at call
      exact live'.setCancel call (fun _ => given)
    · rename_i unlisted
      refine live.setCancel call ?_
      intro settling
      rw [Bool.not_eq_true _ |>.mp unlisted] at settling
      cases settling
  | turnFinished now resolvedBy => exact expirePending_live live now resolvedBy wakes

end

end Live

section Progress

variable {s : ApprovalDesk}

variable {confirm : Confirm}

theorem onConfirm_isSome {i : Nat} {f : Confirm → Option ApprovalDesk}
    (found : s.confirms[i]? = some confirm) : (s.onConfirm i f).isSome = (f confirm).isSome := by
  rw [ApprovalDesk.onConfirm, found, Option.bind_some]

theorem waking_moves (waking : s.Waking) :
    ∃ act, act.unaided s = true ∧ (s.step act).isSome = true := by
  rcases waking with ⟨resolve, listed, sets⟩ | cancelled
  · obtain ⟨k, call⟩ := List.mem_iff_getElem?.mp listed
    refine ⟨.set k, rfl, ?_⟩
    simp only [ApprovalDesk.step, call, Option.bind_some]
    split
    · rfl
    · rename_i other
      cases phase : resolve.phase with
      | settling changed state => exact absurd phase (other changed state)
      | _ => rw [phase] at sets; cases sets
  · obtain ⟨k, call⟩ := List.mem_iff_getElem?.mp cancelled
    refine ⟨.setExpired k, rfl, ?_⟩
    simp only [ApprovalDesk.step, call]
    rfl

theorem resolving_moves {i k : Nat} {resolve : Resolve} (found : s.confirms[i]? = some confirm)
    (phase : confirm.phase = .resolving k) (call : s.resolves[k]? = some resolve) :
    ∃ act, act.unaided s = true ∧ (s.step act).isSome = true := by
  cases stands : resolve.phase with
  | reading => exact ⟨.read k, rfl, by simp [ApprovalDesk.step, call, stands]⟩
  | writing => exact ⟨.write k 0, rfl, by simp [ApprovalDesk.step, call, stands]⟩
  | settling changed state => exact ⟨.set k, rfl, by simp [ApprovalDesk.step, call, stands]⟩
  | done state | raised =>
    refine ⟨.resolved i, rfl, ?_⟩
    simp [ApprovalDesk.step, onConfirm_isSome found, phase, call, stands]

/-- Once a decision is recorded, a `confirm` that has not ended does not wait for anything but
a step of its own or of a call that decides. -/
theorem confirm_moves (live : DeskLive s) (decided : s.decision ≠ none)
    (member : confirm ∈ s.confirms) (going : confirm.phase.ended = false) :
    ∃ act, act.unaided s = true ∧ (s.step act).isSome = true := by
  obtain ⟨i, found⟩ := List.mem_iff_getElem?.mp member
  obtain ⟨row, stored, -⟩ := decision_ne_none_iff.mp decided
  cases phase : confirm.phase with
  | requesting =>
    exact ⟨.request i, rfl, by simp [ApprovalDesk.step, onConfirm_isSome found, phase]⟩
  | inserting =>
    exact ⟨.insert i 0 "", rfl, by simp [ApprovalDesk.step, onConfirm_isSome found, phase]⟩
  | registering created =>
    exact ⟨.register i, rfl, by simp [ApprovalDesk.step, onConfirm_isSome found, phase]⟩
  | checking created =>
    exact ⟨.check i, rfl, by simp [ApprovalDesk.step, onConfirm_isSome found, phase, stored]⟩
  | checked created state =>
    exact ⟨.settle i, rfl, by simp [ApprovalDesk.step, onConfirm_isSome found, phase]⟩
  | reviewing =>
    cases future : confirm.future with
    | none => exact waking_moves (live.woken decided confirm member (by rw [phase]; rfl) future)
    | some approved =>
      refine ⟨.review i none, by simp [DeskAct.unaided, DeskAct.goesOn, found, future], ?_⟩
      simp [ApprovalDesk.step, onConfirm_isSome found, phase]
  | notifying created review =>
    exact ⟨.notified i, rfl, by simp [ApprovalDesk.step, onConfirm_isSome found, phase]⟩
  | resolving k =>
    have bound := live.known i k confirm found phase
    exact resolving_moves found phase (List.getElem?_eq_getElem bound)
  | waiting =>
    cases future : confirm.future with
    | none => exact waking_moves (live.woken decided confirm member (by rw [phase]; rfl) future)
    | some approved =>
      refine ⟨.wake i, rfl, ?_⟩
      simp [ApprovalDesk.step, onConfirm_isSome found, phase, future]
  | returned approved | raised => rw [phase] at going; cases going

theorem stranded (alone : s.confirms = [confirm]) (waits : confirm.phase = .waiting)
    (nothing : confirm.future = none) (free : s.resolves = []) (quiet : s.cancels = [])
    (goes : act.goesOn = true) : s.step act = none := by
  have only : ∀ (i : Nat) (other : Confirm), s.confirms[i]? = some other → other = confirm := by
    intro i other found
    rw [alone] at found
    exact List.mem_singleton.mp (List.mem_of_getElem? found)
  by_contra moves
  obtain ⟨t, taken⟩ := Option.ne_none_iff_exists'.mp moves
  cases desk_taken taken with
  | configure _ | confirm _ _ | resolve _ _ | cancelTurn | turnFinished _ _ => cases goes
  | read call _ | write _ call _ | set call _ => rw [free] at call; cases call
  | list call | expire _ call | setExpired call => rw [quiet] at call; cases call
  | wake found _ future =>
    rw [only _ _ found, nothing] at future
    cases future
  | request found phase | insert _ _ found phase | register found phase | check found phase _
  | missing found phase _ | settle found phase | review _ found phase | notified found phase
  | resolved found phase _ _ | failed found phase _ _ =>
    rw [only _ _ found, waits] at phase
    cases phase

theorem goesOn_wakes (decided : s.decision ≠ none) (goes : act.goesOn = true) : act.Wakes s := by
  cases act with
  | expire k now => exact fun pending => absurd (decision_of_pending pending) decided
  | turnFinished now resolvedBy => cases goes
  | _ => trivial

theorem decided_answers (live : DeskLive s) (decided : s.decision ≠ none) : s.Answers := by
  intro acts goes
  have kept : ∀ s act t, DeskLive s ∧ s.decision ≠ none → DeskAct.goesOn act = true →
      ApprovalDesk.step s act = some t → DeskLive t ∧ t.decision ≠ none := by
    rintro s act t ⟨live, decided⟩ goes taken
    exact ⟨desk_step_live live (goesOn_wakes decided goes) taken, desk_step_decided taken decided⟩
  have reached := Transition.final_safe_of_allowed kept ⟨live, decided⟩ goes
  have lowers : ∀ s act t, True → DeskAct.goesOn act = true → ApprovalDesk.step s act = some t →
      True ∧ t.rank < s.rank :=
    fun _ _ _ _ goes taken => ⟨trivial, desk_step_rank taken goes⟩
  have bounded : (accepted ApprovalDesk.step s acts).length ≤ s.rank :=
    Transition.accepted_length_le lowers trivial goes
  refine ⟨bounded, ?_⟩
  by_cases isOver : ∀ confirm ∈ (final ApprovalDesk.step s acts).confirms,
      confirm.phase.ended = true
  · exact Or.inl isOver
  · obtain ⟨confirm, member, going⟩ : ∃ confirm ∈ (final ApprovalDesk.step s acts).confirms,
        confirm.phase.ended = false := by simpa using isOver
    exact Or.inr (confirm_moves reached.1 reached.2 member going)

end Progress

/-- What a call of `confirm` goes by is what is recorded. -/
structure ConfirmSound (decision : Option Bool) (confirm : Confirm) : Prop where
  future : ∀ approved, confirm.future = some approved → decision = some approved
  returned : ∀ approved, confirm.phase = .returned approved → decision = some approved
  checked : ∀ created state, confirm.phase = .checked created state → state ≠ .pending →
    decision = some (decide (state = .approved))

structure ResolveSound (decision : Option Bool) (resolve : Resolve) : Prop where
  settling : ∀ changed state, resolve.phase = .settling changed state →
    decision = some (decide (state = .approved)) ∧
      (changed = true → decision = some resolve.approved)
  done : ∀ state, resolve.phase = .done state → decision = some (decide (state = .approved))

structure DeskSound (s : ApprovalDesk) : Prop where
  confirms : ∀ confirm ∈ s.confirms, ConfirmSound s.decision confirm
  resolves : ∀ resolve ∈ s.resolves, ResolveSound s.decision resolve
  cancelled : .settling true ∈ s.cancels → s.decision = some false

section Sound

variable {s t : ApprovalDesk} {act : DeskAct} {i k : Nat} {confirm confirm' : Confirm}
  {decision : Option Bool} {resolve : Resolve}

theorem ConfirmSound.of_none (h : ConfirmSound none confirm) : ConfirmSound decision confirm where
  future approved future := absurd (h.future approved future) nofun
  returned approved phase := absurd (h.returned approved phase) nofun
  checked created state phase settled := absurd (h.checked created state phase settled) nofun

theorem ResolveSound.of_none (h : ResolveSound none resolve) : ResolveSound decision resolve where
  settling changed state phase := absurd (h.settling changed state phase).1 nofun
  done state phase := absurd (h.done state phase) nofun

theorem DeskSound.decide {approval : Option ChatApprovalRow} (sound : DeskSound s)
    (none_ : s.decision = none) : DeskSound { s with approval } where
  confirms confirm member := by
    have old := sound.confirms confirm member
    rw [none_] at old
    exact old.of_none
  resolves resolve member := by
    have old := sound.resolves resolve member
    rw [none_] at old
    exact old.of_none
  cancelled listed := by
    have told := sound.cancelled listed
    rw [none_] at told
    cases told

theorem DeskSound.setConfirm (sound : DeskSound s) (new : ConfirmSound s.decision confirm') :
    DeskSound (s.setConfirm i confirm') :=
  ⟨Parties.forall_set sound.confirms new, sound.resolves, sound.cancelled⟩

theorem DeskSound.setResolve {phase : ResolvePhase} (sound : DeskSound s)
    (new : ResolveSound s.decision { resolve with phase }) :
    DeskSound (s.setResolve k resolve phase) :=
  ⟨sound.confirms, Parties.forall_set sound.resolves new, sound.cancelled⟩

theorem DeskSound.goTo {phase : ConfirmPhase} (sound : DeskSound s)
    (found : s.confirms[i]? = some confirm)
    (returned : ∀ approved, phase = .returned approved → s.decision = some approved)
    (checked : ∀ created state, phase = .checked created state → state ≠ .pending →
      s.decision = some (Decidable.decide (state = .approved))) :
    DeskSound (s.goTo i confirm phase) :=
  sound.setConfirm ⟨(sound.confirms confirm (List.mem_of_getElem? found)).future, returned, checked⟩

theorem DeskSound.finish {phase : ConfirmPhase} (sound : DeskSound s)
    (found : s.confirms[i]? = some confirm)
    (returned : ∀ approved, phase = .returned approved → s.decision = some approved)
    (checked : ∀ created state, phase ≠ .checked created state) :
    DeskSound (s.finish i confirm phase) :=
  let done := sound.goTo found returned (fun created state is => absurd is (checked created state))
  ⟨done.confirms, done.resolves, done.cancelled⟩

theorem DeskSound.setResult {approved : Bool} (sound : DeskSound s)
    (decided : s.decision = some approved) : DeskSound (s.setResult approved) := by
  rcases setResult_cases s approved with ⟨i, confirm, _, found, _, same⟩ | ⟨same, _⟩
  · rw [same]
    have old := sound.confirms confirm (List.mem_of_getElem? found)
    refine sound.setConfirm ⟨?_, old.returned, old.checked⟩
    intro other given
    cases given
    exact decided
  · rw [same]
    exact sound

theorem request_sound (sound : DeskSound s) (found : s.confirms[i]? = some confirm) :
    DeskSound (s.request i confirm) := by
  unfold ApprovalDesk.request
  split
  · exact sound.goTo found nofun nofun
  · rename_i row stored
    split
    · exact sound.goTo found nofun nofun
    · rename_i settled
      refine sound.goTo found ?_ nofun
      intro approved returned
      cases returned
      exact decision_of_stored stored settled

theorem insert_sound (sound : DeskSound s) (found : s.confirms[i]? = some confirm) (now : Time)
    (approvalId : String) : DeskSound (s.insert i confirm now approvalId) := by
  unfold ApprovalDesk.insert
  split
  · exact sound.goTo found nofun nofun
  · rename_i nothing
    refine (@DeskSound.goTo s i confirm (.registering true) sound found nofun nofun).decide ?_
    change s.decision = none
    rw [ApprovalDesk.decision, nothing]
    rfl

theorem settle_sound {created : Bool} {state : ChatApprovalState} (sound : DeskSound s)
    (found : s.confirms[i]? = some confirm) (phase : confirm.phase = .checked created state) :
    DeskSound (s.settle i confirm created state) := by
  have old := sound.confirms confirm (List.mem_of_getElem? found)
  refine sound.setConfirm ⟨?_, ?_, ?_⟩
  · intro approved future
    split at future
    · rename_i read
      cases future
      exact old.checked created state phase read.1
    · exact old.future approved future
  · intro approved returned
    split at returned <;> split at returned <;> cases returned
  · intro created state checked
    split at checked <;> split at checked <;> cases checked

theorem review_sound (sound : DeskSound s) (found : s.confirms[i]? = some confirm)
    (review : Option Review) : DeskSound (s.review i confirm review) := by
  have old := sound.confirms confirm (List.mem_of_getElem? found)
  unfold ApprovalDesk.review
  split
  · rename_i approved future
    refine sound.finish found ?_ nofun
    intro other returned
    cases returned
    exact old.future approved future
  · exact sound.goTo found nofun nofun

theorem notified_sound {created : Bool} {review : Option Review} (sound : DeskSound s)
    (found : s.confirms[i]? = some confirm) : DeskSound (s.notified i confirm created review) := by
  unfold ApprovalDesk.notified
  split
  · split
    · have resolving := @DeskSound.goTo s i confirm (.resolving s.resolves.length) sound found
        nofun nofun
      exact ⟨resolving.confirms, Parties.forall_append sound.resolves ⟨nofun, nofun⟩,
        sound.cancelled⟩
    · exact sound.goTo found nofun nofun
  · exact sound.goTo found nofun nofun

theorem resolveRead_sound (sound : DeskSound s) : DeskSound (s.read k resolve) := by
  refine sound.setResolve ⟨?_, ?_⟩
  · intro changed state phase
    split at phase
    · cases phase
    · rename_i row stored
      split at phase <;> cases phase
      rename_i settled
      exact ⟨decision_of_stored stored settled, nofun⟩
  · intro state phase
    split at phase
    · cases phase
    · split at phase <;> cases phase

theorem resolveWrite_sound (sound : DeskSound s) (now : Time) (pending : s.pending = true) :
    DeskSound (s.write k resolve now) := by
  obtain ⟨row, stored, -⟩ := pending_iff.mp pending
  have first := decision_of_pending pending
  refine (sound.decide first).setResolve ⟨?_, nofun⟩
  intro changed state phase
  cases phase
  rw [decision_of_stored (congrArg (Option.map _) stored)]
  · unfold Resolve.decision
    cases resolve.approved <;> exact ⟨rfl, fun _ => rfl⟩
  · unfold Resolve.decision
    cases resolve.approved <;> exact nofun

theorem settleResolve_sound {changed : Bool} {state : ChatApprovalState} (sound : DeskSound s)
    (call : s.resolves[k]? = some resolve) (phase : resolve.phase = .settling changed state) :
    DeskSound (s.settleResolve k resolve changed state) := by
  have told := (sound.resolves resolve (List.mem_of_getElem? call)).settling changed state phase
  have done : ResolveSound s.decision { resolve with phase := .done state } := by
    refine ⟨nofun, ?_⟩
    intro other finished
    cases finished
    exact told.1
  unfold ApprovalDesk.settleResolve
  split
  · rename_i changes
    have set := sound.setResult (told.2 changes)
    refine set.setResolve ?_
    rw [ApprovalDesk.decision, setResult_approval]
    exact done
  · exact sound.setResolve done

theorem expirePending_sound (sound : DeskSound s) (now : Time) (resolvedBy : String) :
    DeskSound (s.expirePending now resolvedBy) := by
  cases pending : s.pending with
  | false =>
    rw [expirePending_of_settled now resolvedBy pending]
    exact sound
  | true => exact sound.decide (decision_of_pending pending)

theorem expire_sound (sound : DeskSound s) (now : Time) (resolvedBy : String) :
    DeskSound ((s.expirePending now resolvedBy).setCancel k (.settling s.pending)) := by
  have expired := expirePending_sound sound now resolvedBy
  refine ⟨expired.confirms, expired.resolves, ?_⟩
  intro told
  cases pending : s.pending with
  | true => exact expirePending_of_pending now resolvedBy pending
  | false =>
    rw [pending] at told
    rcases List.mem_or_eq_of_mem_set told with old | wrong
    · exact expired.cancelled old
    · cases wrong

theorem desk_step_sound (sound : DeskSound s) (timely : act.Timely s)
    (taken : s.step act = some t) : DeskSound t := by
  cases desk_taken taken with
  | configure settings => exact ⟨sound.confirms, sound.resolves, sound.cancelled⟩
  | confirm call reason =>
    exact ⟨Parties.forall_append sound.confirms ⟨nofun, nofun, nofun⟩, sound.resolves,
      sound.cancelled⟩
  | request found phase => exact request_sound sound found
  | insert now approvalId found phase => exact insert_sound sound found now approvalId
  | @register i confirm created found phase =>
    unfold ApprovalDesk.register
    split
    · exact sound.goTo found nofun nofun
    · have checking := @DeskSound.goTo s i confirm (.checking created) sound found nofun nofun
      exact ⟨checking.confirms, checking.resolves, checking.cancelled⟩
  | check found phase stored =>
    refine sound.goTo found nofun ?_
    intro created state checked settled
    cases checked
    exact decision_of_stored stored settled
  | missing found phase nothing | failed found phase call raised =>
    exact sound.finish found nofun nofun
  | settle found phase => exact settle_sound sound found phase
  | review review found phase => exact review_sound sound found review
  | notified found phase => exact notified_sound sound found
  | resolved found phase call done =>
    refine sound.finish found ?_ nofun
    intro approved returned
    cases returned
    exact (sound.resolves _ (List.mem_of_getElem? call)).done _ done
  | wake found phase future =>
    refine sound.finish found ?_ nofun
    intro approved returned
    cases returned
    exact (sound.confirms _ (List.mem_of_getElem? found)).future _ future
  | resolve approved resolvedBy =>
    exact ⟨sound.confirms, Parties.forall_append sound.resolves ⟨nofun, nofun⟩, sound.cancelled⟩
  | read call phase => exact resolveRead_sound sound
  | write now call phase => exact resolveWrite_sound sound now timely
  | set call phase => exact settleResolve_sound sound call phase
  | cancelTurn =>
    refine ⟨sound.confirms, sound.resolves, ?_⟩
    intro told
    rcases List.mem_concat.mp told with old | wrong
    · exact sound.cancelled old
    · cases wrong
  | list call =>
    refine ⟨sound.confirms, sound.resolves, ?_⟩
    intro told
    rcases List.mem_or_eq_of_mem_set told with old | wrong
    · exact sound.cancelled old
    · cases wrong
  | @expire k listed now call =>
    change s.cancels[k]? = some (.expiring s.pending) at timely
    rw [call] at timely
    cases timely
    exact expire_sound sound now "turn_cancelled"
  | @setExpired k listed call =>
    cases listed with
    | true =>
      have set := sound.setResult (sound.cancelled (List.mem_of_getElem? call))
      refine ⟨set.confirms, set.resolves, ?_⟩
      intro told
      rcases List.mem_or_eq_of_mem_set told with old | wrong
      · exact set.cancelled old
      · cases wrong
    | false =>
      refine ⟨sound.confirms, sound.resolves, ?_⟩
      intro told
      rcases List.mem_or_eq_of_mem_set told with old | wrong
      · exact sound.cancelled old
      · cases wrong
  | turnFinished now resolvedBy => exact expirePending_sound sound now resolvedBy

theorem timely_keeps (timely : act.Timely s) (taken : s.step act = some t) : s.KeepsDecision t := by
  by_cases writes : ∃ k now, act = .write k now
  · obtain ⟨k, now, rfl⟩ := writes
    intro row stored settled
    obtain ⟨other, stored', pending⟩ := pending_iff.mp timely
    rw [stored] at stored'
    cases stored'
    exact absurd pending settled
  · exact desk_step_keeps taken (fun k now same => writes ⟨k, now, same⟩)

end Sound

section Runs

variable {turnId stepId : String} {approval : Option ChatApprovalRow} {acts : List DeskAct}

theorem initial_live : DeskLive (.initial turnId stepId approval) := ⟨nofun, nofun, nofun⟩

theorem initial_sound : DeskSound (.initial turnId stepId approval) := ⟨nofun, nofun, nofun⟩

/-- Along a run of timely steps one decision is recorded, every `confirm` that returns does so
with it, and none waits once it is there. -/
theorem confirmations_agree
    (timely : ∀ taken ∈ accepted ApprovalDesk.step (.initial turnId stepId approval) acts,
      taken.2.Timely taken.1) :
    (trace ApprovalDesk.step (.initial turnId stepId approval) acts).Pairwise
        ApprovalDesk.KeepsDecision ∧
      ∀ s ∈ trace ApprovalDesk.step (.initial turnId stepId approval) acts,
        s.Agrees ∧ (s.decision ≠ none → s.Answers) := by
  have kept : ∀ s act t, (DeskSound s ∧ DeskLive s) → DeskAct.Timely s act →
      ApprovalDesk.step s act = some t → DeskSound t ∧ DeskLive t := by
    rintro s act t ⟨sound, live⟩ timely taken
    exact ⟨desk_step_sound sound timely taken, desk_step_live live timely.wakes taken⟩
  refine ⟨?_, ?_⟩
  · exact Transition.trace_pairwise_of_clean keepsDecision_refl
      (fun _ _ _ => keepsDecision_trans) (fun _ _ _ => timely_keeps) timely
  · intro s reached
    obtain ⟨sound, live⟩ := Transition.trace_safe_of_clean kept ⟨initial_sound, initial_live⟩
      timely s reached
    exact ⟨fun confirm member => (sound.confirms confirm member).returned, decided_answers live⟩

def askedAndWaiting : List DeskAct :=
  [.confirm { callId := "c", name := "send", arguments := .emptyObject } "write:high", .request 0,
    .insert 0 0 "a", .register 0, .check 0, .settle 0, .notified 0]

/-- It is approved, and the call returns. -/
def approvedRun : List DeskAct :=
  askedAndWaiting ++ [.resolve true "user", .read 0, .write 0 1, .set 0, .wake 0]

theorem confirmations_agree_sample :
    (final ApprovalDesk.step (.initial "t" "s" none) approvedRun).decision = some true ∧
      ∀ s ∈ trace ApprovalDesk.step (.initial "t" "s" none) approvedRun,
        s.Agrees ∧ (s.decision ≠ none → s.Answers) :=
  ⟨by decide, (confirmations_agree (by decide)).2⟩

/-- Two clients read the approval as pending; the one rejects it after the other has approved. -/
def conflictingRun : List DeskAct :=
  askedAndWaiting ++ [.resolve true "user", .resolve false "other", .read 0, .read 1, .write 0 1,
    .set 0, .wake 0, .write 1 2]

/-- The turn finishes, and its approval expires with nobody told. -/
def finishedBehindRun : List DeskAct := askedAndWaiting ++ [.turnFinished 1 "turn_finished"]

theorem conflicting_resolves_disagree :
    (¬ ∀ s ∈ trace ApprovalDesk.step (.initial "t" "s" none) conflictingRun, s.Agrees) ∧
      ¬ ∀ s ∈ trace ApprovalDesk.step (.initial "t" "s" none) finishedBehindRun,
        s.decision ≠ none → s.Answers := by
  refine ⟨?_, ?_⟩
  · intro agrees
    have last := agrees _ (Transition.mem_trace_final _ _)
    have told := last _ (List.mem_of_getElem? (i := 0) rfl) true rfl
    exact absurd told (by decide)
  · intro answers
    have decided : (final ApprovalDesk.step (.initial "t" "s" none) finishedBehindRun).decision ≠
        none := by decide
    obtain ⟨-, isOver | moves⟩ := answers _ (Transition.mem_trace_final _ _) decided [] nofun
    · exact absurd (isOver _ (List.mem_of_getElem? (i := 0) rfl)) (by decide)
    · obtain ⟨act, unaided, moves⟩ := moves
      rw [stranded rfl rfl rfl rfl rfl (Bool.and_eq_true_iff.mp unaided).1] at moves
      cases moves

end Runs

end Knoa.Conversation
