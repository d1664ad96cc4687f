import Knoa.Tasks.HandoffResolve
import Mathlib.Algebra.GroupWithZero.Nat

/-!
# A decision reaches the call that waits for it

Every step of `confirm` and of the `resolve` that holds the lock lowers a measure, and
none is left to take only once the call has its answer.
-/
namespace Knoa.Tasks
open Relational Transition

section Returning

def CallPhase.rank : CallPhase → Nat
  | .admitted => 8
  | .requested .. => 7
  | .reviewing .. => 6
  | .publishing .. => 5
  | .waiting _ => 4
  | .deciding .. => 3
  | .failing _ => 2
  | .unwinding .. => 1
  | _ => 0

/-- The steps of the `resolve` a call still has to make. -/
def CallPhase.owes (lock : Option Resolving) : CallPhase → Nat
  | .deciding .. | .failing _ => if lock.any (fun r => r.caller == some 0) then 0 else 3
  | _ => 0

def Core.lockRank (s : Core) : Nat :=
  match s.lock with
  | none => 0
  | some r => if r.written = none then 2 else 1

/-- How many steps `confirm` and the `resolve` that holds the lock can still take. -/
def Core.remaining (s : Core) : Nat :=
  s.lockRank + (s.calls.map (fun call => 4 * call.phase.rank + call.phase.owes s.lock)).sum

variable {env : Env} {start : Store} {target : String} {s t : Core} {call : ToolCall}

theorem remaining_single (single : s.calls = [call]) :
    s.remaining = s.lockRank + (4 * call.phase.rank + call.phase.owes s.lock) := by
  unfold Core.remaining
  rw [single]
  simp

theorem owes_le (lock : Option Resolving) (phase : CallPhase) : phase.owes lock ≤ 3 := by
  unfold CallPhase.owes
  split
  · split <;> decide
  · split <;> decide
  · decide

theorem lockRank_le (s : Core) : s.lockRank ≤ 2 := by
  unfold Core.lockRank
  split
  · decide
  · split <;> decide

theorem rank_le (phase : CallPhase) : phase.rank ≤ 8 := by
  cases phase <;> simp [CallPhase.rank]

theorem remaining_le (single : s.calls = [call]) : s.remaining ≤ 37 := by
  have lock := lockRank_le s
  have rank := rank_le call.phase
  have owes := owes_le s.lock call.phase
  rw [remaining_single single]
  omega

variable {call' : ToolCall}

theorem remaining_advance (single : s.calls = [call]) (single' : t.calls = [call'])
    (lock : t.lock = s.lock) (later : call'.phase.rank < call.phase.rank) :
    t.calls.length = 1 ∧ t.remaining < s.remaining := by
  refine ⟨by rw [single']; rfl, ?_⟩
  have owes := owes_le t.lock call'.phase
  rw [remaining_single single, remaining_single single', Core.lockRank, Core.lockRank, lock]
  rw [lock] at owes
  omega

/-- What the end of a `resolve` makes of the call. -/
structure Ends (caller : Option Nat) (call call' : ToolCall) : Prop where
  mine : caller = some 0 → call'.phase.rank < call.phase.rank ∨
    call.phase.owes none = 0 ∧ call'.phase = call.phase
  others : caller ≠ some 0 → call'.phase = call.phase

theorem Ends.client (call : ToolCall) (future : CallFuture) :
    Ends none call { call with future } where
  mine wrong := by cases wrong
  others _ := rfl

theorem Ends.moved {c : Nat} (zero : c = 0) (later : call'.phase.rank < call.phase.rank) :
    Ends (some c) call call' where
  mine _ := Or.inl later
  others wrong := absurd (congrArg some zero) wrong

section
variable (single : s.calls = [call])
include single

theorem Ends.idle {c : Nat} (future : CallFuture)
    (undecided : ∀ approval review, s.phaseOf c ≠ some (.deciding approval review))
    (calm : ∀ approval, s.phaseOf c ≠ some (.failing approval)) :
    Ends (some c) call { call with future } where
  mine mine := by
    refine Or.inr ⟨?_, rfl⟩
    have stands : s.phaseOf c = some call.phase := by
      rw [Option.some.inj mine, Core.phaseOf, single]
      rfl
    rw [stands] at undecided calm
    cases phase : call.phase with
    | deciding approval review => exact absurd (congrArg some phase) (undecided approval review)
    | failing approval => exact absurd (congrArg some phase) (calm approval)
    | _ => rfl
  others _ := rfl

theorem resolveRaised_ends (caller : Option Nat) :
    ∃ call', (s.resolveRaised caller).calls = [call'] ∧ Ends caller call call' := by
  unfold Core.resolveRaised
  split
  · exact ⟨call, single, .client call call.future⟩
  · split
    · rename_i approval review stands
      obtain ⟨rfl, phase⟩ := Core.phaseOf_single single stands
      refine ⟨_, Core.setCall_single single _, .moved rfl ?_⟩
      rw [phase]
      split <;> simp [CallPhase.rank]
    · rename_i approval stands
      obtain ⟨rfl, phase⟩ := Core.phaseOf_single single stands
      refine ⟨_, Core.setCall_single single _, .moved rfl ?_⟩
      rw [phase]
      simp [CallPhase.rank]
    · rename_i undecided calm
      exact ⟨call, single, .idle single call.future undecided calm⟩

theorem exited_ends (r : Resolving) (approval : TaskApprovalRecord) (changed : Bool) :
    ∃ call', (s.exited r approval changed).calls = [call'] ∧ Ends r.caller call call' := by
  obtain ⟨future, awake⟩ := Core.settled_single (Core.settled_woken r changed) single
  replace awake : (s.woken r changed).unlocked.calls = [{ call with future }] := awake
  unfold Core.exited
  split
  · rename_i client
    rw [client]
    exact ⟨_, awake, .client call future⟩
  · rename_i c mine
    rw [mine]
    split
    · rename_i own review stands
      obtain ⟨rfl, phase⟩ := Core.phaseOf_single single stands
      refine ⟨_, Core.setCall_single awake _, .moved rfl ?_⟩
      rw [phase]
      simp [CallPhase.rank]
    · rename_i own stands
      obtain ⟨rfl, phase⟩ := Core.phaseOf_single single stands
      refine ⟨_, Core.setCall_single awake _, .moved rfl ?_⟩
      rw [phase]
      simp [CallPhase.rank]
    · rename_i undecided calm
      exact ⟨_, awake, .idle single future undecided calm⟩

theorem remaining_unlocked {r : Resolving} (single' : t.calls = [call'])
    (held : s.lock = some r) (free : t.lock = none) (ends : Ends r.caller call call') :
    t.calls.length = 1 ∧ t.remaining < s.remaining := by
  refine ⟨by rw [single']; rfl, ?_⟩
  have rank : 1 ≤ s.lockRank := by
    unfold Core.lockRank
    rw [held]
    dsimp only
    split <;> decide
  have done : t.lockRank = 0 := by
    unfold Core.lockRank
    rw [free]
  have owes := owes_le none call'.phase
  rw [remaining_single single, remaining_single single', done, free, held]
  by_cases caller : r.caller = some 0
  · rcases ends.mine caller with later | ⟨nothing, same⟩
    · omega
    · rw [same, nothing]
      omega
  · have apart : (some r).any (fun r => r.caller == some 0) = false := by simp [caller]
    have same : call.phase.owes (some r) = call.phase.owes none := by
      unfold CallPhase.owes
      rw [apart]
      rfl
    rw [ends.others caller, same]
    omega

theorem remaining_locked {principalId approvalId resolvedBy : String} {approved : Bool}
    (free : s.lock = none) (owes : call.phase.owes none = 3) :
    (s.locked (some 0) principalId approvalId approved resolvedBy).calls.length = 1 ∧
      (s.locked (some 0) principalId approvalId approved resolvedBy).remaining < s.remaining := by
  refine ⟨by rw [show (s.locked _ _ _ _ _).calls = [call] from single]; rfl, ?_⟩
  have busy : (s.locked (some 0) principalId approvalId approved resolvedBy).lockRank = 2 := rfl
  have idle : s.lockRank = 0 := by
    unfold Core.lockRank
    rw [free]
  have nothing : call.phase.owes
      (s.locked (some 0) principalId approvalId approved resolvedBy).lock = 0 := by
    unfold CallPhase.owes
    split <;> rfl
  rw [remaining_single single, remaining_single (s := s.locked _ _ _ _ _) single, busy, idle, nothing,
    free, owes]
  omega

end

/-- Every step of `confirm` and of the `resolve` that holds the lock brings both
closer to their ends. -/
theorem goesOn_lowers {act : Act} (one : s.calls.length = 1) (goes : act.goesOn)
    (taken : s.step env act = some t) : t.calls.length = 1 ∧ t.remaining < s.remaining := by
  obtain ⟨call, single⟩ := List.length_eq_one_iff.mp one
  have here : ∀ {c : Nat} {call' : ToolCall}, c = 0 → s.calls[c]? = some call' → call = call' := by
    rintro c call' rfl found
    rw [single] at found
    exact Option.some.inj found
  have happened := Core.happens taken
  cases happened with
  | @requested _ _ _ _ _ _ _ store found phase | @reviewed _ _ _ _ _ _ _ _ store found phase =>
    cases here goes found
    cases goes
    exact remaining_advance single (Core.setCall_single (s := s.withStore store) single _) rfl
      (by simp [phase, CallPhase.rank])
  | @answered _ _ _ _ _ _ _ store found phase =>
    cases here goes found
    cases goes
    refine remaining_advance single (Core.setCall_single (s := s.withStore store) single _) rfl ?_
    rw [phase]
    dsimp only
    split <;> decide
  | registerTwice found phase | unreviewed found phase | publish found phase
  | publishReviewed found phase | wake found phase =>
    cases here goes found
    cases goes
    exact remaining_advance single (Core.setCall_single single _) rfl (by simp [phase, CallPhase.rank])
  | @register _ _ approval created found phase =>
    cases here goes found
    cases goes
    exact remaining_advance single
      (Core.setCall_single (s := s.listed ⟨approval.approvalId, call.runId, 0⟩) single _) rfl
      (by simp [phase, CallPhase.rank])
  | wakeCancelled found phase =>
    cases here goes found
    cases goes
    refine remaining_advance single (Core.setCall_single single _) rfl ?_
    rw [phase]
    split <;> simp [CallPhase.rank]
  | @release _ _ approval _ found phase =>
    cases here goes found
    cases goes
    refine remaining_advance single
      (Core.setCall_single (s := s.forget 0 approval.approvalId) single _) rfl ?_
    rw [phase]
    split <;> simp [CallPhase.rank]
  | @releaseRaised _ _ approval found phase =>
    cases here goes found
    cases goes
    exact remaining_advance single
      (Core.setCall_single (s := s.forget 0 approval.approvalId) single _) rfl
      (by simp [phase, CallPhase.rank])
  | resolveReview found phase free | resolveFailed found phase free =>
    cases here goes found
    cases goes
    exact remaining_locked single free (by rw [phase]; rfl)
  | @write now r approval event changed store held unwritten returned =>
    refine ⟨one, ?_⟩
    change (s.wrote store r approval changed).remaining < s.remaining
    have fewer : (s.wrote store r approval changed).lockRank = 1 := rfl
    have rank : s.lockRank = 2 := by
      unfold Core.lockRank
      rw [held]
      dsimp only
      rw [if_pos unwritten]
    have owes : call.phase.owes (s.wrote store r approval changed).lock =
        call.phase.owes (some r) := rfl
    rw [remaining_single single, remaining_single (s := s.wrote store r approval changed) single,
      fewer, rank, owes, held]
    omega
  | @writeRefused now r held =>
    obtain ⟨call', single', ends⟩ := resolveRaised_ends (s := s.unlocked) single r.caller
    refine remaining_unlocked single single' held ?_ ends
    rcases Core.resolveRaised_eq (s := s.unlocked) r.caller with same | ⟨c, phase, set⟩
    · rw [same]
      rfl
    · rw [set]
      rfl
  | @resolveReturn r approval changed held =>
    obtain ⟨call', single', ends⟩ := exited_ends single r approval changed
    refine remaining_unlocked single single' held ?_ ends
    rcases Core.exited_eq (s := s) r approval changed with same | ⟨c, phase, set⟩
    · rw [same]
      rfl
    · rw [set]
      rfl
  | _ => cases goes

theorem goesOn_bounded (single : s.calls = [call]) {later : List Act}
    (goes : ∀ act ∈ later, act.goesOn) : (accepted (Core.step env) s later).length ≤ 37 := by
  have lowers : ∀ s act t, s.calls.length = 1 → act.goesOn → Core.step env s act = some t →
      t.calls.length = 1 ∧ t.remaining < s.remaining :=
    fun _ _ _ one goes taken => goesOn_lowers one goes taken
  have one : s.calls.length = 1 := by rw [single]; rfl
  exact (Transition.accepted_length_le lowers one goes).trans (remaining_le single)

variable (env) in
theorem resolve_goesOn {r : Resolving} (held : s.lock = some r) :
    ∃ act : Act, act.goesOn ∧ s.step env act ≠ none := by
  cases written : r.written with
  | none =>
    refine ⟨.resolveWrite 0, True.intro, ?_⟩
    simp only [Core.step, Core.resolveWrite, held, written, if_true]
    split <;> simp
  | some result =>
    refine ⟨.resolveReturn, True.intro, ?_⟩
    simp [Core.step, Core.resolveReturn, held, written]

variable (env) in
theorem Handed.goes_on (h : Handed start target s call) (single : s.calls = [call])
    (free : s.lock = none) (inside : call.phase.approval.isSome = true) {approved : Bool}
    (decided : Decided s.store target approved) :
    ∃ act : Act, act.goesOn ∧ s.step env act ≠ none := by
  cases phase : call.phase with
  | requested approval created => exact absurd decided (h.requested approval created phase approved)
  | reviewing approval created =>
    refine ⟨.review 0 none, rfl, ?_⟩
    simp [Core.step, Core.withCall, single, Core.review, phase]
  | publishing approval review =>
    refine ⟨.publish 0, rfl, ?_⟩
    cases review <;> simp [Core.step, Core.withCall, single, Core.publish, phase]
  | waiting approval =>
    have listed : call.phase.listed = true := by rw [phase]; rfl
    refine ⟨.wake 0, rfl, ?_⟩
    cases future : call.future with
    | pending =>
      obtain ⟨r, -, held, -⟩ := h.woken listed future approved decided
      rw [free] at held
      cases held
    | cancelled => exact absurd future (h.future listed).1
    | result value => simp [Core.step, Core.withCall, single, Core.wake, phase, future]
  | deciding approval review =>
    refine ⟨.resolveWithin 0, rfl, ?_⟩
    simp [Core.step, Core.withCall, single, Core.resolveWithin, phase, Core.acquire, free]
  | failing approval => exact absurd phase (h.calm approval)
  | unwinding approval answer =>
    refine ⟨.release 0, rfl, ?_⟩
    cases answer <;> simp [Core.step, Core.withCall, single, Core.release, phase, free]
  | _ =>
    rw [phase] at inside
    cases inside

theorem Confirming.noLostDecision (h : Confirming start target s call) :
    NoLostDecision env start target s := by
  have mine : ∀ call' ∈ s.calls, call'.approvalId = some target →
      call' = call ∧ call.phase ≠ .admitted ∧ Handed start target s call := by
    intro call' member names
    rw [h.single, List.mem_singleton] at member
    subst member
    refine ⟨rfl, ?_, h.handed ?_⟩
    · intro phase
      rw [h.asked phase] at names
      cases names
    · intro approvalId same
      rw [names] at same
      exact (Option.some.inj same).symm
  refine ⟨?_, ?_, ?_, ?_, fun later goes => goesOn_bounded h.single goes⟩
  · intro call' member names _ row listed owner queued
    obtain ⟨rfl, -, handed⟩ := mine call' member names
    rcases handed.task with at_ | at_
    · have state := at_.row listed owner
      rw [queued] at state
      cases state
    · have state := at_.row listed owner
      rw [queued] at state
      cases state
  · intro call' member names approved decided
    obtain ⟨rfl, entered, handed⟩ := mine call' member names
    exact handed.resumed entered approved decided
  · intro call' member names approved answer
    obtain ⟨rfl, -, handed⟩ := mine call' member names
    exact handed.answer approved answer
  · intro call' member names approved decided quiet
    obtain ⟨rfl, entered, handed⟩ := mine call' member names
    have free : s.lock = none := by
      cases held : s.lock with
      | none => rfl
      | some r =>
        obtain ⟨act, goes, moves⟩ := resolve_goesOn env held
        exact absurd (quiet act goes) moves
    cases outside : call'.phase.approval with
    | none =>
      obtain ⟨value, answer⟩ := handed.isOver entered outside
      rw [answer, (handed.answer value answer).unique decided]
    | some approval =>
      obtain ⟨act, goes, moves⟩ := handed.goes_on env h.single free (by rw [outside]; rfl) decided
      exact absurd (quiet act goes) moves

end Returning

theorem initial_confirming {store : Store} (sound : Sound store) (normal : NormalApprovals store)
    {settings : ReviewSettings} {principalId runId : String} {proposal : ProposedToolCall}
    {effect risk target : String}
    (running : ∃ row ∈ store.tasks.rows, row.taskId = strip runId ∧ row.state = .running) :
    ∃ call, Confirming store target (confirming store settings principalId runId proposal effect risk)
      call := by
  refine ⟨_, sound, normal, rfl, fun _ => rfl, ?_, ?_⟩
  · intro approval wrong
    cases wrong
  intro _
  obtain ⟨row, member, names, state⟩ := running
  obtain ⟨v, seen, rfl⟩ := view_of_mem member
  rw [names] at seen
  have stands : TaskAt store store (strip runId) .running := ⟨v, v, seen, seen, state, rfl, rfl⟩
  refine ⟨Or.inl stands, fun _ => stands, fun wrong => absurd rfl wrong, fun wrong => absurd rfl wrong,
    rfl, ?_, ?_, ?_, ?_, ?_, ?_, ?_, fun wrong => absurd rfl wrong⟩
  · intro r wrong
    cases wrong
  · intro approval created wrong
    cases wrong
  · intro wrong
    cases wrong
  · intro wrong
    cases wrong
  · intro approval wrong
    cases wrong
  · intro approval answer wrong
    cases wrong
  · intro approved wrong
    cases wrong

/-- Wherever a `confirm` starts in a running Task, and however it interleaves with
clients that resolve its approval, a decision recorded for the live call reaches
it, unless it is recorded before the waiter is listed. -/
theorem no_lost_decision (env : Env) (sessions : Table SessionRow.sessionHandle)
    (definitions : Table DefinitionRow.taskId) (executions : Table ExecutionRow.executionId)
    (before : List Op) {store : Store}
    (reached : store = final (step env) (Store.initial sessions definitions executions) before)
    (settings : ReviewSettings) (principalId runId : String) (proposal : ProposedToolCall)
    (effect risk target : String) (acts : List Act)
    (running : ∃ row ∈ store.tasks.rows, row.taskId = strip runId ∧ row.state = .running)
    (interleaved : ∀ act ∈ acts, act.handsOff target) (clean : ∀ taken ∈ accepted (Core.step env)
        (confirming store settings principalId runId proposal effect risk) acts,
      HandsOver env taken.1 taken.2) : ∀ s ∈ trace (Core.step env)
        (confirming store settings principalId runId proposal effect risk) acts,
      NoLostDecision env store target s := by
  intro s member
  have reachable : Sound store ∧ NormalApprovals store := by
    have kept : ∀ s op s', Sound s ∧ NormalApprovals s → step env s op = some s' →
        Sound s' ∧ NormalApprovals s' := fun _ _ _ inv taken =>
      ⟨inv.1.kept taken, (step_refines inv.1.rooted taken).normalApprovals inv.1.rooted inv.2⟩
    rw [reached]
    refine Transition.final_invariant kept ⟨initial_sound sessions definitions executions, ?_⟩ before
    intro row wrong
    cases wrong
  have kept : ∀ s act t, (∃ call, Confirming store target s call) →
      act.handsOff target ∧ HandsOver env s act → Core.step env s act = some t →
      ∃ call, Confirming store target t call :=
    fun _ _ _ ⟨_, along⟩ allowed taken => along.kept allowed.1 allowed.2 taken
  have start : ∃ call, Confirming store target
      (confirming store settings principalId runId proposal effect risk) call :=
    initial_confirming reachable.1 reachable.2 running
  obtain ⟨call, along⟩ := Transition.trace_safe_of_clean kept start
    (fun taken accepted => ⟨interleaved _ (Transition.mem_accepted accepted), clean taken accepted⟩)
    s member
  exact along.noLostDecision

instance (env : Env) (s : Core) (act : Act) : Decidable (HandsOver env s act) := by
  apply act.casesOn (motive := fun act => Decidable (HandsOver env s act)) <;> intros <;>
    dsimp only [HandsOver] <;> infer_instance

/-- The sample Task runs. -/
def sampleRunning : List Op := [sampleCreate "t", .claimNext 0 "w" 60 ""]

def sampleConfirming : Core :=
  confirming (final (step sampleEnv) sampleStore sampleRunning) {} "p" "t" (sampleProposal "c")
    "local_write" "high"

/-- A client approves while the call is on its way to its wait. -/
def resolvedWhileListed : List Act :=
  [.request 0 1 (fun _ => "a"), .register 0, .resolve "p" "a" true "", .review 0 none,
    .resolveWrite 2, .publish 0, .resolveReturn, .wake 0, .release 0]

theorem no_lost_decision_listed : Transition.Along
      (NoLostDecision sampleEnv (final (step sampleEnv) sampleStore sampleRunning) "a")
      (trace (Core.step sampleEnv) sampleConfirming resolvedWhileListed) :=
  no_lost_decision sampleEnv sampleSessions .empty .empty sampleRunning rfl {} "p" "t"
    (sampleProposal "c") "local_write" "high" "a" resolvedWhileListed (by decide +kernel)
    (by simp [resolvedWhileListed, Act.handsOff, Act.goesOn]) (by decide +kernel)

/-- A client approves between the request of the call and its listing. -/
def resolvedBeforeListed : List Act :=
  [.request 0 1 (fun _ => "a"), .resolve "p" "a" true "", .resolveWrite 2, .resolveReturn,
    .register 0, .review 0 none, .publish 0]

theorem decision_before_listing_lost :
    ¬ ∀ s ∈ trace (Core.step sampleEnv) sampleConfirming resolvedBeforeListed,
      NoLostDecision sampleEnv (final (step sampleEnv) sampleStore sampleRunning) "a" s := by
  intro along
  have last := (along _ (Transition.mem_trace_final _ _)).unqueued
  revert last
  decide +kernel

end Knoa.Tasks
