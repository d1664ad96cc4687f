import Mathlib.Data.List.Perm.Subperm
import Knoa.Tasks.CoreSteps

/-!
# How often one approval is used

The step id of a call hashes the call id, the approval id of an action does not: one approval is
answered to every later call of the action.
-/
namespace Knoa.Tasks
open Relational Transaction
open Transition (trace accepted)

def usesOf (approvalId : String) (log : List Commit) : Nat :=
  log.countP (fun entry => entry.approvalId == some approvalId)

/-- An approval lets one step enter COMMITTING, and the registry run once. -/
def UsedOnce (s : Core) : Prop :=
  ∀ approvalId, usesOf approvalId s.commits ≤ 1 ∧ usesOf approvalId s.executions ≤ 1

def RepeatsStep (env : Env) (s : Core) : Act → Prop
  | .beginCommit c _ =>
    ∀ call approvalId, s.calls[c]? = some call → call.approvalId = some approvalId →
      usesOf approvalId s.commits ≠ 0 →
        ∃ row ∈ s.store.steps.rows, row.toolStepId = strip (call.stepId env)
  | _ => True

/-- The registry has run the call, or never will. -/
def CallPhase.late : CallPhase → Bool
  | .ran .. | .ended _ => true
  | _ => false

structure Follows (call call' : ToolCall) : Prop where
  runId : call'.runId = call.runId
  proposal : call'.proposal = call.proposal
  late : call.phase.late = true → call'.phase.late = true
  committing : call'.phase = .committing →
    call.phase = .committing ∧ call'.approvalId = call.approvalId

namespace Follows

variable {call : ToolCall}

theorem refl (call : ToolCall) : Follows call call := ⟨rfl, rfl, id, fun h => ⟨h, rfl⟩⟩

theorem moved {call' : ToolCall} (runId : call'.runId = call.runId)
    (proposal : call'.proposal = call.proposal)
    (late : call.phase.late = false ∨ call'.phase.late = true)
    (notCommitting : call'.phase ≠ .committing) : Follows call call' where
  runId := runId
  proposal := proposal
  late old := late.resolve_left (by rw [old]; decide)
  committing now := absurd now notCommitting

theorem of_settled {call' : ToolCall} {future : CallFuture}
    (h : Follows (call.settled future) call') : Follows call call' := by
  unfold ToolCall.settled at h
  split at h
  · exact ⟨h.runId, h.proposal, h.late, h.committing⟩
  · exact h

end Follows

/-- Every call of the later state is a new one or follows its former self. -/
def CallsFollow (s s' : Core) : Prop :=
  ∀ (c : Nat) (call' : ToolCall), s'.calls[c]? = some call' →
    (s.calls[c]? = none ∧ call'.phase = .admitted) ∨
      ∃ call, s.calls[c]? = some call ∧ Follows call call'

variable {s s' : Core}

theorem callsFollow_same (same : s'.calls = s.calls) : CallsFollow s s' := by
  intro c call' found
  rw [same] at found
  exact Or.inr ⟨call', found, .refl call'⟩

variable {c : Nat}

theorem callsFollow_setCall {f : ToolCall → ToolCall} (calls : s'.calls = (s.setCall c f).calls)
    (follows : ∀ call, s.calls[c]? = some call → Follows call (f call)) : CallsFollow s s' := by
  intro c' call' found
  rw [calls] at found
  rcases Core.setCall_calls found with ⟨rfl, call, known, rfl⟩ | ⟨-, known⟩
  · exact Or.inr ⟨call, known, follows call known⟩
  · exact Or.inr ⟨call', known, .refl call'⟩

variable {call : ToolCall}

theorem callsFollow_known {f : ToolCall → ToolCall} (calls : s'.calls = s.calls.modify c f)
    (known : s.calls[c]? = some call) (follows : Follows call (f call)) : CallsFollow s s' := by
  apply callsFollow_setCall calls
  intro other found
  rw [known, Option.some.injEq] at found
  exact found ▸ follows

theorem callsFollow_settled {t : Core} (first : Core.Settled s t) (second : CallsFollow t s') :
    CallsFollow s s' := by
  intro c call' found
  rcases second c call' found with ⟨absent, fresh⟩ | ⟨call, known, follows⟩
  · refine Or.inl ⟨?_, fresh⟩
    rw [List.getElem?_eq_none_iff] at absent ⊢
    rw [← first.length]
    exact absent
  · obtain ⟨old, before, same | ⟨future, set⟩⟩ := first.calls c call known
    · exact Or.inr ⟨old, before, same ▸ follows⟩
    · rw [set] at follows
      exact Or.inr ⟨old, before, follows.of_settled⟩

variable {phase : CallPhase}

theorem callsFollow_setPhase (calls : s'.calls = (s.setPhase c phase).calls)
    (away : phase ≠ .committing)
    (late : (∀ call, s.calls[c]? = some call → call.phase.late = false) ∨ phase.late = true) :
    CallsFollow s s' := by
  apply callsFollow_setCall calls
  intro call known
  refine .moved rfl rfl ?_ away
  rcases late with early | late
  · exact Or.inl (early call known)
  · exact Or.inr late

theorem callsFollow_early (calls : s'.calls = (s.setPhase c phase).calls)
    (known : s.calls[c]? = some call) (early : call.phase.late = false)
    (away : phase ≠ .committing) :
    CallsFollow s s' := by
  apply callsFollow_setPhase calls away
  refine Or.inl ?_
  intro other found
  rw [known, Option.some.injEq] at found
  rw [← found]
  exact early

theorem callsFollow_raised {approval : TaskApprovalRecord}
    (calls : s'.calls = (s.raised c approval).calls) (known : s.calls[c]? = some call)
    (early : call.phase.late = false) : CallsFollow s s' := by
  unfold Core.raised at calls
  split at calls <;> exact callsFollow_early calls known early (by simp)

theorem callsFollow_returned {approvalId : String} {approved : Bool}
    (calls : s'.calls = (s.returned c approvalId approved).calls) (known : s.calls[c]? = some call)
    (early : call.phase.late = false) : CallsFollow s s' := by
  refine callsFollow_known calls known (.moved rfl rfl (Or.inl early) ?_)
  cases approved <;> simp

theorem callsFollow_resolving {next : CallPhase} (calls : s'.calls = (s.setPhase c next).calls)
    (stands : s.phaseOf c = some phase) (early : phase.late = false) (away : next ≠ .committing) :
    CallsFollow s s' := by
  apply callsFollow_setPhase calls away
  refine Or.inl ?_
  intro call known
  rw [Core.phaseOf, known, Option.map_some, Option.some.injEq] at stands
  rw [stands]
  exact early

theorem insideTry_early {approval : TaskApprovalRecord} (inside : call.insideTry = some approval) :
    call.phase.late = false := by
  unfold ToolCall.insideTry at inside
  split at inside
  · rename_i phase
    rw [phase]
    rfl
  · rename_i phase
    rw [phase]
    rfl
  · rename_i phase
    rw [phase]
    rfl
  · cases inside

theorem mayCommit_early (may : call.mayCommit = true) : call.phase.late = false := by
  simp only [ToolCall.mayCommit, Bool.or_eq_true, Bool.and_eq_true, beq_iff_eq] at may
  rcases may with phase | ⟨phase, -⟩
  · rw [phase]
    rfl
  · rw [phase]
    rfl

variable {env : Env}

theorem Core.Happens.callsFollow {act : Act} (h : Core.Happens env s act s')
    (quiet : s'.commits = s.commits) : CallsFollow s s' := by
  cases h with
  | repository | configureReview | resolve | resolveReview | resolveFailed | write =>
    exact callsFollow_same rfl
  | propose fresh =>
    intro c call' found
    rcases Nat.lt_or_ge c s.calls.length with old | new
    · rw [List.getElem?_append_left old] at found
      exact Or.inr ⟨call', found, .refl call'⟩
    · refine Or.inl ⟨List.getElem?_eq_none new, ?_⟩
      rw [List.getElem?_append_right new] at found
      rw [List.mem_singleton.mp (List.mem_of_getElem? found)]
      exact fresh
  | requested found phase | register found phase =>
    exact callsFollow_known rfl found (.moved rfl rfl (Or.inl (by rw [phase]; rfl)) (by simp))
  | answered found phase | release found phase =>
    exact callsFollow_returned rfl found (by rw [phase]; rfl)
  | registerTwice found phase | releaseRaised found phase | replay found may
  | execute found phase | finish found phase | leave found =>
    exact callsFollow_setPhase rfl (by simp) (Or.inr rfl)
  | unreviewed found phase | reviewed found phase | publish found phase
  | publishReviewed found phase | wake found phase | interruptFailing found phase =>
    exact callsFollow_early rfl found (by rw [phase]; rfl) (by simp)
  | wakeCancelled found phase => exact callsFollow_raised rfl found (by rw [phase]; rfl)
  | begin =>
    have longer := congrArg List.length quiet
    simp [Core.begun, Core.setPhase, Core.setCall] at longer
  | interrupt found inside => exact callsFollow_raised rfl found (insideTry_early inside)
  | @interruptWaiting c call approval found phase =>
    have settled : Core.Settled s (s.settle c .cancelled) := Core.settled_settle c .cancelled
    have stands : s.phaseOf c = some (.waiting approval) := by
      rw [Core.phaseOf, found, Option.map_some, phase]
    obtain ⟨other, known, waits⟩ := Option.map_eq_some_iff.mp (Core.phaseOf_settled settled stands)
    exact callsFollow_settled settled (callsFollow_raised rfl known (by rw [waits]; rfl))
  | writeRefused =>
    unfold Core.resolveRaised
    split
    · exact callsFollow_same rfl
    · split
      · rename_i stands
        obtain ⟨call, known, decides⟩ := Option.map_eq_some_iff.mp stands
        exact callsFollow_raised rfl known (by rw [decides]; rfl)
      · rename_i stands
        exact callsFollow_resolving rfl stands rfl (by simp)
      · exact callsFollow_same rfl
  | resolveReturn =>
    apply callsFollow_settled (Core.settled_woken _ _)
    unfold Core.exited
    split
    · exact callsFollow_same rfl
    · split
      · rename_i stands
        exact callsFollow_resolving rfl (Core.phaseOf_settled (Core.settled_woken _ _) stands) rfl
          (by simp)
      · rename_i stands
        exact callsFollow_resolving rfl (Core.phaseOf_settled (Core.settled_woken _ _) stands) rfl
          (by simp)
      · exact callsFollow_same rfl
  | cancelTask | close =>
    exact callsFollow_settled (Core.settled_dismiss _ _) (callsFollow_same rfl)
  | crash =>
    intro c call' found
    rw [Core.crash, List.getElem?_map] at found
    obtain ⟨call, known, rfl⟩ := Option.map_eq_some_iff.mp found
    exact Or.inr ⟨call, known, .moved rfl rfl (Or.inr rfl) (by simp)⟩

/-- What the logs say of the calls. -/
structure Logged (env : Env) (s : Core) : Prop where
  begun : ∀ (c : Nat) (call : ToolCall), s.calls[c]? = some call → call.phase = .committing →
    ⟨c, call.approvalId, call.stepId env⟩ ∈ s.commits
  ran : ∀ entry ∈ s.executions, entry ∈ s.commits ∧
    ∃ call : ToolCall, s.calls[entry.call]? = some call ∧ call.phase.late = true
  distinct : s.executions.Nodup

theorem initial_logged (env : Env) (store : Store) : Logged env { store := store } where
  begun c call found := by cases found
  ran entry member := by cases member
  distinct := List.nodup_nil

theorem Logged.executions_le (h : Logged env s) (approvalId : String) :
    usesOf approvalId s.executions ≤ usesOf approvalId s.commits := by
  have subset : s.executions ⊆ s.commits := fun entry member => (h.ran entry member).1
  exact (List.subperm_of_subset h.distinct subset).countP_le _

theorem usedOnce_iff (h : Logged env s) :
    UsedOnce s ↔ ∀ approvalId, usesOf approvalId s.commits ≤ 1 := by
  constructor
  · intro once approvalId
    exact (once approvalId).1
  · intro once approvalId
    have fewer := h.executions_le approvalId
    have bound := once approvalId
    omega

theorem late_persists (follow : CallsFollow s s') (length : s.calls.length ≤ s'.calls.length)
    (known : s.calls[c]? = some call) (late : call.phase.late = true) :
    ∃ call' : ToolCall, s'.calls[c]? = some call' ∧ call'.phase.late = true := by
  have inside := (List.getElem?_eq_some_iff.mp known).1
  have found := List.getElem?_eq_getElem (Nat.lt_of_lt_of_le inside length)
  rcases follow c _ found with ⟨absent, -⟩ | ⟨old, before, follows⟩
  · rw [known] at absent
    cases absent
  · rw [known] at before
    cases before
    exact ⟨_, found, follows.late late⟩

namespace Core

section Logs

variable {env : Env} {s s' : Core} {act : Act}

theorem Happens.logs (h : Happens env s act s') : (∃ c now, act = .beginCommit c now) ∨
      (∀ c now, act ≠ .beginCommit c now) ∧ s'.commits = s.commits ∧
        (s'.executions = s.executions ∨ ∃ c completed result, act = .execute c completed result) := by
  cases h with
  | begin | replay => exact Or.inl ⟨_, _, rfl⟩
  | execute => exact Or.inr ⟨by rintro _ _ ⟨⟩, rfl, Or.inr ⟨_, _, _, rfl⟩⟩
  | writeRefused =>
    have same := sameRest_resolveRaised (s := s.unlocked)
    exact Or.inr ⟨by rintro _ _ ⟨⟩, (same _).commits, Or.inl (same _).executions⟩
  | resolveReturn =>
    have same := sameRest_exited (s := s)
    exact Or.inr ⟨by rintro _ _ ⟨⟩, (same _ _ _).commits, Or.inl (same _ _ _).executions⟩
  | _ => exact Or.inr ⟨by rintro _ _ ⟨⟩, rfl, Or.inl rfl⟩

theorem Happens.length (h : Happens env s act s') : s.calls.length ≤ s'.calls.length := by
  cases h with
  | repository | configureReview | resolve | resolveReview | resolveFailed | write =>
    exact Nat.le_refl _
  | propose =>
    rw [List.length_append]
    exact Nat.le_add_right _ _
  | writeRefused => exact (sameRest_resolveRaised (s := s.unlocked) _).length.ge
  | resolveReturn => exact (sameRest_exited (s := s) _ _ _).length.ge
  | cancelTask | close => exact (settled_dismiss _ _).length.ge
  | crash => exact (List.length_map _).ge
  | interruptWaiting => exact (List.length_modify ..).ge.trans (List.length_modify ..).ge
  | _ => exact (List.length_modify ..).ge

end Logs

end Core

section Steps

variable {env : Env} {s s' : Core} {act : Act}

theorem beginToolStep_record {now : Time} {principalId taskId : String}
    {request : ToolStepRequest} {store store' : Store} {record : TaskToolStepRecord}
    {created : Bool}
    (h : commit (beginToolStep now principalId taskId request) store =
      (.ok (record, created), store')) :
    created = false ↔ ∃ row ∈ store.steps.rows, row.toolStepId = strip request.toolStepId := by
  replace h := commit_ok_iff.mp h
  obtain ⟨principal, -, task, -, stepId, normal, callId, -, h⟩ := of_bind₄ h
  obtain ⟨name, -, -, -, -, -, -, -, h⟩ := of_bind₄ h
  obtain ⟨row, -, -, -, h⟩ := of_bind₂ h
  have key := normalizeIdentifier_ok normal
  split at h
  · rename_i existing found
    obtain ⟨-, -, h⟩ := of_bind h
    cases h
    obtain ⟨member, same, -⟩ := ownedStep_some found
    exact ⟨fun _ => ⟨record, member, same.trans key⟩, fun _ => rfl⟩
  · obtain ⟨steps, inserted, h⟩ := of_bind h
    cases h
    constructor
    · nofun
    · rintro ⟨row, member, same⟩
      have fresh := Table.insert_fresh (insertRow_ok inserted).1
      rw [← key] at same
      exact absurd (List.mem_map.mpr ⟨row, member, same⟩) fresh

theorem stepId_follows {call' : ToolCall} (h : Follows call call') :
    call'.stepId env = call.stepId env := by
  unfold ToolCall.stepId
  rw [h.runId, h.proposal]

theorem Logged.quiet (h : Logged env s) (follow : CallsFollow s s')
    (length : s.calls.length ≤ s'.calls.length) (commits : s'.commits = s.commits)
    (executions : s'.executions = s.executions) : Logged env s' where
  begun c call' found committing := by
    rcases follow c call' found with ⟨-, fresh⟩ | ⟨call, known, follows⟩
    · rw [committing] at fresh
      cases fresh
    · obtain ⟨before, approval⟩ := follows.committing committing
      rw [commits, approval, stepId_follows follows]
      exact h.begun c call known before
  ran entry member := by
    rw [executions] at member
    obtain ⟨begun, call, known, late⟩ := h.ran entry member
    rw [commits]
    exact ⟨begun, late_persists follow length known late⟩
  distinct := executions ▸ h.distinct

theorem Logged.begin {store : Store} (h : Logged env s) (found : s.calls[c]? = some call)
    (may : call.mayCommit = true) :
    Logged env ((s.begun store ⟨c, call.approvalId, call.stepId env⟩).setPhase c .committing) where
  begun c' call' found' committing := by
    rcases Core.setCall_calls found' with ⟨rfl, old, known, rfl⟩ | ⟨-, known⟩
    · have same : call = old := Option.some.inj (found.symm.trans known)
      subst same
      exact List.mem_concat_self
    · exact List.mem_append_left _ (h.begun c' call' known committing)
  ran entry member := by
    obtain ⟨begun, other, known, late⟩ := h.ran entry member
    refine ⟨List.mem_append_left _ begun, other, ?_, late⟩
    have apart : c ≠ entry.call := by
      intro same
      rw [← same, found, Option.some.injEq] at known
      rw [← known, mayCommit_early may] at late
      cases late
    exact (List.getElem?_modify_ne _ _ apart).trans known
  distinct := h.distinct

theorem Logged.execute {state : TaskToolStepState} {result : JsonText} (h : Logged env s)
    (found : s.calls[c]? = some call) (phase : call.phase = .committing) :
    Logged env ((s.executed ⟨c, call.approvalId, call.stepId env⟩).setPhase c
      (.ran state result)) where
  begun c' call' found' committing := by
    rcases Core.setCall_calls found' with ⟨rfl, old, known, rfl⟩ | ⟨-, known⟩
    · cases committing
    · exact h.begun c' call' known committing
  ran entry member := by
    have here : ∀ other : ToolCall, s.calls[c]? = some other → ∃ call' : ToolCall,
        ((s.executed ⟨c, call.approvalId, call.stepId env⟩).setPhase c
          (.ran state result)).calls[c]? = some call' ∧ call'.phase.late = true := by
      intro other known
      refine ⟨{ other with phase := .ran state result }, ?_, rfl⟩
      exact (List.getElem?_modify_eq _ _ _).trans (congrArg (Option.map _) known)
    rcases List.mem_concat.mp member with old | new
    · obtain ⟨begun, other, known, late⟩ := h.ran entry old
      refine ⟨begun, ?_⟩
      by_cases same : entry.call = c
      · rw [same] at known ⊢
        exact here other known
      · exact ⟨other, (List.getElem?_modify_ne _ _ (Ne.symm same)).trans known, late⟩
    · rw [new]
      exact ⟨h.begun c call found phase, here call found⟩
  distinct := by
    apply List.Nodup.append h.distinct (List.nodup_singleton _)
    intro entry old new
    obtain ⟨-, other, known, late⟩ := h.ran entry old
    rw [List.mem_singleton.mp new, found, Option.some.injEq] at known
    rw [← known, phase] at late
    cases late

theorem Logged.kept (h : Logged env s) (taken : s.step env act = some s') : Logged env s' := by
  have step := Core.happens taken
  rcases step.logs with ⟨c, now, rfl⟩ | ⟨-, commits, executions | ⟨c, completed, result, rfl⟩⟩
  · cases step with
    | begin found may => exact h.begin found may
    | replay found may =>
      exact h.quiet (callsFollow_setPhase rfl (by simp) (Or.inr rfl))
        (List.length_modify ..).ge rfl rfl
  · exact h.quiet (step.callsFollow commits) step.length commits executions
  · cases step with
    | execute found phase => exact h.execute found phase

theorem usesOf_append (approvalId : String) (log : List Commit) (entry : Commit) :
    usesOf approvalId (log ++ [entry]) =
      usesOf approvalId log + if entry.approvalId = some approvalId then 1 else 0 := by
  simp [usesOf, List.countP_append, List.countP_singleton]

theorem usedOnce_step_iff (h : Logged env s) (once : UsedOnce s)
    (taken : s.step env act = some s') : UsedOnce s' ↔ RepeatsStep env s act := by
  have step := Core.happens taken
  rw [usedOnce_iff (h.kept taken)]
  rw [usedOnce_iff h] at once
  rcases step.logs with ⟨c, now, rfl⟩ | ⟨other, commits, -⟩
  · cases step with
    | @begin _ call _ _ store found may returned =>
      have fresh : ¬ ∃ row ∈ s.store.steps.rows, row.toolStepId = strip (call.stepId env) := by
        intro known
        exact absurd ((beginToolStep_record returned).mpr known) (by decide)
      constructor
      · intro bound other approvalId found' approval used
        have same : call = other := Option.some.inj (found.symm.trans found')
        subst same
        have longer := bound approvalId
        have grown := usesOf_append approvalId s.commits ⟨c, call.approvalId, call.stepId env⟩
        rw [if_pos approval] at grown
        have commits : usesOf approvalId (s.commits ++ [⟨c, call.approvalId, call.stepId env⟩]) ≤ 1 :=
          longer
        omega
      · intro repeats approvalId
        change usesOf approvalId (s.commits ++ [_]) ≤ 1
        rw [usesOf_append]
        split
        · rename_i approval
          have unused : usesOf approvalId s.commits = 0 := by
            by_contra used
            exact fresh (repeats call approvalId found approval used)
          omega
        · exact once approvalId
    | @replay _ call _ _ store outcome found may returned =>
      have known := (beginToolStep_record returned).mp rfl
      constructor
      · intro _ other approvalId found' _ _
        have same : call = other := Option.some.inj (found.symm.trans found')
        exact same ▸ known
      · intro _
        exact once
  · rw [commits]
    constructor
    · intro _
      cases act with
      | beginCommit c now => exact absurd rfl (other c now)
      | _ => exact True.intro
    · intro _
      exact once

end Steps

/-- In every run of a Core over any database, an approval authorises one commit and
one run of the registry exactly when every call that commits under an approval
already used repeats a step on record. -/
theorem approval_used_once_iff (env : Env) (store : Store) (acts : List Act) :
    (∀ s ∈ trace (Core.step env) { store := store } acts, UsedOnce s) ↔
      ∀ taken ∈ accepted (Core.step env) { store := store } acts,
        RepeatsStep env taken.1 taken.2 := by
  have kept : ∀ s act s', Logged env s → Core.step env s act = some s' → Logged env s' :=
    fun _ _ _ logged taken => logged.kept taken
  have exact_step : ∀ s act s', True → Logged env s → UsedOnce s →
      Core.step env s act = some s' → (UsedOnce s' ↔ RepeatsStep env s act) :=
    fun _ _ _ _ logged once taken => usedOnce_step_iff logged once taken
  have start : UsedOnce { store := store } := fun _ => ⟨Nat.zero_le _, Nat.zero_le _⟩
  exact Transition.trace_safe_iff kept exact_step (initial_logged env store) start
    (fun _ _ => True.intro)

def sampleProposal (callId : String) : ProposedToolCall := ⟨callId, "write", .emptyObject⟩

def samplePropose (callId : String) : Act :=
  .propose "p" "t" (sampleProposal callId) "local_write" "high" true

/-- An approved call commits and the process crashes before the Task ends; the
next attempt proposes the action again under a new call id. -/
def recommittedAfterCrash : List Act :=
  [.repository (sampleCreate "t"), .repository (.claimNext 0 "w" 60 ""), samplePropose "c",
    .request 0 1 (fun _ => "a"), .register 0, .review 0 none, .publish 0,
    .resolve "p" "a" true "", .resolveWrite 2, .resolveReturn, .wake 0, .release 0,
    .beginCommit 0 3, .execute 0 true .emptyObject, .finishCommit 0 4,
    .crash, .repository (.recoverInterrupted 5), .repository (.resume 6 "p" "t" "" false),
    .repository (.claimNext 7 "w" 60 ""), samplePropose "d", .request 1 8 (fun _ => "b"),
    .beginCommit 1 9, .execute 1 true .emptyObject]

theorem approval_authorises_second_commit :
    ¬ ∀ s ∈ trace (Core.step sampleEnv) { store := sampleStore } recommittedAfterCrash,
      UsedOnce s := by
  intro along
  have last := (along _ (Transition.mem_trace_final _ _) "a").2
  revert last
  decide +kernel

end Knoa.Tasks
