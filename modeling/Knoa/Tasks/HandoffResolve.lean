import Knoa.Tasks.Handoff

/-!
# Deciding an approval while its call confirms it

The decision is recorded, the waiter is woken and the lock is left, each at its own step.
-/
namespace Knoa.Tasks
open Relational Transaction

section Handed

variable {start : Store} {target : String} {s t : Core} {call : ToolCall}

theorem unlisted_cases {phase : CallPhase} (unlisted : phase.listed = false) :
    phase = .admitted ∨ (∃ approval created, phase = .requested approval created) ∨
      phase ≠ .admitted ∧ phase.approval = none := by
  cases phase with
  | admitted => exact Or.inl rfl
  | requested approval created => exact Or.inr (Or.inl ⟨approval, created, rfl⟩)
  | reviewing | publishing | waiting | deciding | failing | unwinding => cases unlisted
  | confirmed | committing | ran | ended => exact Or.inr (Or.inr ⟨by simp, rfl⟩)

variable {store : Store} {now : Time}

theorem TaskAt.resolved {store' : Store} {decision : ApprovalState} {resolvedBy taskId : String}
    {state : TaskState} {approval : ApprovalRow} {v : TaskView}
    (h : TaskAt start store taskId state) (seen : store.view taskId = some v)
    (writes : Writes taskId (resolvedView now .running decision resolvedBy approval v.row) store
      store') :
    TaskAt start store' taskId .running := by
  obtain ⟨v₀, v', first, seen', -, count, attempts⟩ := h
  rw [seen, Option.some.injEq] at seen'
  subst seen'
  refine ⟨v₀, _, first, writes.view_some seen, rfl, count, ?_⟩
  exact attempts

/-- The state after the repository took a decision. -/
def Core.wrote (s : Core) (store : Store) (r : Resolving) (approval : TaskApprovalRecord)
    (changed : Bool) : Core :=
  { s with
    store, lock := some { r with written := some (approval, changed) }, decisions := if changed then
      s.decisions ++ [⟨approval.approvalId, r.approved, s.decider r⟩] else s.decisions }

variable {env : Env} {r : Resolving} {approval : TaskApprovalRecord} {event : Option TaskEvent}
  {changed : Bool}

theorem HandedLock.wrote (h : HandedLock target s call r)
    (returned : resolveApproval env now r.principalId r.approvalId r.approved r.resumeState
      r.resolvedBy s.store = .ok ((approval, event, changed), store)) :
    HandedLock target (s.wrote store r approval changed) call
      { r with written := some (approval, changed) } where
  names := h.names
  waiter := h.waiter
  caller := h.caller
  written approval' changed' same := by
    cases same
    obtain ⟨member, named, decided, state⟩ := resolveApproval_known returned
    rw [h.names] at named
    refine ⟨⟨approval, member, named, decided, rfl⟩, ?_⟩
    intro change
    refine ⟨approval, member, named, decided, ?_⟩
    rw [state change]
    cases r.approved <;> rfl

/-- The repository takes a decision: the waiter it will wake is in the map, or the
decision is an old one. -/
theorem Handed.wrote (h : Handed start target s call) (rooted : Rooted s.store)
    (held : s.lock = some r) (unwritten : r.written = none)
    (returned : resolveApproval env now r.principalId r.approvalId r.approved r.resumeState
      r.resolvedBy s.store = .ok ((approval, event, changed), store))
    (taken : Tasks.step env s.store
      (.resolveApproval now r.principalId r.approvalId r.approved r.resumeState r.resolvedBy) =
      some store)
    (clear : ∀ mine created, call.phase = .requested mine created → r.approvalId ≠ target) :
    Handed start target (s.wrote store r approval changed) call := by
  have lock := h.lock r held
  have locked : ∀ r', (s.wrote store r approval changed).lock = some r' →
      HandedLock target (s.wrote store r approval changed) call r' := by
    intro r' held'
    cases held'
    exact lock.wrote returned
  have waits : call.phase.listed = true → call.future = .pending →
      ∀ approved, ¬ Decided s.store target approved := by
    intro listed unset approved decided
    obtain ⟨r', _, held', written⟩ := h.woken listed unset approved decided
    rw [held, Option.some.injEq] at held'
    rw [held', written] at unwritten
    cases unwritten
  obtain ⟨old, member, named, ⟨-, same, rfl⟩ | ⟨pending, change, -, -, v, seen, waiting, -, writes⟩⟩ :=
    resolveApproval_effect returned
  · cases same
    refine ⟨h.task, h.early, h.known, h.resumed, h.waiters, locked, h.requested, h.future, ?_, h.calm,
      h.unwinding, h.answer, h.isOver⟩
    intro listed unset approved decided
    exact absurd decided (waits listed unset approved)
  replace change : changed = true := change
  have refines := step_refines rooted taken
  have keeps : ∀ approved, Decided s.store target approved → Decided store target approved :=
    fun _ decided => decided.kept rooted refines
  rw [lock.names] at named
  have undecided : call.phase ≠ .admitted → ∀ approved, ¬ Decided s.store target approved := by
    intro entered approved decided
    rw [(h.known entered).1] at named
    exact decided.not_pending member named pending
  cases listed : call.phase.listed with
  | true =>
    have entered := listed_entered listed
    obtain ⟨normal, row, member', names', owner⟩ := h.known entered
    have mine : old.taskId = strip call.runId := by
      rw [approval_unique member member' (named.trans (normal.trans names'.symm))]
      exact owner
    have live : r.resumeState = .running := by
      unfold Resolving.resumeState
      rw [lock.waiter, listed]
      rfl
    rw [live, mine] at writes
    rw [mine] at seen
    have running : TaskAt start store (strip call.runId) .running := by
      rcases h.task with at_ | at_ <;> exact at_.resolved seen writes
    obtain ⟨row'', member'', carried⟩ := refines.approval_kept rooted member'
    refine ⟨Or.inl running, fun _ => running, fun _ => ⟨normal, row'', member'',
      carried.approvalId.trans names', carried.taskId.trans owner⟩, fun _ _ _ => running, h.waiters,
      locked, ?_, ?_, ?_, h.calm, ?_, fun approved answer => keeps approved (h.answer approved answer),
      h.isOver⟩
    · intro approval created wrong
      rw [wrong] at listed
      cases listed
    · intro _
      exact ⟨(h.future listed).1, fun approved set => keeps approved ((h.future listed).2 approved set)⟩
    · intro _ _ _ _
      exact ⟨_, approval, rfl, by rw [change]⟩
    · intro mine' answer phase
      obtain ⟨approved, same, decided⟩ := h.unwinding mine' answer phase
      exact ⟨approved, same, keeps approved decided⟩
  | false =>
    rcases unlisted_cases listed with early | ⟨mine', created, phase⟩ | ⟨entered, outside⟩
    · have running := h.early early
      have apart : strip call.runId ≠ old.taskId := by
        intro same
        rw [← same] at seen
        rw [running.here seen] at waiting
        cases waiting
      have stands : TaskAt start store (strip call.runId) .running := by
        obtain ⟨v₀, v', first, seen', rest⟩ := running
        exact ⟨v₀, v', first, (view_of_slice (writes.frame _ apart)).trans seen', rest⟩
      refine ⟨Or.inl stands, fun _ => stands, fun entered => absurd early entered,
        fun entered => absurd early entered, h.waiters, locked, ?_, ?_, ?_, h.calm, ?_,
        fun approved answer => keeps approved (h.answer approved answer), h.isOver⟩
      · rw [early]
        intro _ _ wrong
        cases wrong
      · rw [early]
        intro wrong
        cases wrong
      · rw [early]
        intro wrong
        cases wrong
      · rw [early]
        intro _ _ wrong
        cases wrong
    · exact absurd lock.names (clear mine' created phase)
    · obtain ⟨approved, answer⟩ := h.isOver entered outside
      exact absurd (h.answer approved answer) (undecided entered approved)

theorem Confirming.wrote (h : Confirming start target s call) (held : s.lock = some r)
    (unwritten : r.written = none)
    (returned : commit (resolveApproval env now r.principalId r.approvalId r.approved r.resumeState
      r.resolvedBy) s.store = (.ok (approval, event, changed), store))
    (clear : ∀ mine created, call.phase = .requested mine created → r.approvalId ≠ mine.approvalId) :
    Confirming start target (s.wrote store r approval changed) call := by
  have taken := resolveApproval_taken returned
  refine ⟨h.sound.kept taken,
    (step_refines h.sound.rooted taken).normalApprovals h.sound.rooted h.normal, h.single, h.asked,
    h.holds, ?_⟩
  intro aims
  refine (h.handed aims).wrote h.sound.rooted held unwritten (commit_ok_iff.mp returned) taken ?_
  intro mine created phase names
  have named := aims _ (h.holds mine (by rw [phase]; rfl)).1
  exact clear mine created phase (names.trans named.symm)

theorem Handed.unlocked {future : CallFuture} (h : Handed start target s call)
    (same : t.store = s.store ∧ t.waiters = s.waiters) (free : t.lock = none)
    (set : call.phase.listed = true → future ≠ .cancelled ∧
      (∀ approved, future = .result approved → Decided s.store target approved) ∧
      (future = .pending → ∀ approved, ¬ Decided s.store target approved)) :
    Handed start target t { call with future } := by
  obtain ⟨store, waiters⟩ := same
  refine ⟨store ▸ h.task, store ▸ h.early, store ▸ h.known, store ▸ h.resumed, waiters ▸ h.waiters, ?_,
    store ▸ h.requested, ?_, ?_, h.calm, store ▸ h.unwinding, store ▸ h.answer, h.isOver⟩
  · intro r held
    rw [free] at held
    cases held
  · intro listed
    obtain ⟨live, result, -⟩ := set listed
    exact ⟨live, store ▸ result⟩
  · intro listed unset approved decided
    rw [store] at decided
    exact absurd decided ((set listed).2.2 unset approved)

section
variable (h : Confirming start target s call)
include h

theorem Confirming.woken (held : s.lock = some r) (written : r.written = some (approval, changed)) :
    ∃ future, Confirming start target (s.woken r changed).unlocked { call with future } := by
  have rest := Core.sameRest_woken (s := s) r changed
  have settled := Core.settled_woken (s := s) r changed
  obtain ⟨future, single⟩ := Core.settled_single settled h.single
  refine ⟨future, ?_, ?_, single, h.asked, h.holds, ?_⟩
  · rw [show (s.woken r changed).unlocked.store = s.store from rest.store]
    exact h.sound
  · rw [show (s.woken r changed).unlocked.store = s.store from rest.store]
    exact h.normal
  intro aims
  have before := h.handed aims
  have lock := before.lock r held
  refine before.unlocked ⟨rest.store, rest.waiters⟩ rfl ?_
  intro listed
  obtain ⟨normal, -⟩ := before.known (listed_entered listed)
  obtain ⟨live, result⟩ := before.future listed
  have read := lock.waiter
  rw [listed] at read
  replace read : r.waiter = some ⟨target, call.runId, 0⟩ := read
  cases changed with
  | false =>
    have same : future = call.future := by
      unfold Core.woken at single
      rw [read] at single
      replace single : s.calls = _ := single
      rw [h.single] at single
      injection single with same
      exact (congrArg ToolCall.future same).symm
    rw [same]
    refine ⟨live, result, ?_⟩
    intro unset approved decided
    obtain ⟨r', other, held', written'⟩ := before.woken listed unset approved decided
    rw [held, Option.some.injEq] at held'
    rw [held', written'] at written
    cases written
  | true =>
    have same : future = if call.future = .pending then .result r.approved else call.future := by
      unfold Core.woken at single
      rw [read] at single
      replace single : (s.settle 0 (.result r.approved)).calls = _ := single
      unfold Core.settle at single
      rw [Core.setCall_single h.single, Core.settled_eq] at single
      injection single with same
      exact (congrArg ToolCall.future same).symm
    obtain ⟨-, decided⟩ := lock.written approval true written
    rw [normal] at decided
    rw [same]
    split
    · refine ⟨by simp, ?_, by simp⟩
      intro approved set
      cases set
      exact decided rfl
    · rename_i set
      exact ⟨live, result, fun unset => absurd unset set⟩

theorem Confirming.exited (held : s.lock = some r)
    (written : r.written = some (approval, changed)) :
    ∃ call', Confirming start target (s.exited r approval changed) call' := by
  obtain ⟨future, awake⟩ := h.woken held written
  unfold Core.exited
  split
  · exact ⟨_, awake⟩
  · split
    · rename_i own review stands
      obtain ⟨rfl, phase⟩ := Core.phaseOf_single h.single stands
      have held' : call.phase.approval = some own := by rw [phase]; rfl
      have listed : call.phase.listed = true := by rw [phase]; rfl
      refine ⟨_, awake.goesOn held' listed rfl rfl rfl (Or.inl rfl) (by simp) ?_⟩
      · intro aims other answer same
        cases same
        have before := h.handed aims
        have normal := (before.known (by rw [phase]; simp)).1
        obtain ⟨decided, -⟩ := (before.lock r held).written approval changed written
        rw [normal] at decided
        refine ⟨_, rfl, ?_⟩
        rw [show (s.woken r changed).unlocked.store = s.store from
          (Core.sameRest_woken (s := s) r changed).store]
        exact decided
    · rename_i own stands
      obtain ⟨rfl, phase⟩ := Core.phaseOf_single h.single stands
      have held' : call.phase.approval = some own := by rw [phase]; rfl
      have listed : call.phase.listed = true := by rw [phase]; rfl
      refine ⟨_, awake.goesOn held' listed rfl rfl rfl (Or.inl rfl) (by simp) ?_⟩
      · intro aims
        exact absurd phase ((h.handed aims).calm own)
    · exact ⟨_, awake⟩

theorem Confirming.kept {act : Act}
    (allowed : act.handsOff target) (clean : HandsOver env s act) (taken : s.step env act = some t) :
    ∃ call', Confirming start target t call' := by
  have happened := Core.happens taken
  cases happened with
  | requested found phase returned pending =>
    cases h.found allowed found
    cases allowed
    exact ⟨_, h.requested phase returned pending⟩
  | answered found phase returned decided =>
    cases h.found allowed found
    cases allowed
    exact ⟨_, h.answered phase returned decided⟩
  | registerTwice found phase free known =>
    cases h.found allowed found
    cases allowed
    exact ⟨_, h.registerTwice phase known⟩
  | register found phase free absent =>
    cases h.found allowed found
    cases allowed
    exact ⟨_, h.register phase free⟩
  | unreviewed found phase | publish found phase | publishReviewed found phase =>
    cases h.found allowed found
    cases allowed
    exact ⟨_, h.goesOn (by rw [phase]; rfl) (by rw [phase]; rfl) rfl rfl rfl
      (Or.inr (by simp [phase])) (by simp) (by simp)⟩
  | @reviewed c _ review truncated approval annotated event created store found phase returned =>
    cases h.found allowed found
    cases allowed
    have listed : call.phase.listed = true := by rw [phase]; rfl
    have taken : Tasks.step env s.store (.annotateApprovalReview call.principalId
        approval.approvalId (reviewNote call.reason review)) = some store :=
      annotateApprovalReview_taken returned
    have noted := h.annotate listed taken
    have normal := (h.holds approval (by rw [phase]; rfl)).2
    have named := annotateApprovalReview_named (commit_ok_iff.mp returned)
    exact ⟨_, noted.goesOn (by rw [phase]; rfl) listed rfl (named.trans normal) rfl
      (Or.inr (by simp [phase])) (by simp) (by simp)⟩
  | wake found phase future =>
    cases h.found allowed found
    cases allowed
    refine ⟨_, h.goesOn (by rw [phase]; rfl) (by rw [phase]; rfl) rfl rfl rfl
      (Or.inr (by simp [phase])) (by simp) ?_⟩
    intro aims other answer same
    cases same
    exact ⟨_, rfl, ((h.handed aims).future (by rw [phase]; rfl)).2 _ future⟩
  | @wakeCancelled c _ approval found phase future =>
    cases h.found allowed found
    cases allowed
    have strays : ¬ Aims target call :=
      fun aims => ((h.handed aims).future (by rw [phase]; rfl)).1 future
    unfold Core.raised
    split
    · exact ⟨_, h.goesOn (by rw [phase]; rfl) (by rw [phase]; rfl) rfl rfl rfl
        (Or.inr (by simp [phase])) (fun aims => absurd aims strays) (fun aims => absurd aims strays)⟩
    · exact ⟨_, h.goesOn (by rw [phase]; rfl) (by rw [phase]; rfl) rfl rfl rfl
        (Or.inr (by simp [phase])) (fun aims => absurd aims strays) (fun aims => absurd aims strays)⟩
  | release found phase free =>
    cases h.found allowed found
    cases allowed
    exact ⟨_, h.release phase free⟩
  | releaseRaised found phase free =>
    cases h.found allowed found
    cases allowed
    exact ⟨_, h.releaseRaised phase⟩
  | resolve free => exact ⟨_, h.locked free (fun _ => allowed) (fun _ => Or.inl rfl)⟩
  | write held unwritten returned =>
    refine ⟨_, h.wrote held unwritten returned ?_⟩
    intro mine created phase names
    have refused := (clean _ held call (by rw [h.single]; exact List.mem_cons_self)).1 mine
      (by rw [phase]; rfl) names
    rw [resolveApproval_taken returned] at refused
    cases refused
  | @writeRefused now r held unwritten refused =>
    have client : r.caller = none := by
      have accepted := (clean r held call (by rw [h.single]; exact List.mem_cons_self)).2
      rw [refused] at accepted
      simpa using accepted
    rw [client]
    exact ⟨_, h.refused held unwritten⟩
  | resolveReturn held written => exact h.exited held written
  | @resolveReview c _ approval review found phase free =>
    cases h.found allowed found
    cases allowed
    exact ⟨_, h.locked free (fun aims => aims _ (h.holds approval (by rw [phase]; rfl)).1)
      (fun _ => Or.inr ⟨rfl, approval, review, phase⟩)⟩
  | @resolveFailed c _ approval found phase free =>
    cases h.found allowed found
    cases allowed
    exact ⟨_, h.locked free (fun aims => aims _ (h.holds approval (by rw [phase]; rfl)).1)
      (fun aims => absurd phase ((h.handed aims).calm approval))⟩
  | _ => cases allowed

end

end Handed

end Knoa.Tasks
