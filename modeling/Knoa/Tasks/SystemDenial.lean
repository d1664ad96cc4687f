import Knoa.Tasks.SideEffects
import Knoa.Tasks.ApprovalRows

/-!
# Denials that nobody made

An approval row is answered again to every later attempt, so whatever withdraws it
answers for the user. A pause and a graceful stop do.
-/
namespace Knoa.Tasks
open Relational Transaction
open Transition (trace accepted)

def Excused (s : Core) (approvalId : Option String) : Prop :=
  ∃ row ∈ s.store.approvals.rows, approvalId = some row.approvalId ∧
    (row.state = .denied ∨ TaskCancelled s.store row.taskId)

/-- A client, or the reviewer it configured, denied the approval. -/
def DeniedByPrincipal (s : Core) (approvalId : String) : Prop :=
  ∃ decision ∈ s.decisions, decision.approvalId = approvalId ∧ decision.approved = false ∧
    decision.decider ≠ .handler

/-- Nothing but a denial by a principal, or the cancellation of the Task, answers
`confirm` with False or withdraws an approval. -/
structure NoSystemDenial (s : Core) : Prop where
  answers : ∀ call ∈ s.calls, call.answer = some false → Excused s call.approvalId
  denials : ∀ row ∈ s.store.approvals.rows, row.state = .denied → DeniedByPrincipal s row.approvalId
  withdrawals : ∀ row ∈ s.store.approvals.rows, row.state = .cancelled →
    TaskCancelled s.store row.taskId
  decisions : ∀ decision ∈ s.decisions, decision.decider ≠ .handler

def Unanswered (s : Core) (waiter : Waiter) : Prop :=
  ∃ call ∈ s.calls[waiter.call]?, call.future = .pending

def LeavesToPrincipal (env : Env) (s : Core) : Act → Prop
  | .repository (.requestPause _ _ taskId _) => ¬ TaskWaiting s.store (strip taskId)
  | .interrupt c => ∀ call ∈ s.calls[c]?, call.phase.inTry = false
  | .cancelTask taskId => ∀ waiter ∈ s.waiters, waiter.taskId = taskId → Unanswered s waiter →
      TaskCancelled s.store (strip taskId)
  | .close => ∀ waiter ∈ s.waiters, ¬ Unanswered s waiter
  | .resolveWrite now => ∀ r ∈ s.lock, r.caller.isSome = true →
      (Tasks.step env s.store (.resolveApproval now r.principalId r.approvalId r.approved
        r.resumeState r.resolvedBy)).isSome = true
  | _ => True

section Honesty

def OnRecord (s : Core) (approvalId runId : String) : Prop :=
  ∃ row ∈ s.store.approvals.rows, row.approvalId = approvalId ∧ row.taskId = strip runId

structure HonestCall (s : Core) (call : ToolCall) : Prop where
  fresh : call.phase = .admitted → call.approvalId = none
  known : ∀ approval, call.phase.approval = some approval →
    call.approvalId = some approval.approvalId ∧ OnRecord s approval.approvalId call.runId
  calm : ∀ approval, call.phase ≠ .failing approval
  future : call.future ≠ .cancelled ∧ (call.future = .result false → Excused s call.approvalId)
  unwinding : ∀ approval, call.phase = .unwinding approval (some false) →
    Excused s (some approval.approvalId)
  answer : call.answer = some false → Excused s call.approvalId

structure HonestWaiter (s : Core) (waiter : Waiter) : Prop where
  known : OnRecord s waiter.approvalId waiter.taskId
  call : ∃ call : ToolCall, s.calls[waiter.call]? = some call ∧
    call.approvalId = some waiter.approvalId

structure HonestLock (s : Core) (r : Resolving) : Prop where
  waiter : ∀ waiter, r.waiter = some waiter → waiter ∈ s.waiters ∧ waiter.approvalId = r.approvalId
  caller : ∀ c, r.caller = some c → ∃ (call : ToolCall) (approval : TaskApprovalRecord)
    (review : ApprovalReview), s.calls[c]? = some call ∧ call.phase = .deciding approval review ∧
      r.approvalId = approval.approvalId
  written : ∀ approval changed, r.written = some (approval, changed) →
    approval.approvalId = strip r.approvalId ∧
      (approval.state ≠ .approved ∨ (changed = true ∧ r.approved = false) →
        Excused s (some approval.approvalId))

structure HonestStore (s : Core) : Prop where
  sound : Sound s.store
  normal : NormalApprovals s.store
  denied : ∀ row ∈ s.store.approvals.rows, row.state = .denied → DeniedByPrincipal s row.approvalId
  cancelled : ∀ row ∈ s.store.approvals.rows, row.state = .cancelled →
    TaskCancelled s.store row.taskId
  unexpired : ∀ row ∈ s.store.approvals.rows, row.state ≠ .expired
  decisions : ∀ decision ∈ s.decisions, decision.decider ≠ .handler

/-- The invariant of a run that leaves decisions to principals. -/
structure Honest (s : Core) : Prop where
  store : HonestStore s
  calls : ∀ (c : Nat) (call : ToolCall), s.calls[c]? = some call → HonestCall s call
  waiters : ∀ waiter ∈ s.waiters, HonestWaiter s waiter
  lock : ∀ r, s.lock = some r → HonestLock s r

structure Keeps (s t : Core) : Prop where
  excused : ∀ approvalId, Excused s approvalId → Excused t approvalId
  onRecord : ∀ approvalId runId, OnRecord s approvalId runId → OnRecord t approvalId runId

variable {s t : Core}

theorem keeps_store (same : t.store = s.store) : Keeps s t := by
  constructor
  · intro approvalId excused
    unfold Excused
    rw [same]
    exact excused
  · intro approvalId runId known
    unfold OnRecord
    rw [same]
    exact known

variable {call : ToolCall}

theorem HonestCall.keep (h : HonestCall s call) (keeps : Keeps s t) : HonestCall t call where
  fresh := h.fresh
  known approval holds := ⟨(h.known approval holds).1, keeps.onRecord _ _ (h.known approval holds).2⟩
  calm := h.calm
  future := ⟨h.future.1, fun refused => keeps.excused _ (h.future.2 refused)⟩
  unwinding approval phase := keeps.excused _ (h.unwinding approval phase)
  answer refused := keeps.excused _ (h.answer refused)

theorem HonestStore.excused (h : HonestStore s) {row : ApprovalRow}
    (member : row ∈ s.store.approvals.rows) (decided : row.state ≠ .pending)
    (refused : row.state ≠ .approved) : Excused s (some row.approvalId) := by
  refine ⟨row, member, rfl, ?_⟩
  cases state : row.state with
  | pending => exact absurd state decided
  | approved => exact absurd state refused
  | expired => exact absurd state (h.unexpired row member)
  | denied => exact Or.inl rfl
  | cancelled => exact Or.inr (h.cancelled row member state)

variable {approvalId : String}

theorem OnRecord.normal {runId : String} (h : HonestStore s) (known : OnRecord s approvalId runId) :
    strip approvalId = approvalId := by
  obtain ⟨row, member, rfl, -⟩ := known
  exact h.normal row member

variable {op : Op}

theorem keeps_refines (rooted : Rooted s.store) (refines : Refines s.store op t.store) :
    Keeps s t := by
  constructor
  · rintro approvalId ⟨row, member, names, excuse⟩
    obtain ⟨row', member', carried⟩ := refines.approval_kept rooted member
    refine ⟨row', member', names.trans (congrArg some carried.approvalId.symm), ?_⟩
    rcases excuse with denied | cancelled
    · cases carried.fate with
      | kept state => exact Or.inl (state.trans denied)
      | resolved _ _ pending | cancelled pending | paused _ _ pending =>
        rw [denied] at pending; cases pending
    · rw [carried.taskId]
      exact Or.inr (refines.taskCancelled cancelled)
  · rintro approvalId runId ⟨row, member, names, owner⟩
    obtain ⟨row', member', carried⟩ := refines.approval_kept rooted member
    exact ⟨row', member', carried.approvalId.trans names, carried.taskId.trans owner⟩

theorem DeniedByPrincipal.grow (h : DeniedByPrincipal s approvalId)
    (decisions : s.decisions ⊆ t.decisions) : DeniedByPrincipal t approvalId := by
  obtain ⟨decision, member, rest⟩ := h
  exact ⟨decision, decisions member, rest⟩

variable {env : Env}

/-- A repository call that pauses no waiting Task, and denies only what a principal
denied, keeps the store honest. -/
theorem HonestStore.step (h : HonestStore s) (taken : Tasks.step env s.store op = some t.store)
    (decisions : s.decisions ⊆ t.decisions)
    (deciders : ∀ decision ∈ t.decisions, decision.decider ≠ .handler)
    (resolves : ∀ now principalId approvalId resumeState resolvedBy,
      op = .resolveApproval now principalId approvalId false resumeState resolvedBy →
      DeniedByPrincipal t (strip approvalId))
    (pauses : ∀ now principalId taskId reason, op = .requestPause now principalId taskId reason →
      ¬ TaskWaiting s.store (strip taskId)) :
    HonestStore t := by
  have rooted := h.sound.rooted
  have refines := step_refines rooted taken
  have origin : ∀ row ∈ t.store.approvals.rows, _ :=
    fun row member => refines.approval_from rooted member
  refine ⟨h.sound.kept taken, refines.normalApprovals rooted h.normal, ?_, ?_, ?_, deciders⟩
  · intro row member denied
    rcases origin row member with ⟨old, before, carried⟩ | ⟨pending, -⟩
    · rw [carried.approvalId]
      cases carried.fate with
      | kept state => exact (h.denied old before (state.symm.trans denied)).grow decisions
      | @resolved now principalId approvalId resolvedBy approved resumeState call named _ state =>
        rw [denied] at state
        cases approved with
        | true => cases state
        | false =>
          rw [named]
          exact resolves _ _ _ _ _ call
      | cancelled _ state | paused _ _ _ state => rw [denied] at state; cases state
    · rw [denied] at pending
      cases pending
  · intro row member cancelled
    rcases origin row member with ⟨old, before, carried⟩ | ⟨pending, -⟩
    · rw [carried.taskId]
      cases carried.fate with
      | kept state => exact refines.taskCancelled (h.cancelled old before (state.symm.trans cancelled))
      | @resolved _ _ _ _ approved _ _ _ _ state =>
        rw [cancelled] at state
        cases approved <;> cases state
      | cancelled _ _ ended => exact ended
      | paused call waiting => exact absurd waiting (pauses _ _ _ _ call)
    · rw [cancelled] at pending
      cases pending
  · intro row member expired
    rcases origin row member with ⟨old, before, carried⟩ | ⟨pending, -⟩
    · cases carried.fate with
      | kept state => exact h.unexpired old before (state.symm.trans expired)
      | @resolved _ _ _ _ approved _ _ _ _ state =>
        rw [expired] at state
        cases approved <;> cases state
      | cancelled _ state | paused _ _ _ state => rw [expired] at state; cases state
    · rw [expired] at pending
      cases pending

theorem Honest.step {store : Store} (h : Honest s) (taken : Tasks.step env s.store op = some store)
    (others : ∀ now principalId approvalId resumeState resolvedBy,
      op ≠ .resolveApproval now principalId approvalId false resumeState resolvedBy)
    (pauses : ∀ now principalId taskId reason, op = .requestPause now principalId taskId reason →
      ¬ TaskWaiting s.store (strip taskId)) :
    Honest (s.withStore store) := by
  have keeps : Keeps s (s.withStore store) :=
    keeps_refines h.store.sound.rooted (step_refines h.store.sound.rooted taken)
  refine ⟨h.store.step taken (fun _ member => member) h.store.decisions ?_ pauses, ?_, ?_, ?_⟩
  · intro now principalId approvalId resumeState resolvedBy wrong
    exact absurd wrong (others _ _ _ _ _)
  · intro c call found
    exact (h.calls c call found).keep keeps
  · intro waiter member
    exact ⟨keeps.onRecord _ _ (h.waiters waiter member).known, (h.waiters waiter member).call⟩
  · intro r held
    have lock := h.lock r held
    refine ⟨lock.waiter, lock.caller, ?_⟩
    intro approval changed written
    obtain ⟨names, excused⟩ := lock.written approval changed written
    exact ⟨names, fun refused => keeps.excused _ (excused refused)⟩

variable {c : Nat}

theorem Honest.setCall {f : ToolCall → ToolCall} (h : Honest s)
    (honest : ∀ call, s.calls[c]? = some call → HonestCall s call → HonestCall s (f call))
    (approval : ∀ call approvalId, s.calls[c]? = some call → call.approvalId = some approvalId →
      (f call).approvalId = some approvalId)
    (resolving : s.lock = none ∨ ∀ call, s.calls[c]? = some call → (f call).phase = call.phase ∨
      ∀ approval review, call.phase ≠ .deciding approval review) :
    Honest (s.setCall c f) := by
  have keeps : Keeps s (s.setCall c f) := keeps_store rfl
  have here : ∀ call, s.calls[c]? = some call → (s.setCall c f).calls[c]? = some (f call) := by
    intro call found
    exact (List.getElem?_modify_eq _ _ _).trans (congrArg (Option.map f) found)
  have apart : ∀ c' call, c' ≠ c → s.calls[c']? = some call →
      (s.setCall c f).calls[c']? = some call := by
    intro c' call other found
    exact (List.getElem?_modify_ne _ _ (Ne.symm other)).trans found
  refine ⟨⟨h.store.sound, h.store.normal, h.store.denied, h.store.cancelled, h.store.unexpired,
    h.store.decisions⟩, ?_, ?_, ?_⟩
  · intro c' call' found
    rcases Core.setCall_calls found with ⟨rfl, call, known, rfl⟩ | ⟨-, known⟩
    · exact (honest call known (h.calls c' call known)).keep keeps
    · exact (h.calls c' call' known).keep keeps
  · intro waiter member
    obtain ⟨known, call, found, names⟩ := h.waiters waiter member
    refine ⟨known, ?_⟩
    by_cases same : waiter.call = c
    · rw [same] at found ⊢
      exact ⟨f call, here call found, approval call _ found names⟩
    · exact ⟨call, apart _ call same found, names⟩
  · intro r held
    have lock := h.lock r held
    refine ⟨lock.waiter, ?_, lock.written⟩
    intro c' mine
    obtain ⟨call, approval', review, found, phase, names⟩ := lock.caller c' mine
    by_cases same : c' = c
    · subst same
      rcases resolving with free | kept
      · rw [show s.lock = some r from held] at free
        cases free
      · rcases kept call found with phase' | other
        · exact ⟨f call, approval', review, here call found, phase'.trans phase, names⟩
        · exact absurd phase (other approval' review)
    · exact ⟨call, approval', review, apart c' call same found, phase, names⟩

theorem HonestStore.same (h : HonestStore s) (store : t.store = s.store)
    (decisions : t.decisions = s.decisions) : HonestStore t where
  sound := store ▸ h.sound
  normal := by
    rw [store]
    exact h.normal
  denied row member state := by
    rw [store] at member
    exact (h.denied row member state).grow (decisions ▸ fun _ known => known)
  cancelled := by
    rw [store]
    exact h.cancelled
  unexpired := by
    rw [store]
    exact h.unexpired
  decisions := by
    rw [decisions]
    exact h.decisions

theorem Honest.same (h : Honest s) (store : t.store = s.store)
    (decisions : t.decisions = s.decisions)
    (calls : t.calls = s.calls) (waiters : t.waiters = s.waiters) (lock : t.lock = s.lock) :
    Honest t where
  store := h.store.same store decisions
  calls c call found := (h.calls c call (calls ▸ found)).keep (keeps_store store)
  waiters waiter member := by
    obtain ⟨known, call⟩ := h.waiters waiter (waiters ▸ member)
    exact ⟨(keeps_store store).onRecord _ _ known, calls ▸ call⟩
  lock r held := by
    obtain ⟨waiter, caller, written⟩ := h.lock r (lock ▸ held)
    refine ⟨waiters ▸ waiter, calls ▸ caller, ?_⟩
    intro approval changed result
    obtain ⟨names, excused⟩ := written approval changed result
    exact ⟨names, fun refused => (keeps_store store).excused _ (excused refused)⟩

theorem Honest.unlocked (h : Honest s) : Honest s.unlocked where
  store := h.store.same rfl rfl
  calls c call found := (h.calls c call found).keep (keeps_store rfl)
  waiters waiter member := by
    obtain ⟨known, call⟩ := h.waiters waiter member
    exact ⟨(keeps_store rfl).onRecord _ _ known, call⟩
  lock r held := by cases held

theorem Honest.forget (h : Honest s) (free : s.lock = none) (c : Nat) (approvalId : String) :
    Honest (s.forget c approvalId) where
  store := h.store.same rfl rfl
  calls c call found := (h.calls c call found).keep (keeps_store rfl)
  waiters waiter member := by
    obtain ⟨known, call⟩ := h.waiters waiter (List.mem_of_mem_filter member)
    exact ⟨(keeps_store rfl).onRecord _ _ known, call⟩
  lock r held := by
    rw [show s.lock = some r from held] at free
    cases free

theorem Honest.listed (h : Honest s) (free : s.lock = none) {waiter : Waiter}
    (honest : HonestWaiter s waiter) : Honest (s.listed waiter) where
  store := h.store.same rfl rfl
  calls c call found := (h.calls c call found).keep (keeps_store rfl)
  waiters other member := by
    have before : HonestWaiter s other := by
      rcases List.mem_concat.mp member with old | new
      · exact h.waiters other old
      · rw [new]
        exact honest
    exact ⟨(keeps_store rfl).onRecord _ _ before.known, before.call⟩
  lock r held := by
    rw [show s.lock = some r from held] at free
    cases free

variable {phase : CallPhase}

theorem HonestCall.outside (h : HonestCall s call) (entered : phase ≠ .admitted)
    (outside : phase.approval = none) : HonestCall s { call with phase } where
  fresh wrong := absurd wrong entered
  known approval holds := by
    rw [show phase.approval = some approval from holds] at outside
    cases outside
  calm approval wrong := by
    rw [show phase = .failing approval from wrong] at outside
    cases outside
  future := h.future
  unwinding approval wrong := by
    rw [show phase = .unwinding approval (some false) from wrong] at outside
    cases outside
  answer := h.answer

variable {approval : TaskApprovalRecord}

theorem HonestCall.inside (h : HonestCall s call)
    (named : call.approvalId = some approval.approvalId)
    (known : OnRecord s approval.approvalId call.runId) (holds : phase.approval = some approval)
    (calm : ∀ other, phase ≠ .failing other)
    (unwinding : ∀ other, phase = .unwinding other (some false) →
      Excused s (some approval.approvalId)) :
    HonestCall s { call with phase } where
  fresh wrong := by
    rw [show phase = .admitted from wrong] at holds
    cases holds
  known other same := by
    have equal : approval = other := Option.some.inj (holds.symm.trans same)
    subst equal
    exact ⟨named, known⟩
  calm := calm
  future := h.future
  unwinding other wrong := by
    have refused := unwinding other wrong
    rw [show phase = .unwinding other (some false) from wrong] at holds
    rw [Option.some.inj holds]
    exact refused
  answer := h.answer

theorem Honest.left (h : Honest s) (entered : phase ≠ .admitted) (outside : phase.approval = none)
    (resolving : s.lock = none ∨ ∀ call : ToolCall, s.calls[c]? = some call →
      ∀ approval review, call.phase ≠ .deciding approval review) :
    Honest (s.setPhase c phase) := by
  apply h.setCall
  · intro call _ honest
    exact honest.outside entered outside
  · intro call approvalId _ names
    exact names
  · rcases resolving with free | apart
    · exact Or.inl free
    · exact Or.inr (fun call found => Or.inr (apart call found))

theorem Honest.goesOn (h : Honest s) (found : s.calls[c]? = some call)
    (held : call.phase.approval = some approval)
    (apart : ∀ other review, call.phase ≠ .deciding other review) {next : TaskApprovalRecord}
    (same : next.approvalId = approval.approvalId) (holds : phase.approval = some next)
    (calm : ∀ other, phase ≠ .failing other)
    (unwinding : ∀ other, phase = .unwinding other (some false) →
      Excused s (some approval.approvalId)) :
    Honest (s.setPhase c phase) := by
  apply h.setCall
  · intro call' found' honest
    rw [found, Option.some.injEq] at found'
    subst found'
    obtain ⟨named, known⟩ := honest.known approval held
    rw [← same] at named known unwinding
    exact honest.inside named known holds calm unwinding
  · intro call' approvalId _ names
    exact names
  · refine Or.inr (fun call' found' => Or.inr ?_)
    rw [found, Option.some.injEq] at found'
    subst found'
    exact apart

theorem Honest.returned {approved : Bool} (h : Honest s)
    (approval : ∀ call : ToolCall, s.calls[c]? = some call → ∀ other, call.approvalId = some other →
      other = approvalId)
    (resolving : s.lock = none ∨ ∀ call : ToolCall, s.calls[c]? = some call →
      ∀ approval review, call.phase ≠ .deciding approval review)
    (future : ∀ call : ToolCall, s.calls[c]? = some call → call.future = .result false →
      Excused s (some approvalId))
    (refused : approved = false → Excused s (some approvalId)) :
    Honest (s.returned c approvalId approved) := by
  apply h.setCall
  · intro call found honest
    refine ⟨?_, ?_, ?_, ⟨honest.future.1, future call found⟩, ?_, ?_⟩
    · intro wrong
      cases approved <;> cases wrong
    · intro approval holds
      cases approved <;> cases holds
    · intro approval wrong
      cases approved <;> cases wrong
    · intro approval wrong
      cases approved <;> cases wrong
    · intro answer
      exact refused (Option.some.inj answer)
  · intro call other found names
    exact congrArg some (approval call found other names).symm
  · rcases resolving with free | apart
    · exact Or.inl free
    · exact Or.inr (fun call found => Or.inr (apart call found))

theorem HonestCall.settled {future : CallFuture} (h : HonestCall s call)
    (running : call.future = .pending → future ≠ .cancelled)
    (refused : call.future = .pending → future = .result false → Excused s call.approvalId) :
    HonestCall s (call.settled future) := by
  unfold ToolCall.settled
  split
  · rename_i unset
    exact ⟨h.fresh, h.known, h.calm, ⟨running unset, refused unset⟩, h.unwinding, h.answer⟩
  · exact h

theorem Honest.dismiss {keep : Waiter → Bool} {future : CallFuture} (h : Honest s)
    (free : s.lock = none)
    (dropped : ∀ waiter ∈ s.waiters, keep waiter = false → Unanswered s waiter →
      future ≠ .cancelled ∧ (future = .result false → Excused s (some waiter.approvalId))) :
    Honest (s.dismiss keep future) where
  store := h.store.same rfl rfl
  calls c call' found := by
    suffices honest : HonestCall s call' from honest.keep (keeps_store rfl)
    obtain ⟨call, known, rfl | ⟨rfl, waiter, listed, drops, rfl⟩⟩ := Core.dismiss_calls found
    · exact h.calls c call' known
    · obtain ⟨-, other, held, names⟩ := h.waiters waiter listed
      have same : call = other := Option.some.inj (known.symm.trans held)
      subst same
      apply (h.calls waiter.call call known).settled
      · intro unset
        exact (dropped waiter listed drops ⟨call, known, unset⟩).1
      · intro unset refused
        rw [names]
        exact (dropped waiter listed drops ⟨call, known, unset⟩).2 refused
  waiters waiter member := by
    obtain ⟨known, call, found, names⟩ := h.waiters waiter (List.mem_of_mem_filter member)
    refine ⟨(keeps_store rfl).onRecord _ _ known, ?_⟩
    have inside : waiter.call < (s.dismiss keep future).calls.length := by
      rw [(Core.settled_dismiss keep future).length]
      exact (List.getElem?_eq_some_iff.mp found).1
    refine ⟨_, List.getElem?_eq_getElem inside, ?_⟩
    obtain ⟨old, before, same | ⟨_, set⟩⟩ :=
      (Core.settled_dismiss keep future).calls _ _ (List.getElem?_eq_getElem inside)
    · rw [found, Option.some.injEq] at before
      rw [same, ← before]
      exact names
    · rw [found, Option.some.injEq] at before
      rw [set, Core.settled_approvalId, ← before]
      exact names
  lock r held := by
    rw [show s.lock = some r from held] at free
    cases free

theorem Honest.crash (h : Honest s) : Honest s.crash where
  store := h.store.same rfl rfl
  calls c call' found := by
    rw [Core.crash, List.getElem?_map] at found
    obtain ⟨call, known, rfl⟩ := Option.map_eq_some_iff.mp found
    exact ((h.calls c call known).outside (by simp) rfl).keep (keeps_store rfl)
  waiters waiter member := by cases member
  lock r held := by cases held

theorem Honest.propose (h : Honest s) (fresh : call.phase = .admitted)
    (unasked : call.approvalId = none) (unset : call.future = .pending)
    (unanswered : call.answer = none) : Honest { s with calls := s.calls ++ [call] } where
  store := h.store.same rfl rfl
  calls c call' found := by
    suffices honest : HonestCall s call' from honest.keep (keeps_store rfl)
    rcases Nat.lt_or_ge c s.calls.length with old | new
    · rw [List.getElem?_append_left old] at found
      exact h.calls c call' found
    · rw [List.getElem?_append_right new] at found
      rw [List.mem_singleton.mp (List.mem_of_getElem? found)]
      refine ⟨fun _ => unasked, ?_, ?_, ⟨?_, ?_⟩, ?_, ?_⟩
      · rw [fresh]
        intro approval holds
        cases holds
      · rw [fresh]
        intro approval wrong
        cases wrong
      · rw [unset]
        intro wrong
        cases wrong
      · rw [unset]
        intro wrong
        cases wrong
      · rw [fresh]
        intro approval wrong
        cases wrong
      · rw [unanswered]
        intro wrong
        cases wrong
  waiters waiter member := by
    obtain ⟨known, other, found, names⟩ := h.waiters waiter member
    refine ⟨(keeps_store rfl).onRecord _ _ known, other, ?_, names⟩
    exact (List.getElem?_append_left (List.getElem?_eq_some_iff.mp found).1).trans found
  lock r held := by
    obtain ⟨waiter, caller, written⟩ := h.lock r held
    refine ⟨waiter, ?_, ?_⟩
    · intro c mine
      obtain ⟨other, approval, review, found, rest⟩ := caller c mine
      refine ⟨other, approval, review, ?_, rest⟩
      exact (List.getElem?_append_left (List.getElem?_eq_some_iff.mp found).1).trans found
    · intro approval changed result
      obtain ⟨names, excused⟩ := written approval changed result
      exact ⟨names, fun refused => (keeps_store rfl).excused _ (excused refused)⟩

theorem Honest.locked {caller : Option Nat} {principalId resolvedBy : String} {approved : Bool}
    (h : Honest s)
    (mine : ∀ c, caller = some c → ∃ (call : ToolCall) (approval : TaskApprovalRecord)
      (review : ApprovalReview), s.calls[c]? = some call ∧ call.phase = .deciding approval review ∧
      approvalId = approval.approvalId) :
    Honest (s.locked caller principalId approvalId approved resolvedBy) where
  store := h.store.same rfl rfl
  calls c call found := (h.calls c call found).keep (keeps_store rfl)
  waiters waiter member := by
    obtain ⟨known, call⟩ := h.waiters waiter member
    exact ⟨(keeps_store rfl).onRecord _ _ known, call⟩
  lock r held := by
    cases held
    refine ⟨?_, mine, ?_⟩
    · intro waiter read
      exact Core.waiterOf_some read
    · intro approval changed result
      cases result

variable {r : Resolving}

theorem HonestLock.decider (h : HonestLock s r) : s.decider r ≠ .handler := by
  unfold Core.decider
  cases caller : r.caller with
  | none => simp
  | some c =>
    obtain ⟨call, approval, review, found, phase, -⟩ := h.caller c caller
    simp [Core.phaseOf, found, phase]

variable {changed : Bool}

section
variable (h : Honest s)
include h

theorem Honest.write {now : Time} {event : Option TaskEvent} {store : Store}
    (held : s.lock = some r)
    (returned : commit (resolveApproval env now r.principalId r.approvalId r.approved r.resumeState
      r.resolvedBy) s.store = (.ok (approval, event, changed), store)) :
    Honest { s with
      store, lock := some { r with written := some (approval, changed) },
      decisions := if changed then
        s.decisions ++ [⟨approval.approvalId, r.approved, s.decider r⟩] else s.decisions } := by
  have taken : Tasks.step env s.store (.resolveApproval now r.principalId r.approvalId r.approved
      r.resumeState r.resolvedBy) = some store := resolveApproval_taken returned
  have result := commit_ok_iff.mp returned
  obtain ⟨member, named, decided, state⟩ := resolveApproval_known result
  have lock := h.lock r held
  let t : Core := { s with
    store, lock := some { r with written := some (approval, changed) }, decisions := if changed then
      s.decisions ++ [⟨approval.approvalId, r.approved, s.decider r⟩] else s.decisions }
  have keeps : Keeps s t := keeps_refines h.store.sound.rooted (step_refines h.store.sound.rooted taken)
  have honest : HonestStore t := by
    cases changed with
    | false =>
      obtain ⟨old, -, -, ⟨-, -, same⟩ | ⟨-, wrong, -⟩⟩ := resolveApproval_effect result
      · exact h.store.same same rfl
      · cases wrong
    | true =>
      refine h.store.step taken (fun _ => List.mem_append_left _) ?_ ?_ ?_
      · intro decision recorded
        rcases List.mem_concat.mp recorded with old | new
        · exact h.store.decisions decision old
        · rw [new]
          exact lock.decider
      · intro now principalId approvalId resumeState resolvedBy call
        injection call with _ _ names refused _ _
        refine ⟨_, List.mem_concat_self, ?_, refused, lock.decider⟩
        rw [named, names]
      · nofun
  refine ⟨honest, fun c call found => (h.calls c call found).keep keeps, ?_, ?_⟩
  · intro waiter listed
    exact ⟨keeps.onRecord _ _ (h.waiters waiter listed).known, (h.waiters waiter listed).call⟩
  · intro r' held'
    cases held'
    refine ⟨lock.waiter, lock.caller, ?_⟩
    intro other changed' written
    cases written
    refine ⟨named, fun refused => honest.excused member decided ?_⟩
    rcases refused with refused | ⟨changed, refused⟩
    · exact refused
    · rw [state changed, refused]
      simp

theorem Honest.woken (held : s.lock = some r) (written : r.written = some (approval, changed)) :
    Honest (s.woken r changed) := by
  have lock := h.lock r held
  obtain ⟨named, excused⟩ := lock.written approval changed written
  unfold Core.woken
  split
  · rename_i waiter read
    obtain ⟨listed, names⟩ := lock.waiter waiter read
    obtain ⟨known, call, found, mine⟩ := h.waiters waiter listed
    have normal := known.normal h.store
    split
    · rename_i change
      apply h.setCall
      · intro call' found' honest
        rw [found, Option.some.injEq] at found'
        subst found'
        refine honest.settled (by simp) ?_
        intro _ refused
        have denied := excused (Or.inr ⟨change, CallFuture.result.inj refused⟩)
        rwa [named, ← names, normal, ← mine] at denied
      · intro call' approvalId _ holds
        rw [Core.settled_approvalId]
        exact holds
      · exact Or.inr (fun call' _ => Or.inl (Core.settled_phase _ _))
    · exact h
  · exact h

theorem Honest.exited (held : s.lock = some r) (written : r.written = some (approval, changed)) :
    Honest (s.exited r approval changed) := by
  have lock := h.lock r held
  have awake := (h.woken held written).unlocked
  unfold Core.exited
  cases caller : r.caller with
  | none => exact awake
  | some c =>
    obtain ⟨call, mine, review, found, phase, names⟩ := lock.caller c caller
    have stands : s.phaseOf c = some (.deciding mine review) := by
      rw [Core.phaseOf, found, Option.map_some, phase]
    simp only [stands]
    obtain ⟨call', found', phase'⟩ := Option.map_eq_some_iff.mp
      (Core.phaseOf_settled (Core.settled_woken r changed) stands)
    have approvalOf : call'.phase.approval = some mine := by rw [phase']; rfl
    obtain ⟨holds, known⟩ := (awake.calls c call' found').known mine approvalOf
    obtain ⟨named, excused⟩ := lock.written approval changed written
    have same : approval.approvalId = mine.approvalId := by
      rw [named, names]
      exact known.normal awake.store
    apply awake.setCall
    · intro other known' honest
      have equal : call' = other := Option.some.inj (found'.symm.trans known')
      subst equal
      refine honest.inside holds known rfl (by simp) ?_
      intro _ refused
      have denied : approval.state ≠ .approved := by
        intro granted
        rw [granted] at refused
        cases refused
      have sameStore : (s.woken r changed).unlocked.store = s.store :=
        (Core.sameRest_woken r changed).store
      rw [← same]
      exact (keeps_store sameStore).excused _ (excused (Or.inl denied))
    · intro _ _ _ holds'
      exact holds'
    · exact Or.inl rfl

theorem Honest.no_excuse (found : s.calls[c]? = some call)
    (phase : call.phase = .admitted) : call.approvalId = none ∧ call.future ≠ .result false ∧
      call.answer ≠ some false := by
  have honest := h.calls c call found
  have unasked := honest.fresh phase
  have nothing : ¬ Excused s call.approvalId := by
    rintro ⟨row, -, wrong, -⟩
    rw [unasked] at wrong
    cases wrong
  exact ⟨unasked, fun wrong => nothing (honest.future.2 wrong), fun wrong => nothing (honest.answer wrong)⟩

theorem Honest.requested {created : Bool} (found : s.calls[c]? = some call)
    (phase : call.phase = .admitted) (member : approval ∈ s.store.approvals.rows)
    (owner : approval.taskId = strip call.runId) : Honest (s.setCall c (fun call =>
      { call with
        approvalId := some approval.approvalId, phase := .requested approval created })) := by
  obtain ⟨unasked, unset, unanswered⟩ := h.no_excuse found phase
  apply h.setCall
  · intro other known honest
    rw [found] at known
    cases known
    refine ⟨by simp, ?_, by simp, ⟨honest.future.1, fun wrong => absurd wrong unset⟩, by simp,
      fun wrong => absurd wrong unanswered⟩
    intro other holds
    cases holds
    exact ⟨rfl, approval, member, rfl, owner⟩
  · intro other approvalId known names
    rw [found, Option.some.injEq] at known
    rw [← known, unasked] at names
    cases names
  · refine Or.inr (fun other known => Or.inr ?_)
    rw [found] at known
    cases known
    simp [phase]

theorem Honest.kept {act : Act} (clean : LeavesToPrincipal env s act)
    (taken : s.step env act = some t) : Honest t := by
  have happened := Core.happens taken
  clear taken
  cases happened with
  | @repository op store other taken =>
    refine h.step taken ?_ ?_
    · rintro now principalId approvalId resumeState resolvedBy rfl
      cases other
    · rintro now principalId taskId reason rfl
      exact clean
  | configureReview => exact h.same rfl rfl rfl rfl rfl
  | propose fresh unasked unset unanswered => exact h.propose fresh unasked unset unanswered
  | @requested c call now approvalIds approval event created store found phase returned pending =>
    have opened : Honest (s.withStore store) :=
      h.step (requestApproval_taken returned) (by simp) (by simp)
    obtain ⟨member, owner⟩ := requestApproval_known returned
    exact opened.requested found phase member owner
  | @answered c call now approvalIds approval event created store found phase returned decided =>
    have opened : Honest (s.withStore store) :=
      h.step (requestApproval_taken returned) (by simp) (by simp)
    obtain ⟨member, -⟩ := requestApproval_known returned
    obtain ⟨unasked, unset, -⟩ := h.no_excuse found phase
    have mine : ∀ other : ToolCall, (s.withStore store).calls[c]? = some other → call = other :=
      fun other known => Option.some.inj (found.symm.trans known)
    apply opened.returned
    · intro other known approvalId names
      rw [← mine other known, unasked] at names
      cases names
    · refine Or.inr (fun other known => ?_)
      rw [← mine other known, phase]
      simp
    · intro other known wrong
      rw [← mine other known] at wrong
      exact absurd wrong unset
    · intro refused
      refine opened.store.excused member decided ?_
      intro granted
      rw [granted] at refused
      cases refused
  | registerTwice found phase free => exact h.left (by simp) rfl (Or.inl free)
  | @register c call approval created found phase free absent =>
    have approvalOf : call.phase.approval = some approval := by rw [phase]; rfl
    obtain ⟨named, known⟩ := (h.calls c call found).known approval approvalOf
    have listed : Honest (s.listed ⟨approval.approvalId, call.runId, c⟩) :=
      h.listed free ⟨known, call, found, named⟩
    apply listed.setCall
    · intro other found' honest
      have same : call = other := Option.some.inj (found.symm.trans found')
      subst same
      obtain ⟨-, known'⟩ := honest.known approval approvalOf
      refine ⟨by simp, ?_, by simp, by simp, by simp, honest.answer⟩
      intro other holds
      cases holds
      exact ⟨named, known'⟩
    · intro _ _ _ names
      exact names
    · exact Or.inl free
  | unreviewed found phase | publish found phase | publishReviewed found phase =>
    exact h.goesOn found (by rw [phase]; rfl) (by simp [phase]) rfl rfl (by simp) (by simp)
  | @reviewed c call review truncated approval annotated event created store found phase returned =>
    have reviewed : Honest (s.withStore store) :=
      h.step (annotateApprovalReview_taken returned) (by simp) (by simp)
    have approvalOf : call.phase.approval = some approval := by rw [phase]; rfl
    have normal := ((h.calls c call found).known approval approvalOf).2.normal h.store
    have named := annotateApprovalReview_named (commit_ok_iff.mp returned)
    exact reviewed.goesOn found approvalOf (by simp [phase]) (named.trans normal) rfl (by simp)
      (by simp)
  | @wake c call approval value found phase future =>
    have approvalOf : call.phase.approval = some approval := by rw [phase]; rfl
    have honest := h.calls c call found
    refine h.goesOn found approvalOf (by simp [phase]) rfl rfl (by simp) ?_
    intro other refused
    cases refused
    rw [← (honest.known approval approvalOf).1]
    exact honest.future.2 future
  | wakeCancelled found phase future => exact absurd future (h.calls _ _ found).future.1
  | @release c call approval approved found phase free =>
    have left := h.forget free c approval.approvalId
    have approvalOf : call.phase.approval = some approval := by rw [phase]; rfl
    have honest := left.calls c call found
    have named := (honest.known approval approvalOf).1
    have mine : ∀ other : ToolCall, (s.forget c approval.approvalId).calls[c]? = some other →
        call = other := fun other known => Option.some.inj (found.symm.trans known)
    apply left.returned
    · intro other known approvalId names
      rw [← mine other known, named] at names
      exact (Option.some.inj names).symm
    · exact Or.inl free
    · intro other known wrong
      rw [← mine other known] at wrong
      rw [← named]
      exact honest.future.2 wrong
    · rintro rfl
      exact honest.unwinding approval phase
  | releaseRaised found phase free => exact (h.forget free _ _).left (by simp) rfl (Or.inl free)
  | @begin c call now record store found may returned =>
    have begun : Honest (s.withStore store) :=
      h.step (beginToolStep_taken env returned) (by simp) (by simp)
    have logged : Honest (s.begun store ⟨c, call.approvalId, call.stepId env⟩) :=
      begun.same rfl rfl rfl rfl rfl
    refine logged.left (by simp) rfl (Or.inr ?_)
    intro other known
    have same : call = other := Option.some.inj (found.symm.trans known)
    subst same
    intro approval review phase
    simp [ToolCall.mayCommit, phase] at may
  | @replay c call now record store outcome found may returned =>
    have begun : Honest (s.withStore store) :=
      h.step (beginToolStep_taken env returned) (by simp) (by simp)
    refine begun.left (by simp) rfl (Or.inr ?_)
    intro other known
    have same : call = other := Option.some.inj (found.symm.trans known)
    subst same
    intro approval review phase
    simp [ToolCall.mayCommit, phase] at may
  | @execute c call completed result state found phase =>
    have logged : Honest (s.executed ⟨c, call.approvalId, call.stepId env⟩) :=
      h.same rfl rfl rfl rfl rfl
    refine logged.left (by simp) rfl (Or.inr ?_)
    intro other known
    have same : call = other := Option.some.inj (found.symm.trans known)
    subst same
    simp [phase]
  | @finish c call now state result store found phase taken =>
    have finished : Honest (s.withStore store) := h.step taken (by simp) (by simp)
    refine finished.left (by simp) rfl (Or.inr ?_)
    intro other known
    have same : call = other := Option.some.inj (found.symm.trans known)
    subst same
    simp [phase]
  | @leave c call found outside =>
    refine h.left (by simp) rfl (Or.inr ?_)
    intro other known
    have same : call = other := Option.some.inj (found.symm.trans known)
    subst same
    intro approval review phase
    rw [phase] at outside
    cases outside
  | @interrupt c call approval found inside =>
    have outside := clean call found
    unfold ToolCall.insideTry at inside
    cases phase : call.phase <;> simp_all [CallPhase.inTry]
  | interruptWaiting found phase | interruptFailing found phase =>
    have outside := clean _ found
    rw [phase] at outside
    cases outside
  | resolve free =>
    apply h.locked
    intro c wrong
    cases wrong
  | @resolveReview c call approval review found phase free =>
    apply h.locked
    rintro c' ⟨⟩
    exact ⟨call, approval, review, found, phase, rfl⟩
  | resolveFailed found phase => exact absurd phase ((h.calls _ _ found).calm _)
  | write held unwritten returned => exact h.write held returned
  | @writeRefused now r held unwritten refused =>
    have client : r.caller = none := by
      have accepted := clean r held
      rw [refused] at accepted
      simpa using accepted
    rw [client]
    exact h.unlocked
  | resolveReturn held written => exact h.exited held written
  | @cancelTask taskId free =>
    apply h.dismiss free
    intro waiter listed mine unanswered
    have named : waiter.taskId = taskId := by simpa using mine
    obtain ⟨row, member, names, owner⟩ := (h.waiters waiter listed).known
    refine ⟨by simp, fun _ => ⟨row, member, congrArg some names.symm, Or.inr ?_⟩⟩
    rw [owner, named]
    exact clean waiter listed named unanswered
  | close free =>
    apply h.dismiss free
    intro waiter listed _ unanswered
    exact absurd unanswered (clean waiter listed)
  | crash => exact h.crash

theorem Honest.noSystemDenial : NoSystemDenial s where
  answers call member := by
    obtain ⟨c, found⟩ := List.getElem?_of_mem member
    exact (h.calls c call found).answer
  denials := h.store.denied
  withdrawals := h.store.cancelled
  decisions := h.store.decisions

end

theorem initial_honest (sessions : Table SessionRow.sessionHandle)
    (definitions : Table DefinitionRow.taskId) (executions : Table ExecutionRow.executionId) :
    Honest { store := Store.initial sessions definitions executions } where
  store := by
    refine ⟨initial_sound sessions definitions executions, ?_, ?_, ?_, ?_, ?_⟩
    all_goals
      intro row member
      cases member
  calls c call found := by cases found
  waiters waiter member := by cases member
  lock r held := by cases held

end Honesty

instance (s : Core) (approvalId : Option String) : Decidable (Excused s approvalId) := by
  unfold Excused
  infer_instance

instance (s : Core) (waiter : Waiter) : Decidable (Unanswered s waiter) := by
  unfold Unanswered
  infer_instance

instance (env : Env) (s : Core) (act : Act) : Decidable (LeavesToPrincipal env s act) := by
  unfold LeavesToPrincipal
  split <;> infer_instance

def waitingForApproval : List Act :=
  [.repository (sampleCreate "t"), .repository (.claimNext 0 "w" 60 ""), samplePropose "c",
    .request 0 1 (fun _ => "a"), .register 0, .review 0 none, .publish 0]

/-- The process restarts and the next attempt proposes the action again. -/
def proposedAfterRestart : List Act :=
  [.crash, .repository (.recoverInterrupted 5), .repository (.resume 6 "p" "t" "" false),
    .repository (.claimNext 7 "w" 60 ""), samplePropose "d", .request 1 8 (fun _ => "b")]

def deniedByUser : List Act :=
  waitingForApproval ++
    [.resolve "p" "a" false "p", .resolveWrite 2, .resolveReturn, .wake 0, .release 0] ++
    proposedAfterRestart

/-- A graceful stop cancels the waiting call, whose handler records a denial; the
next attempt is refused and nobody was asked. -/
def stoppedWhileWaiting : List Act :=
  waitingForApproval ++
    [.interrupt 0, .resolveWithin 0, .resolveWrite 2, .resolveReturn, .release 0] ++
    proposedAfterRestart

end Knoa.Tasks
