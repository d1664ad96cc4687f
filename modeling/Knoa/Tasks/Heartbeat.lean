import Mathlib.Algebra.Order.Ring.Rat
import Mathlib.Tactic.Linarith
import Knoa.Tasks.AttemptEnds

/-!
# Executors and their leases

`_heartbeat_loop` renews the lease until the latch is set or `renew_lease` returns False, as it does
for a Task that is not RUNNING.
-/
namespace Knoa.Tasks
open Relational Transaction
open Transition (accepted next trace)

/-- An execution and its heartbeat loop: the Task as claimed, and when the lease was
last set. -/
structure Heartbeat where
  task : TaskRecord
  workerId : String
  renewedAt : Time
  cancellation : Bool := false
  beating : Bool := true
  live : Bool := true
  deriving DecidableEq, Repr

structure Pulse where
  store : Store
  clock : Time
  heartbeats : List Heartbeat

inductive PulseAct
  | repository (op : Op)
  | claim (now : Time) (workerId : String)
  | tick (c : Nat) (now : Time)
  | signalCancel (c : Nat)
  | finish (c : Nat)
  | restart (now : Time)

/-- The calls of other parties. A transition has an executor's target, and a scope
holds the principal id that `RuntimeScope` validates and strips. -/
def Op.besideWorker : Op → Prop
  | .claimNext .. | .renewLease .. | .recoverInterrupted .. => False
  | .create _ _ request => IsIdentifier request.scope.principalId 256
  | .transition _ _ _ target _ => target ∈ executorTargets
  | _ => True

instance (op : Op) : Decidable op.besideWorker := by
  apply op.casesOn (motive := fun op => Decidable (op.besideWorker)) <;> intros <;>
    dsimp only [Op.besideWorker] <;> infer_instance

section Steps

/-- One pass of `_heartbeat_loop`, after its sleep. -/
def Pulse.tick (leaseOf : String → Time) (s : Pulse) (c : Nat) (b : Heartbeat) (now : Time) :
    Pulse :=
  if b.cancellation then
    { s with clock := now, heartbeats := s.heartbeats.set c { b with beating := false } }
  else
    match commit (renewLease now b.task.principalId b.task.taskId b.workerId
        (leaseOf (strip b.workerId))) s.store with
    | (.ok true, store) => ⟨store, now, s.heartbeats.set c { b with renewedAt := now }⟩
    | (_, store) => ⟨store, now, s.heartbeats.set c { b with beating := false }⟩

/-- The worker loop, its executions and the other parties. `leaseOf` gives each
worker's `lease_seconds`; a start finds no execution of an earlier process alive. -/
def Pulse.step (env : Env) (leaseOf : String → Time) (s : Pulse) : PulseAct → Option Pulse
  | .repository op =>
    if op.besideWorker then
      (Tasks.step env s.store op).map (fun store => { s with store })
    else none
  | .claim now workerId =>
    if s.clock ≤ now then
      match commit (claimNext env now workerId (leaseOf (strip workerId)) "") s.store with
      | (.ok (some task), store) =>
        some ⟨store, now, s.heartbeats ++ [{ task, workerId, renewedAt := now }]⟩
      | _ => none
    else none
  | .tick c now =>
    match s.heartbeats[c]? with
    | some b =>
      if b.live = true ∧ b.beating = true ∧ s.clock ≤ now then some (s.tick leaseOf c b now)
      else none
    | none => none
  | .signalCancel c =>
    s.heartbeats[c]?.map (fun b =>
      { s with heartbeats := s.heartbeats.set c { b with cancellation := true } })
  | .finish c =>
    s.heartbeats[c]?.map (fun b =>
      { s with heartbeats := s.heartbeats.set c { b with beating := false, live := false } })
  | .restart now =>
    (Tasks.step env s.store (.recoverInterrupted now)).map (fun store =>
      { s with store, heartbeats := [] })

end Steps

def Attends (b : Heartbeat) (row : TaskRow) : Prop :=
  b.live = true ∧ row.taskId = b.task.taskId ∧ row.attemptCount = b.task.attemptCount ∧
    row.state.isActive = true

instance (b : Heartbeat) (row : TaskRow) : Decidable (Attends b row) := by
  unfold Attends
  infer_instance

def StillBeats (s : Pulse) : Prop :=
  ∀ b ∈ s.heartbeats, ∀ row ∈ s.store.tasks.rows,
    Attends b row → row.state = .running → b.beating = true

/-- Lease recovery leaves the Task of a live execution as it is, and a tick renews
the lease of a Task that runs. -/
def LeaseKept (env : Env) (leaseOf : String → Time) (s : Pulse) (act : PulseAct) : Prop :=
  match act with
  | .repository (.recoverExpiredLeases _) =>
    ∀ b ∈ s.heartbeats, ∀ row ∈ s.store.tasks.rows, Attends b row →
      row ∈ (next (Pulse.step env leaseOf) s act).store.tasks.rows
  | .tick c now =>
    ∀ b ∈ s.heartbeats[c]?, ∀ row ∈ s.store.tasks.rows, Attends b row → row.state = .running →
      ∃ row' ∈ (next (Pulse.step env leaseOf) s act).store.tasks.rows,
        row'.taskId = row.taskId ∧ row'.state = .running ∧
          row'.leaseExpiresAt = some (now + leaseOf (strip b.workerId))
  | _ => True

/-- A heartbeat loop that has not ended ticks at least every third of its lease. -/
def Punctual (leaseOf : String → Time) (s : Pulse) (act : PulseAct) : Prop :=
  match act with
  | .repository (.recoverExpiredLeases now) =>
    ∀ b ∈ s.heartbeats, b.live = true → b.beating = true →
      now ≤ b.renewedAt + leaseOf (strip b.workerId) / 3
  | _ => True

/-- A tick finds the attempt of its execution RUNNING, over, or superseded, and finds
the latch unset. -/
def TicksRunning (s : Pulse) (act : PulseAct) : Prop :=
  match act with
  | .tick c _ =>
    ∀ b ∈ s.heartbeats[c]?, ∀ row ∈ s.store.tasks.rows, Attends b row →
      b.cancellation = false ∧ row.state ≠ .waitingApproval
  | _ => True

instance (s : Pulse) : Decidable (StillBeats s) := by
  unfold StillBeats
  infer_instance

instance (env : Env) (leaseOf : String → Time) (s : Pulse) (act : PulseAct) :
    Decidable (LeaseKept env leaseOf s act) := by
  cases act with
  | repository op =>
    apply op.casesOn (motive := fun op => Decidable (LeaseKept env leaseOf s (.repository op))) <;> intros <;>
      dsimp only [LeaseKept] <;> infer_instance
  | _ => dsimp only [LeaseKept]; infer_instance

instance (leaseOf : String → Time) (s : Pulse) (act : PulseAct) :
    Decidable (Punctual leaseOf s act) := by
  cases act with
  | repository op =>
    apply op.casesOn (motive := fun op => Decidable (Punctual leaseOf s (.repository op))) <;> intros <;>
      dsimp only [Punctual] <;> infer_instance
  | _ => dsimp only [Punctual]; infer_instance

instance (s : Pulse) (act : PulseAct) : Decidable (TicksRunning s act) := by
  cases act <;> dsimp only [TicksRunning] <;> infer_instance

section Leases

variable {s s' : Store} {op : Op} {v v' : TaskView}

/-- A call of another party that leaves a Task active found it so, under the same
lease and in the same attempt. -/
theorem Move.lease_kept (move : Move s op v v') (beside : op.besideWorker)
    (active : v'.row.state.isActive = true) :
    v.row.state.isActive = true ∧ v'.row.attemptCount = v.row.attemptCount ∧
      v'.row.leaseOwner = v.row.leaseOwner ∧ v'.row.leaseExpiresAt = v.row.leaseExpiresAt := by
  have kept : ∀ {row : TaskRow}, row.control = v.row.control →
      row.leaseOwner = v.row.leaseOwner ∧ row.leaseExpiresAt = v.row.leaseExpiresAt :=
    fun control => ⟨congrArg Control.leaseOwner control, congrArg Control.leaseExpiresAt control⟩
  cases move with
  | touch _ row touched =>
    refine ⟨row.state ▸ active, row.count, ?_⟩
    cases op with
    | activateStaged =>
      have control := touched.2.2.2
      exact ⟨congrArg Control.leaseOwner control, congrArg Control.leaseExpiresAt control⟩
    | renewLease => exact beside.elim
    | _ => exact touched.elim
  | append _ row control => exact ⟨row.state ▸ active, row.count, kept control⟩
  | note running row noted =>
    refine ⟨by rw [running]; rfl, row.count, ?_⟩
    cases op with
    | requestCancel | requestPause =>
      exact ⟨congrArg Control.leaseOwner noted.2, congrArg Control.leaseExpiresAt noted.2⟩
    | _ => exact noted.elim
  | annotate | beginStep | finishStep | saveTrace => exact ⟨active, rfl, rfl, rfl⟩
  | ask running _ _ _ row _ _ control => exact ⟨by rw [running]; rfl, row.count, kept control⟩
  | resolve waiting _ _ _ row control => exact ⟨by rw [waiting]; rfl, row.count, kept control⟩
  | claim | restart | restartWaiting | restartRunning => exact beside.elim
  | cancel _ _ row | cancelWaiting _ _ _ row | pause _ row | pauseWaiting _ _ row | resume _ row
  | expire _ _ row | unknown _ row | resolveQueued _ _ _ _ row =>
    rw [row.state] at active; cases active
  | transit _ _ _ row =>
    rw [row.state, (executorTargets_stopped beside).1] at active
    cases active

theorem Move.claims {now leaseSeconds : Time} {workerId principalId : String}
    (move : Move s (.claimNext now workerId leaseSeconds principalId) v v') :
    v'.row.attemptCount = v.row.attemptCount + 1 := by
  cases move with
  | touch _ _ touched => exact touched.elim
  | note _ _ noted => exact noted.elim
  | claim _ _ _ _ _ row => exact row.attemptCount

def Identified (v : TaskView) : Prop :=
  IsIdentifier v.row.principalId 256 ∧ IsIdentifier v.row.taskId 128

theorem Refines.identified (refines : Refines s op s')
    (limits : ∀ now taskIds request, op = .create now taskIds request →
      IsIdentifier request.scope.principalId 256)
    (h : Everywhere Identified s) : Everywhere Identified s' := by
  intro taskId v seen
  cases refines.changed taskId with
  | same slice => exact h taskId v ((view_of_slice slice).symm.trans seen)
  | moved before after move =>
    rw [after] at seen
    cases seen
    have old := h taskId _ before
    unfold Identified at old ⊢
    rw [identity_principal move.identity, identity_taskId move.identity]
    exact old
  | created _ key _ _ change after trimmed sized requested =>
    rw [after] at seen
    cases seen
    obtain ⟨taskIds, request, created, scope⟩ := requested
    refine ⟨?_, ?_⟩
    · rw [identity_principal change.identity, scope]
      exact limits _ taskIds request created
    · rw [identity_taskId change.identity, key]
      exact ⟨trimmed, sized⟩

end Leases

section Invariant

variable {env : Env} {leaseOf : String → Time} {s s' : Pulse} {store : Store} {op : Op}
  {b : Heartbeat}

/-- The lease of an attended Task is its worker's, and lasts as long as the last
renewal granted. -/
structure Leased (leaseOf : String → Time) (b : Heartbeat) (row : TaskRow) : Prop where
  beating : b.beating = true
  owner : row.leaseOwner = strip b.workerId
  lasts : ∃ expiresAt, row.leaseExpiresAt = some expiresAt ∧
    b.renewedAt + leaseOf (strip b.workerId) ≤ expiresAt

structure Tended (leaseOf : String → Time) (s : Pulse) (b : Heartbeat) : Prop where
  worker : normalizeIdentifier b.workerId "worker_id" 128 = .ok (strip b.workerId)
  lease : 1 ≤ leaseOf (strip b.workerId) ∧ leaseOf (strip b.workerId) ≤ 3600
  past : b.renewedAt ≤ s.clock
  claimed : Claimed s.store b.task
  owned : ∀ v, s.store.view b.task.taskId = some v → v.row.principalId = b.task.principalId
  leased : ∀ v, s.store.view b.task.taskId = some v → Attends b v.row → Leased leaseOf b v.row

structure Beating (leaseOf : String → Time) (s : Pulse) : Prop where
  sound : Sound s.store
  identified : Everywhere Identified s.store
  tended : ∀ b ∈ s.heartbeats, Tended leaseOf s b

theorem Refines.owned {s s' : Store} (refines : Refines s op s') {task : TaskRecord}
    (claimed : Claimed s task)
    (h : ∀ v, s.view task.taskId = some v → v.row.principalId = task.principalId) :
    ∀ v, s'.view task.taskId = some v → v.row.principalId = task.principalId := by
  intro v seen
  cases refines.changed task.taskId with
  | same slice => exact h v ((view_of_slice slice).symm.trans seen)
  | moved before after move =>
    rw [after] at seen
    cases seen
    rw [identity_principal move.identity]
    exact h _ before
  | created absent =>
    obtain ⟨-, w, known, -⟩ := claimed
    rw [known] at absent
    cases absent

theorem Tended.kept (h : Tended leaseOf s b) (refines : Refines s.store op s'.store)
    (clock : s.clock ≤ s'.clock)
    (kept : ∀ v v', Move s.store op v v' → s.store.view b.task.taskId = some v →
      s'.store.view b.task.taskId = some v' → Attends b v'.row → Leased leaseOf b v'.row) :
    Tended leaseOf s' b := by
  refine ⟨h.worker, h.lease, h.past.trans clock, refines.claimed h.claimed,
    refines.owned h.claimed h.owned, ?_⟩
  intro v seen attends
  cases refines.changed b.task.taskId with
  | same slice => exact h.leased v ((view_of_slice slice).symm.trans seen) attends
  | moved before after move =>
    rw [after] at seen
    cases seen
    exact kept _ _ move before after attends
  | created absent =>
    obtain ⟨-, w, known, -⟩ := h.claimed
    rw [known] at absent
    cases absent

theorem Tended.beside (h : Tended leaseOf s b) (refines : Refines s.store op store)
    (beside : op.besideWorker) : Tended leaseOf { s with store } b := by
  refine h.kept refines (le_refl _) ?_
  intro v v' move seen _ attends
  obtain ⟨live, key, count, active⟩ := attends
  obtain ⟨was, same, owner, expiry⟩ := move.lease_kept beside active
  have leased := h.leased v seen
    ⟨live, (identity_taskId move.identity).symm.trans key, same.symm.trans count, was⟩
  refine ⟨leased.beating, owner.trans leased.owner, ?_⟩
  rw [expiry]
  exact leased.lasts

theorem Beating.normalTasks (h : Beating leaseOf s) : NormalTasks s.store := by
  intro taskId v seen
  have trimmed := (h.identified taskId v seen).2.1
  rwa [view_taskId seen] at trimmed

theorem Beating.repository (h : Beating leaseOf s) (beside : op.besideWorker)
    (taken : Tasks.step env s.store op = some store) : Beating leaseOf { s with store } := by
  have refines := step_refines h.sound.rooted taken
  refine ⟨h.sound.kept taken, refines.identified ?_ h.identified, ?_⟩
  · rintro now taskIds request rfl
    exact beside
  · intro b member
    exact (h.tended b member).beside refines beside

variable {now : Time}

theorem claimNext_asked {s s' : Store} {leaseSeconds : Time} {workerId principalId : String}
    {result : Option TaskRecord}
    (h : claimNext env now workerId leaseSeconds principalId s = .ok (result, s')) :
    normalizeIdentifier workerId "worker_id" 128 = .ok (strip workerId) ∧
      1 ≤ leaseSeconds ∧ leaseSeconds ≤ 3600 := by
  obtain ⟨worker, normal, _, lease, h⟩ := of_bind₂ h
  refine ⟨?_, require_ok_iff.mp lease⟩
  rw [normal, normalizeIdentifier_ok normal]

theorem Beating.claimed (h : Beating leaseOf s) {now : Time} {workerId : String}
    {task : TaskRecord} (later : s.clock ≤ now)
    (claim : claimNext env now workerId (leaseOf (strip workerId)) "" s.store =
      .ok (some task, store)) :
    Beating leaseOf ⟨store, now, s.heartbeats ++ [{ task, workerId, renewedAt := now }]⟩ := by
  have taken : Tasks.step env s.store (.claimNext now workerId (leaseOf (strip workerId)) "") =
      some store := by
    simp only [Tasks.step, Op.call, commit_ok_iff.mpr claim, outcome, Except.map]
  have refines := step_refines h.sound.rooted taken
  refine ⟨h.sound.kept taken, refines.identified (by simp) h.identified, ?_⟩
  intro b member
  rcases List.mem_concat.mp member with old | new
  · refine (h.tended b old).kept refines later ?_
    intro v v' move seen _ attends
    obtain ⟨-, w, seen', bound⟩ := (h.tended b old).claimed
    rw [seen, Option.some.injEq] at seen'
    subst seen'
    have moved := move.claims
    have count := attends.2.2.1
    omega
  · rw [new]
    obtain ⟨-, claimed, -⟩ := claimNext_claimed h.normalTasks claim
    obtain ⟨principal, v, attempt, payload, -, -, seen, change, control, -, -, writes⟩ :=
      claimNext_effect claim
    obtain ⟨worker, lease⟩ := claimNext_asked claim
    have key : task.taskId = v.row.taskId := identity_taskId change.identity
    have after := writes.view_some seen
    rw [← key] at after
    refine ⟨worker, lease, le_refl _, claimed, ?_, ?_⟩
    · intro w seen'
      rw [after, Option.some.injEq] at seen'
      rw [← seen']
    · intro w seen' _
      rw [after, Option.some.injEq] at seen'
      rw [← seen']
      exact ⟨rfl, congrArg Control.leaseOwner control, _,
        congrArg Control.leaseExpiresAt control, le_refl _⟩

theorem Tended.renew (h : Tended leaseOf s b) {principalId named workerId : String}
    (refines : Refines s.store
      (.renewLease now principalId named workerId (leaseOf (strip workerId))) s'.store)
    (later : s.clock ≤ now) (clock : s'.clock = now) : Tended leaseOf s' b := by
  refine h.kept refines (later.trans clock.ge) ?_
  intro v v' move seen _ attends
  cases move with
  | note _ _ noted => exact noted.elim
  | touch _ row touched =>
    obtain ⟨-, -, holder, control⟩ := touched
    obtain ⟨live, key, count, active⟩ := attends
    have leased := h.leased v seen
      ⟨live, (identity_taskId row.identity).symm.trans key, row.count.symm.trans count,
        row.state ▸ active⟩
    have same : strip workerId = strip b.workerId := holder.symm.trans leased.owner
    refine ⟨leased.beating, (congrArg Control.leaseOwner control).trans leased.owner, _,
      congrArg Control.leaseExpiresAt control, ?_⟩
    have past := h.past.trans later
    rw [same]
    linarith

theorem Beating.renews (h : Beating leaseOf s) (tended : Tended leaseOf s b) {v : TaskView}
    (seen : s.store.view b.task.taskId = some v) (attends : Attends b v.row)
    (running : v.row.state = .running) (now : Time) :
    ∃ store, renewLease now b.task.principalId b.task.taskId b.workerId
      (leaseOf (strip b.workerId)) s.store = .ok (true, store) := by
  obtain ⟨owner, name⟩ := h.identified _ v seen
  rw [tended.owned v seen] at owner
  rw [view_taskId seen] at name
  have holds : holdsLease b.task.principalId b.task.taskId (strip b.workerId) v.row = true := by
    simp only [holdsLease, Bool.and_eq_true, beq_iff_eq]
    exact ⟨⟨⟨tended.owned v seen, view_taskId seen⟩, running⟩, (tended.leased v seen attends).owner⟩
  have known := view_mem seen
  have any := List.any_eq_true.mpr ⟨v.row, known, holds⟩
  unfold renewLease
  rw [require_of tended.lease, normalizeIdentifier, owner.stripped, normalizeIdentifier,
    name.stripped, tended.worker]
  simp only [ok_bind, any]
  exact ⟨_, rfl⟩

theorem Tended.later (h : Tended leaseOf s b) {now : Time} (later : s.clock ≤ now)
    (heartbeats : List Heartbeat) : Tended leaseOf ⟨s.store, now, heartbeats⟩ b :=
  { h with
    past := h.past.trans later }

theorem Tended.ends (h : Tended leaseOf s b)
    (unattended : ∀ v, s.store.view b.task.taskId = some v → ¬ Attends b v.row) :
    Tended leaseOf s { b with beating := false } :=
  { h with
    leased := fun v seen attends => absurd attends (unattended v seen) }

theorem active_running {state : TaskState} (active : state.isActive = true)
    (unasked : state ≠ .waitingApproval) : state = .running := by
  cases state <;> simp_all [TaskState.isActive]

variable {c : Nat}

theorem Beating.set {b' : Heartbeat} {now : Time} (sound : Sound store)
    (identified : Everywhere Identified store)
    (others : ∀ b ∈ s.heartbeats, Tended leaseOf ⟨store, now, s.heartbeats.set c b'⟩ b)
    (tended : Tended leaseOf ⟨store, now, s.heartbeats.set c b'⟩ b') :
    Beating leaseOf ⟨store, now, s.heartbeats.set c b'⟩ := by
  refine ⟨sound, identified, ?_⟩
  intro b member
  rcases List.mem_or_eq_of_mem_set member with old | rfl
  · exact others b old
  · exact tended

theorem Beating.ends (h : Beating leaseOf s) (found : s.heartbeats[c]? = some b)
    (later : s.clock ≤ now)
    (unattended : ∀ v, s.store.view b.task.taskId = some v → ¬ Attends b v.row) :
    Beating leaseOf ⟨s.store, now, s.heartbeats.set c { b with beating := false }⟩ :=
  .set h.sound h.identified (fun b member => (h.tended b member).later later _)
    (((h.tended b (List.mem_of_getElem? found)).later later _).ends unattended)

theorem Beating.renewed (h : Beating leaseOf s) (found : s.heartbeats[c]? = some b)
    (beats : b.beating = true) (later : s.clock ≤ now)
    (taken : Tasks.step env s.store
      (.renewLease now b.task.principalId b.task.taskId b.workerId (leaseOf (strip b.workerId))) =
      some store)
    (renewal : renewLease now b.task.principalId b.task.taskId b.workerId
      (leaseOf (strip b.workerId)) s.store = .ok (true, store)) :
    Beating leaseOf ⟨store, now, s.heartbeats.set c { b with renewedAt := now }⟩ := by
  have refines := renewLease_refines renewal
  have tended := h.tended b (List.mem_of_getElem? found)
  refine .set (h.sound.kept taken) (refines.identified (by simp) h.identified)
    (fun b member => (h.tended b member).renew refines later rfl) ?_
  obtain ⟨-, v, row', seen, holds, change, control, writes⟩ | ⟨refused, -⟩ :=
    renewLease_effect renewal
  · have after := writes.view_some seen
    rw [tended.claimed.1] at after
    simp only [holdsLease, Bool.and_eq_true, beq_iff_eq] at holds
    refine ⟨tended.worker, tended.lease, le_refl _, refines.claimed tended.claimed,
      refines.owned tended.claimed tended.owned, ?_⟩
    intro w seen' _
    rw [after, Option.some.injEq] at seen'
    rw [← seen']
    exact ⟨beats, (congrArg Control.leaseOwner control).trans holds.2, _,
      congrArg Control.leaseExpiresAt control, le_refl _⟩
  · cases refused

theorem Beating.tick (h : Beating leaseOf s) (found : s.heartbeats[c]? = some b)
    (beats : b.beating = true) (later : s.clock ≤ now) (clean : TicksRunning s (.tick c now)) :
    Beating leaseOf (s.tick leaseOf c b now) := by
  have tended := h.tended b (List.mem_of_getElem? found)
  have attended : ∀ v, s.store.view b.task.taskId = some v → Attends b v.row →
      b.cancellation = false ∧ v.row.state = .running := by
    intro v seen attends
    obtain ⟨unset, unasked⟩ := clean b found v.row (view_mem seen) attends
    exact ⟨unset, active_running attends.2.2.2 unasked⟩
  unfold Pulse.tick
  split
  · rename_i latched
    apply h.ends found later
    intro v seen attends
    rw [(attended v seen attends).1] at latched
    cases latched
  · split
    · rename_i store returned
      have taken : Tasks.step sampleEnv s.store (.renewLease now b.task.principalId
          b.task.taskId b.workerId (leaseOf (strip b.workerId))) = some store := by
        simp only [Tasks.step, Op.call, returned, outcome, Except.map]
      exact h.renewed found beats later taken (commit_ok_iff.mp returned)
    · rename_i result store refused returned
      have unchanged : store = s.store := by
        cases result with
        | error e =>
          have kept := commit_error (s := s.store) (by rw [returned])
          rwa [returned] at kept
        | ok renewed =>
          cases renewed with
          | true => exact absurd rfl refused
          | false =>
            obtain ⟨claimed, -⟩ | ⟨-, same, -⟩ := renewLease_effect (commit_ok_iff.mp returned)
            · cases claimed
            · exact same
      rw [unchanged]
      apply h.ends found later
      intro v seen attends
      obtain ⟨renewed, renewal⟩ := h.renews tended seen attends (attended v seen attends).2 now
      rw [commit_ok_iff.mpr renewal] at returned
      cases returned
      exact refused rfl

theorem Pulse.repository_taken (taken : s.step env leaseOf (.repository op) = some s') :
    op.besideWorker ∧ ∃ store, Tasks.step env s.store op = some store ∧ s' = { s with store } := by
  unfold Pulse.step at taken
  dsimp only at taken
  split at taken
  · rename_i beside
    obtain ⟨store, called, rfl⟩ := Option.map_eq_some_iff.mp taken
    exact ⟨beside, store, called, rfl⟩
  · cases taken

theorem Pulse.tick_taken (taken : s.step env leaseOf (.tick c now) = some s') :
    ∃ b, s.heartbeats[c]? = some b ∧ b.beating = true ∧ s.clock ≤ now ∧
      s' = s.tick leaseOf c b now := by
  unfold Pulse.step at taken
  dsimp only at taken
  split at taken
  · rename_i b found
    split at taken <;> cases taken
    rename_i ready
    exact ⟨b, found, ready.2.1, ready.2.2, rfl⟩
  · cases taken

theorem Beating.kept (h : Beating leaseOf s) {act : PulseAct} (clean : TicksRunning s act)
    (taken : s.step env leaseOf act = some s') : Beating leaseOf s' := by
  cases act with
  | repository op =>
    obtain ⟨beside, store, called, rfl⟩ := Pulse.repository_taken taken
    exact h.repository beside called
  | claim now workerId =>
    unfold Pulse.step at taken
    dsimp only at taken
    split at taken
    · rename_i later
      split at taken <;> cases taken
      rename_i task store returned
      exact h.claimed later (commit_ok_iff.mp returned)
    · cases taken
  | tick c now =>
    obtain ⟨b, found, beats, later, rfl⟩ := Pulse.tick_taken taken
    exact h.tick found beats later clean
  | signalCancel c =>
    obtain ⟨b, found, rfl⟩ := Option.map_eq_some_iff.mp taken
    have tended := h.tended b (List.mem_of_getElem? found)
    refine .set h.sound h.identified (fun b member => ?_) ?_
    · exact (h.tended b member).later (le_refl _) _
    · refine ⟨tended.worker, tended.lease, tended.past, tended.claimed, tended.owned, ?_⟩
      intro v seen attends
      obtain ⟨beats, owner, lasts⟩ := tended.leased v seen attends
      exact ⟨beats, owner, lasts⟩
  | finish c =>
    obtain ⟨b, found, rfl⟩ := Option.map_eq_some_iff.mp taken
    have tended := h.tended b (List.mem_of_getElem? found)
    refine .set h.sound h.identified (fun b member => ?_) ?_
    · exact (h.tended b member).later (le_refl _) _
    · refine ⟨tended.worker, tended.lease, tended.past, tended.claimed, tended.owned, ?_⟩
      rintro v - ⟨live, -⟩
      cases live
  | restart now =>
    obtain ⟨store, called, rfl⟩ := Option.map_eq_some_iff.mp taken
    refine ⟨h.sound.kept called,
      (step_refines h.sound.rooted called).identified (by simp) h.identified, ?_⟩
    intro b member
    cases member

theorem Beating.stillBeats (h : Beating leaseOf s) : StillBeats s := by
  intro b member row known attends _
  obtain ⟨v, seen, rfl⟩ := view_of_mem known
  rw [attends.2.1] at seen
  exact ((h.tended b member).leased v seen attends).beating

theorem Beating.unexpired (h : Beating leaseOf s)
    (punctual : Punctual leaseOf s (.repository (.recoverExpiredLeases now)))
    (member : b ∈ s.heartbeats) {v : TaskView} (seen : s.store.view b.task.taskId = some v)
    (attends : Attends b v.row) : leaseExpired now v.row = false := by
  have tended := h.tended b member
  obtain ⟨beats, -, expiresAt, expiry, lasts⟩ := tended.leased v seen attends
  have ticked := punctual b member attends.1 beats
  have positive := tended.lease.1
  have current : now ≤ expiresAt := by linarith
  simp [leaseExpired, expiry, current]

theorem Beating.leaseKept (h : Beating leaseOf s) {act : PulseAct}
    (punctual : Punctual leaseOf s act) (clean : TicksRunning s act)
    (taken : s.step env leaseOf act = some s') : LeaseKept env leaseOf s act := by
  cases act with
  | repository op =>
    cases op with
    | recoverExpiredLeases now =>
      intro b member row known attends
      rw [Transition.next_of_some taken]
      obtain ⟨-, store, called, rfl⟩ := Pulse.repository_taken taken
      obtain ⟨events, returned⟩ := commit_returned (step_eq_some called)
      have writes := recoverExpiredLeases_effect returned
      obtain ⟨v, seen, rfl⟩ := view_of_mem known
      have still := h.unexpired punctual member (by rwa [attends.2.1] at seen) attends
      have slice := writes.frame v.row.taskId ?_
      · exact Table.lookup_mem (view_eq_some_iff.mp ((view_of_slice slice).trans seen)).1
      · intro selected
        have expired := (selected_iff seen).mp selected
        rw [still] at expired
        cases expired
    | _ => trivial
  | tick c now =>
    intro b found row known attends running
    rw [Transition.next_of_some taken]
    obtain ⟨b', found', -, -, rfl⟩ := Pulse.tick_taken taken
    have same : b' = b := Option.some.inj (found'.symm.trans found)
    subst same
    have tended := h.tended b' (List.mem_of_getElem? found')
    obtain ⟨v, seen, rfl⟩ := view_of_mem known
    rw [attends.2.1] at seen
    obtain ⟨store, renewal⟩ := h.renews tended seen attends running now
    unfold Pulse.tick
    rw [(clean b' found' v.row known attends).1, commit_ok_iff.mpr renewal]
    rcases renewLease_effect renewal with
      ⟨-, w, row', seen', -, change, control, writes⟩ | ⟨refused, -⟩
    · rw [tended.claimed.1, seen, Option.some.injEq] at seen'
      subst seen'
      have after := writes.view_some (by rwa [tended.claimed.1])
      refine ⟨row', view_mem after, identity_taskId change.identity, change.state.trans running,
        congrArg Control.leaseExpiresAt control⟩
    · cases refused
  | _ => trivial

end Invariant

section Runs

/-- An empty repository, opened at a time of the clock, and no execution yet. -/
def Pulse.initial (sessions : Table SessionRow.sessionHandle)
    (definitions : Table DefinitionRow.taskId) (executions : Table ExecutionRow.executionId)
    (start : Time) : Pulse where
  store := .initial sessions definitions executions
  clock := start
  heartbeats := []

theorem live_executors_keep_leases (env : Env) (leaseOf : String → Time)
    (sessions : Table SessionRow.sessionHandle) (definitions : Table DefinitionRow.taskId)
    (executions : Table ExecutionRow.executionId) (start : Time) (acts : List PulseAct)
    (punctual : ∀ taken ∈ accepted (Pulse.step env leaseOf)
      (.initial sessions definitions executions start) acts, Punctual leaseOf taken.1 taken.2)
    (clean : ∀ taken ∈ accepted (Pulse.step env leaseOf)
      (.initial sessions definitions executions start) acts, TicksRunning taken.1 taken.2) :
    (∀ s ∈ trace (Pulse.step env leaseOf) (.initial sessions definitions executions start) acts,
        StillBeats s) ∧
      ∀ taken ∈ accepted (Pulse.step env leaseOf)
        (.initial sessions definitions executions start) acts,
        LeaseKept env leaseOf taken.1 taken.2 := by
  have beating : Beating leaseOf (.initial sessions definitions executions start) :=
    ⟨initial_sound sessions definitions executions,
      initial_everywhere sessions definitions executions _, fun _ member => by cases member⟩
  have kept : ∀ s act s', Beating leaseOf s → Punctual leaseOf s act ∧ TicksRunning s act →
      Pulse.step env leaseOf s act = some s' → Beating leaseOf s' :=
    fun _ _ _ held clean taken => held.kept clean.2 taken
  have good : ∀ s act s', Beating leaseOf s → Punctual leaseOf s act ∧ TicksRunning s act →
      Pulse.step env leaseOf s act = some s' → LeaseKept env leaseOf s act :=
    fun _ _ _ held clean taken => held.leaseKept clean.1 clean.2 taken
  have both := fun taken member => And.intro (punctual taken member) (clean taken member)
  refine ⟨?_, Transition.accepted_of_clean kept good beating both⟩
  intro s reached
  exact (Transition.trace_safe_of_clean kept beating both s reached).stillBeats

end Runs

section Sample

def sampleLease (_ : String) : Time := 60

def samplePulse : Pulse := .initial sampleSessions .empty .empty 0

def sampleApproval : ApprovalRequest := ⟨"step", "call", "tool", .emptyObject, "", none⟩

def tickAfterApproval : List PulseAct :=
  [.repository (sampleCreate "t"), .claim 0 "w", .tick 0 20,
    .repository (.requestApproval 25 (fun _ => "a") "p" "t" sampleApproval),
    .repository (.resolveApproval 35 "p" "a" true .running "u"), .tick 0 40,
    .repository (.recoverExpiredLeases 60)]

theorem live_executors_keep_leases_approval :
    (∀ s ∈ trace (Pulse.step sampleEnv sampleLease) samplePulse tickAfterApproval, StillBeats s) ∧
      ∀ taken ∈ accepted (Pulse.step sampleEnv sampleLease) samplePulse tickAfterApproval,
        LeaseKept sampleEnv sampleLease taken.1 taken.2 :=
  live_executors_keep_leases sampleEnv sampleLease sampleSessions .empty .empty 0
    tickAfterApproval (by decide +kernel) (by decide +kernel)

def tickInApprovalWait : List PulseAct :=
  [.repository (sampleCreate "t"), .claim 0 "w",
    .repository (.requestApproval 10 (fun _ => "a") "p" "t" sampleApproval), .tick 0 20,
    .repository (.resolveApproval 30 "p" "a" true .running "u"),
    .repository (.recoverExpiredLeases 100)]

theorem live_executor_loses_lease :
    (∀ taken ∈ accepted (Pulse.step sampleEnv sampleLease) samplePulse tickInApprovalWait,
        Punctual sampleLease taken.1 taken.2) ∧
      (¬ ∀ s ∈ trace (Pulse.step sampleEnv sampleLease) samplePulse tickInApprovalWait,
        StillBeats s) ∧
      ¬ ∀ taken ∈ accepted (Pulse.step sampleEnv sampleLease) samplePulse tickInApprovalWait,
        LeaseKept sampleEnv sampleLease taken.1 taken.2 := by
  decide +kernel

end Sample

end Knoa.Tasks
