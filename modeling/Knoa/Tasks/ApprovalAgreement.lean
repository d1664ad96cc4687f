import Knoa.Tasks.Exclusivity

/-!
# Approvals and the waiting state

`request_cancel` and `request_pause` cancel the pending row of the Task they stop;
`transition`, whose table also leads out of WAITING_APPROVAL, does not.
-/
namespace Knoa.Tasks
open Relational (Table)
open Transition (trace accepted)

def pendingOf (s : Store) (taskId : String) : List ApprovalRow :=
  (s.approvalsOf taskId).filter (fun row => row.state == .pending)

/-- The claimed agreement of the two tables, and what a repeated request finds. -/
structure ApprovalsAgree (env : Env) (s : Store) : Prop where
  waiting : ∀ row ∈ s.tasks.rows, row.state = .waitingApproval ↔ (pendingOf s row.taskId).length = 1
  unowned : ∀ row ∈ s.tasks.rows, row.state ≠ .waitingApproval → pendingOf s row.taskId = []
  repeated : ∀ (now : Time) (approvalIds : Nat → String) (principalId taskId : String)
    (request : ApprovalRequest) (result : TaskApprovalRecord × TaskEvent × Bool) (s' : Store),
    requestApproval env now approvalIds principalId taskId request s = (.ok result, s') →
    result.1.state = .pending →
    ∃ row ∈ s'.tasks.rows, row.taskId = strip taskId ∧ row.state = .waitingApproval

def NotFromWaiting (s : Store) : Op → Prop
  | .transition _ _ taskId _ _ =>
    ∀ row ∈ s.tasks.rows, row.taskId = strip taskId → row.state ≠ .waitingApproval
  | _ => True

def isPending (row : ApprovalRow) : Bool := row.state == .pending

def Agrees (v : TaskView) : Prop :=
  (v.approvals.filter isPending).length = if v.row.state = .waitingApproval then 1 else 0

namespace Agrees

variable {v v' : TaskView}

theorem nothing (h : Agrees v) (state : v.row.state ≠ .waitingApproval) :
    v.approvals.filter isPending = [] := by
  unfold Agrees at h
  rw [if_neg state] at h
  exact List.eq_nil_of_length_eq_zero h

theorem one (h : Agrees v) (state : v.row.state = .waitingApproval) :
    (v.approvals.filter isPending).length = 1 := by
  unfold Agrees at h
  rwa [if_pos state] at h

theorem keep (h : Agrees v) (approvals : v'.approvals = v.approvals)
    (state : v'.row.state = v.row.state) : Agrees v' := by
  unfold Agrees
  rw [approvals, state]
  exact h

theorem apart (h : Agrees v) (approvals : v'.approvals = v.approvals)
    (before : v.row.state ≠ .waitingApproval) (after : v'.row.state ≠ .waitingApproval) :
    Agrees v' := by
  unfold Agrees
  rw [approvals, h.nothing before, if_neg after]
  rfl

theorem settled (none : ∀ row ∈ v'.approvals, row.state ≠ .pending)
    (after : v'.row.state ≠ .waitingApproval) : Agrees v' := by
  have empty : v'.approvals.filter isPending = [] := by
    rw [List.filter_eq_nil_iff]
    intro row member
    simpa [isPending] using none row member
  unfold Agrees
  rw [empty, if_neg after]
  rfl

end Agrees

theorem annotateApprovals_pending (approvalId reason : String) (approvals : List ApprovalRow) :
    ((annotateApprovals approvalId reason approvals).filter isPending).length =
      (approvals.filter isPending).length := by
  unfold annotateApprovals
  rw [List.filter_map, List.length_map]
  congr 2
  funext row
  simp only [Function.comp]
  split <;> rfl

theorem cancelPending_none (now : Time) (resolvedBy : String) (approvals : List ApprovalRow) :
    ∀ row ∈ cancelPending now resolvedBy approvals, row.state ≠ .pending := by
  intro row member
  obtain ⟨old, -, rfl⟩ := List.mem_map.mp member
  split
  · simp
  · assumption

variable {now : Time}

theorem decideApproval_none {approval : ApprovalRow} {approvals : List ApprovalRow}
    {state : ApprovalState} {resolvedBy : String} (one : (approvals.filter isPending).length = 1)
    (known : approval ∈ approvals) (pending : approval.state = .pending)
    (decided : state ≠ .pending) :
    ∀ row ∈ decideApproval approval.approvalId state now resolvedBy approvals,
      row.state ≠ .pending := by
  obtain ⟨only, alone⟩ := List.length_eq_one_iff.mp one
  have unique : ∀ row ∈ approvals, row.state = .pending → row = only := by
    intro row member waits
    have selected : row ∈ approvals.filter isPending :=
      List.mem_filter.mpr ⟨member, by simp [isPending, waits]⟩
    rwa [alone, List.mem_singleton] at selected
  intro row member
  obtain ⟨old, present, rfl⟩ := List.mem_map.mp member
  split
  · exact decided
  · rename_i untouched
    intro waits
    have same : old.approvalId = approval.approvalId := by
      rw [unique old present waits, unique approval known pending]
    exact untouched ⟨same, waits⟩

variable {s : Store} {taskId : String}

theorem Move.agrees {op : Op} {v v' : TaskView} (move : Move s op v v')
    (seen : s.view taskId = some v) (target : op.byExecutor) (clean : NotFromWaiting s op)
    (h : Agrees v) : Agrees v' := by
  cases move with
  | touch _ row | append _ row => exact h.keep rfl row.state
  | note running row => exact h.keep rfl (row.state.trans running.symm)
  | restart | beginStep | finishStep | saveTrace => exact h.keep rfl rfl
  | restartWaiting waiting row => exact h.keep rfl (row.state.trans waiting.symm)
  | cancel stopped _ row =>
    refine h.apart rfl ?_ (by simp [row.state])
    rcases stopped with state | state <;> rw [state] <;> decide
  | pause queued row | claim queued _ _ _ _ row =>
    exact h.apart rfl (by simp [queued]) (by simp [row.state])
  | resume paused row => exact h.apart rfl (by simp [paused]) (by simp [row.state])
  | expire running _ row | restartRunning running row | unknown running row =>
    exact h.apart rfl (by simp [running]) (by simp [row.state])
  | cancelWaiting _ _ _ row | pauseWaiting _ _ row =>
    exact .settled (cancelPending_none _ _ _) (by simp [row.state])
  | transit _ named _ row =>
    have known := view_mem seen
    refine h.apart rfl (clean v.row known named) ?_
    intro waits
    rw [row.state] at waits
    have still := (executorTargets_stopped target).1
    rw [waits] at still
    cases still
  | annotate =>
    unfold Agrees
    rw [annotateApprovals_pending]
    exact h
  | ask running _ _ pending row =>
    unfold Agrees
    rw [List.filter_append, h.nothing (by simp [running]), row.state]
    simp [isPending, pending]
  | resolve waiting known pending _ row | resolveQueued waiting known pending _ row =>
    refine .settled (decideApproval_none (h.one waiting) known pending ?_) (by simp [row.state])
    split <;> decide

theorem pendingOf_view {v : TaskView} (seen : s.view taskId = some v) :
    pendingOf s taskId = v.approvals.filter isPending := by
  rw [view_approvals seen]
  rfl

variable {env : Env} {s' : Store}

theorem requestApproval_waits {approvalIds : Nat → String} {principalId : String}
    {request : ApprovalRequest} {result : TaskApprovalRecord × TaskEvent × Bool} (rooted : Rooted s)
    (agrees : Everywhere Agrees s)
    (h : requestApproval env now approvalIds principalId taskId request s = (.ok result, s'))
    (pending : result.1.state = .pending) :
    ∃ row ∈ s'.tasks.rows, row.taskId = strip taskId ∧ row.state = .waitingApproval := by
  obtain ⟨fields, normal, ⟨existing, -, rfl⟩ | ⟨approvalId, task, -, -, owned, once⟩⟩ :=
    requestApproval_ok h
  · have member := List.mem_of_find?_eq_some existing
    have selected := List.find?_some existing
    simp only [Bool.and_eq_true, beq_iff_eq] at selected
    obtain ⟨v, seen, known⟩ := approval_view rooted member
    have waits : v.row.state = .waitingApproval := by
      apply Decidable.byContradiction
      intro other
      have none := (agrees _ v seen).nothing other
      have present : result.1 ∈ v.approvals.filter isPending :=
        List.mem_filter.mpr ⟨known, by simp [isPending, pending]⟩
      rw [none] at present
      cases present
    refine ⟨v.row, view_mem seen, ?_, waits⟩
    rw [view_taskId seen, selected.1, normalizeApproval_ok normal]
  · obtain ⟨v, seen, -, -, writes⟩ := openApproval_effect owned once
    have after := writes.view_some seen
    refine ⟨_, view_mem after, ?_, rfl⟩
    rw [view_taskId after, normalizeApproval_ok normal]

theorem approvalsAgree_iff (rooted : Rooted s) : ApprovalsAgree env s ↔ Everywhere Agrees s := by
  constructor
  · intro agree taskId v seen
    have known := view_mem seen
    have key := view_taskId seen
    unfold Agrees
    rw [← pendingOf_view seen, ← key]
    split
    · rename_i waits
      exact (agree.waiting v.row known).mp waits
    · rename_i still
      rw [agree.unowned v.row known still]
      rfl
  · intro agrees
    refine ⟨?_, ?_, ?_⟩
    · intro row known
      obtain ⟨v, seen, rfl⟩ := view_of_mem known
      have here := agrees _ v seen
      rw [pendingOf_view seen]
      constructor
      · exact here.one
      · intro one
        apply Decidable.byContradiction
        intro other
        rw [here.nothing other] at one
        cases one
    · intro row known still
      obtain ⟨v, seen, rfl⟩ := view_of_mem known
      rw [pendingOf_view seen]
      exact (agrees _ v seen).nothing still
    · intro now approvalIds principalId taskId request result s' returned pending
      exact requestApproval_waits rooted agrees returned pending

theorem transition_orphans {principalId : String} {target : TaskState}
    {metadata : TransitionMetadata}
    (taken : step env s (.transition now principalId taskId target metadata) = some s')
    (executor : target ∈ executorTargets) (before : Everywhere Agrees s)
    (after : Everywhere Agrees s') :
    NotFromWaiting s (.transition now principalId taskId target metadata) := by
  obtain ⟨result, returned⟩ := commit_returned (step_eq_some taken)
  obtain ⟨v, seen, -, writes⟩ := transition_effect returned
  intro row known key waits
  have found := Table.lookup_of_mem known
  rw [key, (view_eq_some_iff.mp seen).1] at found
  cases found
  have one := (before _ v seen).one waits
  have none := (after _ _ (writes.view_some seen)).nothing (by
    intro still
    have stopped := (executorTargets_stopped executor).1
    rw [show target = .waitingApproval from still] at stopped
    cases stopped)
  rw [show v.approvals.filter isPending = [] from none] at one
  cases one

theorem step_agree_iff {op : Op} (target : op.byExecutor) (sound : Sound s)
    (agree : ApprovalsAgree env s) (taken : step env s op = some s') :
    ApprovalsAgree env s' ↔ NotFromWaiting s op := by
  have refines := step_refines sound.rooted taken
  rw [approvalsAgree_iff sound.rooted] at agree
  rw [approvalsAgree_iff (refines.rooted sound.rooted)]
  constructor
  · intro after
    cases op with
    | transition => exact transition_orphans taken target agree after
    | _ => exact True.intro
  · intro clean taskId v' seen
    cases refines.changed taskId with
    | same slice => exact agree taskId v' (by rw [← view_of_slice slice, seen])
    | moved before after move =>
      rw [after] at seen
      cases seen
      exact move.agrees before target clean (agree _ _ before)
    | created _ _ _ _ change after =>
      rw [after] at seen
      cases seen
      unfold Agrees
      rw [change.state]
      rfl

theorem waiting_agrees_with_approvals_iff (env : Env)
    (sessions : Table SessionRow.sessionHandle) (definitions : Table DefinitionRow.taskId)
    (executions : Table ExecutionRow.executionId) (ops : List Op)
    (targets : ∀ op ∈ ops, op.byExecutor) :
    (∀ s ∈ trace (step env) (Store.initial sessions definitions executions) ops,
        ApprovalsAgree env s) ↔
      ∀ taken ∈ accepted (step env) (Store.initial sessions definitions executions) ops,
        NotFromWaiting taken.1 taken.2 := by
  have kept : ∀ s op s', Sound s → step env s op = some s' → Sound s' :=
    fun _ _ _ sound taken => sound.kept taken
  have exact_step : ∀ s op s', op.byExecutor → Sound s → ApprovalsAgree env s →
      step env s op = some s' → (ApprovalsAgree env s' ↔ NotFromWaiting s op) :=
    fun _ _ _ target sound agree taken => step_agree_iff target sound agree taken
  have sound := initial_sound sessions definitions executions
  have start : ApprovalsAgree env (Store.initial sessions definitions executions) :=
    (approvalsAgree_iff sound.rooted).mpr
      (initial_everywhere sessions definitions executions Agrees)
  exact Transition.trace_safe_iff kept exact_step sound start targets

/-- A pause is asked for, the turn then asks for an approval and ends, and the
executor moves the Task to PAUSED at its safe boundary. -/
def pausedAtBoundary : List Op :=
  [sampleCreate "t", .claimNext 0 "w" 60 "", .requestPause 1 "p" "t" "",
    .requestApproval 2 (fun _ => "a") "p" "t"
      { toolStepId := "k", toolCallId := "c", toolName := "write", arguments := .emptyObject },
    .transition 3 "p" "t" .paused { phase := "manual_pause" }]

theorem waiting_agrees_with_approvals_iff_boundary :
    (∀ s ∈ trace (step sampleEnv) sampleStore pausedAtBoundary, ApprovalsAgree sampleEnv s) ↔
      ∀ taken ∈ accepted (step sampleEnv) sampleStore pausedAtBoundary,
        NotFromWaiting taken.1 taken.2 :=
  waiting_agrees_with_approvals_iff sampleEnv sampleSessions .empty .empty _
    (by simp [pausedAtBoundary, Op.byExecutor, executorTargets, sampleCreate])

theorem paused_task_owns_pending_approval :
    ¬ ∀ s ∈ trace (step sampleEnv) sampleStore pausedAtBoundary, ApprovalsAgree sampleEnv s := by
  intro along
  have last := (along _ (Transition.mem_trace_final _ _)).unowned
  revert last
  decide +kernel

end Knoa.Tasks
