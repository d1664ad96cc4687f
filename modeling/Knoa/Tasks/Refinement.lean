import Knoa.Tasks.Moves

/-!
# Every call refines a move

One lemma for each operation: a call that returns makes, on the one Task it
touches, the move of its label.
-/
namespace Knoa.Tasks
open Relational Transaction

section Primitives

variable {env : Env} {s t : Store} {taskId : String}

theorem mem_attemptsOf {row : AttemptRow} :
    row ∈ s.attemptsOf taskId ↔ row ∈ s.attempts.rows ∧ row.taskId = taskId := Table.mem_owned

theorem mem_approvalsOf {row : ApprovalRow} :
    row ∈ s.approvalsOf taskId ↔ row ∈ s.approvals.rows ∧ row.taskId = taskId := Table.mem_owned

theorem mem_stepsOf {row : ToolStepRow} :
    row ∈ s.stepsOf taskId ↔ row ∈ s.steps.rows ∧ row.taskId = taskId := Table.mem_owned

theorem mem_eventsOf {row : EventRow} :
    row ∈ s.eventsOf taskId ↔ row ∈ s.events.rows ∧ row.taskId = taskId := Table.mem_owned

variable {v : TaskView}

section
variable (seen : s.view taskId = some v)
include seen

theorem view_attempts : v.attempts = s.attemptsOf taskId := (view_eq_some_iff.mp seen).2.2.1

theorem view_approvals : v.approvals = s.approvalsOf taskId := (view_eq_some_iff.mp seen).2.2.2.2.1

theorem view_steps : v.steps = s.stepsOf taskId := (view_eq_some_iff.mp seen).2.2.2.1

theorem view_events : v.events = s.eventsOf taskId := (view_eq_some_iff.mp seen).2.1

end

theorem writes_finishActiveAttempt (state : TaskAttemptState) (now : Time) (failureCode : String) :
    Writes taskId
      (fun v => { v with attempts := finishRunning state now failureCode v.attempts })
      s (finishActiveAttempt s taskId state now failureCode) := by
  refine Writes.congr (writes_updateAttempts
    (p := fun row => row.taskId == taskId && row.state == .running)
    (f := fun row => { row with state, finishedAt := some now, failureCode })
    (fun _ => rfl) (fun _ => rfl) ?_) ?_
  · intro row _ selected
    simp only [Bool.and_eq_true, beq_iff_eq] at selected
    exact selected.1
  · intro v seen
    congr 1
    apply List.map_congr_left
    intro row member
    rw [view_attempts seen] at member
    simp [(mem_attemptsOf.mp member).2]

theorem writes_cancelPendingApprovals (now : Time) (resolvedBy : String) : Writes taskId
      (fun v => { v with approvals := cancelPending now resolvedBy v.approvals })
      s (cancelPendingApprovals s taskId now resolvedBy) := by
  refine Writes.congr (writes_updateApprovals
    (p := fun row => row.taskId == taskId && row.state == .pending)
    (f := fun row => { row with state := .cancelled, resolvedAt := some now, resolvedBy })
    (fun _ => rfl) (fun _ => rfl) ?_) ?_
  · intro row _ selected
    simp only [Bool.and_eq_true, beq_iff_eq] at selected
    exact selected.1
  · intro v seen
    congr 1
    apply List.map_congr_left
    intro row member
    rw [view_approvals seen] at member
    simp [(mem_approvalsOf.mp member).2]

theorem writes_settleWaiting (resolvedBy : String) (state : TaskAttemptState) (now : Time)
    (failureCode : String) : Writes taskId
      (fun v =>
        { v with
          attempts := finishRunning state now failureCode v.attempts
          approvals := cancelPending now resolvedBy v.approvals })
      s (finishActiveAttempt (cancelPendingApprovals s taskId now resolvedBy) taskId state now
        failureCode) :=
  (writes_cancelPendingApprovals now resolvedBy).comp
    (writes_finishActiveAttempt state now failureCode)

theorem writes_journal {row : TaskRow} {eventType : TaskEventType} {payload : TaskEventPayload}
    {now : Time} {event : TaskEvent}
    (journal : appendEvent env s row eventType payload now = .ok (event, t))
    {f : TaskRow → TaskRow} {keep : ∀ row, (f row).taskId = row.taskId}
    (key : row.taskId = taskId) (known : row.identity ∈ s.tasks.rows.map TaskRow.identity)
    (identity : ∀ row, (f row).identity = row.identity) : Writes taskId
      (fun v => { v with row := f v.row, events := v.events ++ [row.event eventType payload now] })
      s (t.updateTask taskId f keep) := by
  obtain ⟨rfl, appended⟩ := appendEvent_ok journal
  exact (writes_of_appended appended key known rfl).comp (writes_updateTask keep identity)

theorem appendEvent_seq {row : TaskRow} {eventType : TaskEventType} {payload : TaskEventPayload}
    {now : Time} {event : TaskEvent}
    (journal : appendEvent env s row eventType payload now = .ok (event, t)) :
    event.eventSeq = row.nextEventSeq := by
  rw [(appendEvent_ok journal).1]

end Primitives

variable {s : Store} {principalId taskId : String}

theorem ownedTask_view {row : TaskRow} (owned : ownedTask s principalId taskId = .ok row) :
    ∃ v, s.view taskId = some v ∧ v.row = row ∧ row.taskId = taskId := by
  have found := (ownedTask_ok_iff.mp owned).1
  obtain ⟨v, seen, rfl⟩ := view_of_lookup found
  exact ⟨v, seen, rfl, view_taskId seen⟩

variable {env : Env} {s s' : Store} {now : Time}

theorem appendTaskEvent_refines {eventType : TaskEventType} {payload : TaskEventPayload}
    {event : TaskEvent}
    (h : appendTaskEvent env now principalId taskId eventType payload s = .ok (event, s')) :
    Refines s (.appendEvent now principalId taskId eventType payload) s' := by
  obtain ⟨-, -, principal, -, task, -, row, owned, h⟩ := of_bind₄ h
  obtain ⟨_, live, ⟨appended, store⟩, journal, h⟩ := of_bind₂ h
  cases h
  obtain ⟨v, seen, rfl, key⟩ := ownedTask_view owned
  refine Refines.of_writes (writes_journal journal key (identity_mem seen) (fun _ => rfl)) seen
    (.append (require_ok_iff.mp live) ?_ rfl)
  exact ⟨rfl, rfl, by simp [appendEvent_seq journal], rfl⟩

variable {reason : String}

theorem requestCancel_refines {result : TaskCancelResult × Option TaskEvent}
    (h : requestCancel env now principalId taskId reason s = .ok (result, s')) :
    Refines s (.requestCancel now principalId taskId reason) s' := by
  obtain ⟨principal, -, task, normal, -, -, row, owned, h⟩ := of_bind₄ h
  obtain ⟨v, seen, rfl, key⟩ := ownedTask_view owned
  have named : v.row.taskId = strip taskId := by rw [key, normalizeIdentifier_ok normal]
  split at h
  · cases h
    exact Refines.refl s _
  · rename_i live
    split at h
    · rename_i stopped
      obtain ⟨⟨appended, store⟩, journal, h⟩ := of_bind h
      cases h
      have known := identity_mem seen
      by_cases waiting : v.row.state = .waitingApproval
      · rw [if_pos waiting] at journal
        refine Refines.of_writes ((writes_settleWaiting "task_cancelled" .cancelled now
          "cancelled").comp (writes_journal journal key known (fun _ => rfl))) seen
          (.cancelWaiting waiting named rfl ?_ rfl)
        exact ⟨rfl, rfl, by simp [appendEvent_seq journal], rfl⟩
      · rw [if_neg waiting] at journal
        refine Refines.of_writes (writes_journal journal key (identity_mem seen) (fun _ => rfl)) seen
          (.cancel (by grind) rfl ?_ rfl named)
        exact ⟨rfl, rfl, by simp [appendEvent_seq journal], rfl⟩
    · rename_i unstopped
      split at h
      · cases h
        exact Refines.refl s _
      · obtain ⟨⟨appended, store⟩, journal, h⟩ := of_bind h
        cases h
        have running : v.row.state = .running := by
          cases state : v.row.state <;> simp_all [TaskState.isTerminal]
        refine Refines.of_writes (writes_journal journal key (identity_mem seen) (fun _ => rfl)) seen
          (.note running ?_ ⟨named, rfl⟩)
        exact ⟨rfl, running, by simp [appendEvent_seq journal], rfl⟩

theorem requestPause_refines {result : TaskPauseResult × Option TaskEvent}
    (h : requestPause env now principalId taskId reason s = .ok (result, s')) :
    Refines s (.requestPause now principalId taskId reason) s' := by
  obtain ⟨principal, -, task, normal, -, -, h⟩ := of_bind₃ h
  obtain ⟨row, owned, _, live, h⟩ := of_bind₂ h
  rw [require_ok_iff] at live
  obtain ⟨v, seen, rfl, key⟩ := ownedTask_view owned
  have named : v.row.taskId = strip taskId := by rw [key, normalizeIdentifier_ok normal]
  split at h
  · cases h
    exact Refines.refl s _
  · rename_i unpaused
    split at h
    · rename_i running
      split at h
      · cases h
        exact Refines.refl s _
      · obtain ⟨⟨appended, store⟩, journal, h⟩ := of_bind h
        cases h
        refine Refines.of_writes (writes_journal journal key (identity_mem seen) (fun _ => rfl)) seen
          (.note running ?_ ⟨named, rfl⟩)
        exact ⟨rfl, running, by simp [appendEvent_seq journal], rfl⟩
    · rename_i unrunning
      obtain ⟨⟨appended, store⟩, journal, h⟩ := of_bind h
      cases h
      have known := identity_mem seen
      by_cases waiting : v.row.state = .waitingApproval
      · rw [if_pos waiting] at journal
        refine Refines.of_writes ((writes_settleWaiting "task_paused" .interrupted now
          "paused").comp (writes_journal journal key known (fun _ => rfl))) seen
          (.pauseWaiting waiting named ?_ rfl)
        exact ⟨rfl, rfl, by simp [appendEvent_seq journal], rfl⟩
      · rw [if_neg waiting] at journal
        have queued : v.row.state = .queued := by
          cases state : v.row.state <;> simp_all [TaskState.isTerminal]
        refine Refines.of_writes (writes_journal journal key (identity_mem seen) (fun _ => rfl)) seen
          (.pause queued ?_ rfl named)
        exact ⟨rfl, rfl, by simp [appendEvent_seq journal], rfl⟩

variable {result : TaskRecord × TaskEvent}

theorem resume_refines {acknowledge : Bool}
    (h : resume env now principalId taskId reason acknowledge s = .ok (result, s')) :
    Refines s (.resume now principalId taskId reason acknowledge) s' := by
  obtain ⟨principal, -, task, normal, -, -, row, owned, h⟩ := of_bind₄ h
  obtain ⟨_, paused, _, acknowledged, ⟨appended, store⟩, journal, updated, -, h⟩ := of_bind₄ h
  cases h
  obtain ⟨v, seen, rfl, key⟩ := ownedTask_view owned
  refine Refines.of_writes (writes_journal journal key (identity_mem seen) (fun _ => rfl)) seen
    (.resume (require_ok_iff.mp paused) ?_ (by rw [key, normalizeIdentifier_ok normal])
      (require_ok_iff.mp acknowledged) rfl)
  exact ⟨rfl, rfl, by simp [appendEvent_seq journal], rfl⟩

variable {t : Store}

theorem writes_finishAttemptFor (target : TaskState) (failureCode : String) : Writes taskId
      (fun v => { v with attempts := finishRunningFor target failureCode now v.attempts })
      t (finishAttemptFor t taskId target failureCode now) := by
  unfold finishAttemptFor finishRunningFor
  cases attemptStateFor target with
  | none => exact Writes.id t
  | some state => exact writes_finishActiveAttempt state now _

theorem transition_effect {target : TaskState} {metadata : TransitionMetadata}
    (h : transition env now principalId taskId target metadata s = .ok (result, s')) :
    ∃ v, s.view (strip taskId) = some v ∧ target ∈ v.row.state.transitions ∧
      Writes (strip taskId)
        (fun w =>
          { w with
            row := transitionRow now v.row target metadata w.row
            events := w.events ++
              [v.row.event target.eventType (transitionPayload v.row target metadata) now]
            attempts := finishRunningFor target metadata.failureCode now w.attempts })
        s s' := by
  obtain ⟨principal, -, task, normal, -, -, -, -, h⟩ := of_bind₄ h
  obtain ⟨row, owned, -, -, _, allowed, -, -, h⟩ := of_bind₄ h
  obtain ⟨-, -, ⟨appended, store⟩, journal, updated, -, h⟩ := of_bind₃ h
  cases h
  obtain ⟨v, seen, rfl, key⟩ := ownedTask_view owned
  rw [normalizeIdentifier_ok normal] at seen key ⊢
  obtain ⟨rfl, journaled⟩ := appendEvent_ok journal
  refine ⟨v, seen, require_ok_iff.mp allowed, ?_⟩
  exact ((writes_of_appended journaled key (identity_mem seen) rfl).comp
    (writes_finishAttemptFor target metadata.failureCode)).comp
    (writes_updateTask (f := transitionRow now v.row target metadata) _ (fun _ => rfl))

theorem transition_refines {target : TaskState} {metadata : TransitionMetadata}
    (h : transition env now principalId taskId target metadata s = .ok (result, s')) :
    Refines s (.transition now principalId taskId target metadata) s' := by
  obtain ⟨v, seen, allowed, writes⟩ := transition_effect h
  exact Refines.of_writes writes seen
    (.transit allowed (view_taskId seen) rfl ⟨rfl, rfl, rfl, rfl⟩ rfl)

section Claims

variable {principal : String}

variable {row : TaskRow}

theorem nextClaim_some (h : nextClaim s principal = some row) :
    row ∈ s.tasks.rows ∧ claimable s principal row = true := by
  have member := List.mem_of_mem_head? h
  rw [(List.perm_insertionSort _ _).mem_iff, List.mem_filter] at member
  exact member

theorem claimable_queued (h : claimable s principal row = true) :
    row.state = .queued ∧ sessionIdle s row.sessionHandle = true := by
  unfold claimable at h
  simp only [Bool.and_eq_true, beq_iff_eq] at h
  exact ⟨h.1.1.1, h.2⟩

variable {leaseSeconds : Time}

theorem claimRow_effect {worker : String} {v : TaskView} {result : Option TaskRecord}
    (seen : s.view v.row.taskId = some v) (queued : v.row.state = .queued)
    (h : claimRow env now worker leaseSeconds v.row s = .ok (result, s')) :
    ∃ row' attempt payload, result = some row' ∧ RowChange v.row row' .running 1 1 ∧
      row'.control = { v.row.control with
        leaseOwner := worker, leaseExpiresAt := some (now + leaseSeconds) } ∧
      attempt.ordinal = v.row.attemptCount + 1 ∧ attempt.state = .running ∧
      Writes v.row.taskId
        (fun _ =>
          { v with
            row := row', events := v.events ++ [v.row.event .stateChanged payload now],
            attempts := v.attempts ++ [attempt] })
        s s' := by
  obtain ⟨⟨appended, store⟩, journal, attempts, inserted, claimed, returned, h⟩ := of_bind₃ h
  cases h
  obtain ⟨rfl, journaled⟩ := appendEvent_ok journal
  have writes := (((writes_of_appended journaled rfl (identity_mem seen) rfl).comp
    (writes_insertAttempt (insertRow_ok inserted).1)).comp
    (writes_updateTask (claimedRow_taskId now worker leaseSeconds v.row v.row.nextEventSeq)
      (fun task => by unfold claimedRow; split <;> rfl))).const seen
  obtain ⟨v', stored, same, -⟩ := ownedTask_view returned
  rw [writes.view_some seen] at stored
  cases stored
  subst same
  refine ⟨_, _, _, rfl, ?_, ?_, rfl, rfl, writes⟩
  · constructor <;> simp [claimedRow, queued, TaskRow.identity]
  · simp [claimedRow, queued, TaskRow.control]

variable {workerId : String}

theorem claimNext_effect {task : TaskRecord}
    (h : claimNext env now workerId leaseSeconds principalId s = .ok (some task, s')) :
    ∃ principal v attempt payload, normalizeClaimPrincipal principalId = .ok principal ∧
      nextClaim s principal = some v.row ∧ s.view v.row.taskId = some v ∧
      RowChange v.row task .running 1 1 ∧
      task.control = { v.row.control with
        leaseOwner := strip workerId, leaseExpiresAt := some (now + leaseSeconds) } ∧
      attempt.ordinal = v.row.attemptCount + 1 ∧ attempt.state = .running ∧
      Writes v.row.taskId
        (fun _ =>
          { v with
            row := task, events := v.events ++ [v.row.event .stateChanged payload now],
            attempts := v.attempts ++ [attempt] })
        s s' := by
  obtain ⟨worker, normal, -, -, principal, asked, h⟩ := of_bind₃ h
  split at h
  · cases h
  · rename_i row next
    obtain ⟨member, able⟩ := nextClaim_some next
    have queued := (claimable_queued able).1
    obtain ⟨v, seen, rfl⟩ := view_of_mem member
    obtain ⟨row', attempt, payload, returned, change, control, ordinal, running, writes⟩ :=
      claimRow_effect seen queued h
    cases returned
    rw [normalizeIdentifier_ok normal] at control
    exact ⟨principal, v, attempt, payload, asked, next, seen, change, control, ordinal, running,
      writes⟩

theorem claimRow_refines {worker : String} {result : Option TaskRecord}
    (asked : normalizeClaimPrincipal principalId = .ok principal) (normal : worker = strip workerId)
    (next : nextClaim s principal = some row)
    (h : claimRow env now worker leaseSeconds row s = .ok (result, s')) :
    Refines s (.claimNext now workerId leaseSeconds principalId) s' := by
  obtain ⟨member, able⟩ := nextClaim_some next
  have queued := (claimable_queued able).1
  obtain ⟨v, seen, rfl⟩ := view_of_mem member
  obtain ⟨_, _, _, -, change, control, ordinal, running, writes⟩ := claimRow_effect seen queued h
  subst normal
  exact Refines.of_writes writes seen (.claim queued asked next ordinal running change control)

theorem claimNext_refines {result : Option TaskRecord}
    (h : claimNext env now workerId leaseSeconds principalId s = .ok (result, s')) :
    Refines s (.claimNext now workerId leaseSeconds principalId) s' := by
  obtain ⟨worker, normal, -, -, principal, asked, h⟩ := of_bind₃ h
  split at h
  · cases h
    exact Refines.refl s _
  · rename_i row next
    exact claimRow_refines asked (normalizeIdentifier_ok normal) next h

end Claims

theorem activateStaged_refines {result : TaskRecord}
    (h : activateStaged now principalId taskId s = .ok (result, s')) :
    Refines s (.activateStaged now principalId taskId) s' := by
  obtain ⟨principal, -, task, normal, row, owned, _, queued, h⟩ := of_bind₄ h
  obtain ⟨_, staged, updated, -, h⟩ := of_bind₂ h
  cases h
  obtain ⟨v, seen, rfl, key⟩ := ownedTask_view owned
  rw [require_ok_iff] at queued staged
  have named : v.row.taskId = strip taskId := by rw [key, normalizeIdentifier_ok normal]
  refine Refines.of_writes (writes_updateTask _ (fun _ => rfl)) seen
    (.touch (by rw [queued]; rfl) ?_ ⟨named, queued, staged, rfl⟩)
  exact ⟨rfl, rfl, rfl, rfl⟩

/-- A renewal moves the lease of the running Task that the worker holds; where the
worker holds none it returns False. -/
theorem renewLease_effect {workerId : String} {leaseSeconds : Time} {result : Bool}
    (h : renewLease now principalId taskId workerId leaseSeconds s = .ok (result, s')) :
    (result = true ∧ ∃ v row', s.view (strip taskId) = some v ∧
        holdsLease (strip principalId) (strip taskId) (strip workerId) v.row = true ∧
        RowChange v.row row' v.row.state 0 0 ∧
        row'.control = { v.row.control with leaseExpiresAt := some (now + leaseSeconds) } ∧
        Writes (strip taskId) (fun _ => { v with row := row' }) s s') ∨
      (result = false ∧ s' = s ∧ ∀ row ∈ s.tasks.rows,
        holdsLease (strip principalId) (strip taskId) (strip workerId) row = false) := by
  obtain ⟨-, -, principal, owned, task, tasked, worker, worked, h⟩ := of_bind₄ h
  rw [normalizeIdentifier_ok owned, normalizeIdentifier_ok tasked,
    normalizeIdentifier_ok worked] at h
  cases h
  by_cases held : ∃ row ∈ s.tasks.rows,
      holdsLease (strip principalId) (strip taskId) (strip workerId) row = true
  · obtain ⟨row, member, holds⟩ := held
    obtain ⟨v, seen, rfl⟩ := view_of_mem member
    have named : v.row.taskId = strip taskId := by
      simp only [holdsLease, Bool.and_eq_true, beq_iff_eq] at holds
      exact holds.1.1.2
    rw [named] at seen
    refine Or.inl ⟨List.any_eq_true.mpr ⟨v.row, member, holds⟩,
      v, { v.row with leaseExpiresAt := some (now + leaseSeconds), updatedAt := now }, seen, holds,
      ⟨rfl, rfl, rfl, rfl⟩, rfl, ?_⟩
    refine Writes.congr (writes_updateTask _ ?_) ?_
    · intro row
      split <;> rfl
    · intro w seen'
      rw [seen, Option.some.injEq] at seen'
      rw [← seen', if_pos holds]
  · have none_held : ∀ row ∈ s.tasks.rows,
        holdsLease (strip principalId) (strip taskId) (strip workerId) row = false := by
      intro row member
      rw [← Bool.not_eq_true]
      exact fun holds => held ⟨row, member, holds⟩
    refine Or.inr ⟨?_, ?_, none_held⟩
    · rw [← Bool.not_eq_true, List.any_eq_true]
      exact held
    · apply updateTask_eq_self
      intro row member _
      rw [none_held row member]
      rfl

theorem renewLease_refines {workerId : String} {leaseSeconds : Time} {result : Bool}
    (h : renewLease now principalId taskId workerId leaseSeconds s = .ok (result, s')) :
    Refines s (.renewLease now principalId taskId workerId leaseSeconds) s' := by
  rcases renewLease_effect h with ⟨-, v, row', seen, holds, change, control, writes⟩ | ⟨-, rfl, -⟩
  · simp only [holdsLease, Bool.and_eq_true, beq_iff_eq] at holds
    obtain ⟨⟨⟨-, named⟩, running⟩, owner⟩ := holds
    exact Refines.of_writes writes seen
      (.touch (by rw [running]; rfl) change ⟨named, running, owner, control⟩)
  · exact Refines.refl _ _

section Recovery

/-- The effect of a recovery loop: each selected Task changes by `effect`, under
the other ids nothing does. -/
structure WritesEach (rows : List TaskRow) (effect : TaskView → TaskView → Prop)
    (s s' : Store) : Prop where
  here : ∀ row ∈ rows, ∀ v, s.view row.taskId = some v →
    ∃ v', s'.view row.taskId = some v' ∧ effect v v'
  frame : ∀ taskId, taskId ∉ rows.map TaskRow.taskId → s'.slice taskId = s.slice taskId
  sessions : s'.sessions = s.sessions
  identities : s'.tasks.rows.map TaskRow.identity = s.tasks.rows.map TaskRow.identity
  feed : FeedGrows s s'
  journal : JournalGrows s s'

variable {effect : TaskView → TaskView → Prop} {rows : List TaskRow} {s' : Store}
  {events : List TaskEvent}

theorem recoverEach_writes {one : TaskRow → Transaction.Body Store TaskError TaskEvent}
    (each : ∀ row s t event, one row s = .ok (event, t) → s.tasks.lookup row.taskId = some row →
      ∃ f, Writes row.taskId f s t ∧ ∀ v, s.view row.taskId = some v → effect v (f v))
    (distinct : (rows.map TaskRow.taskId).Nodup)
    (present : ∀ row ∈ rows, s.tasks.lookup row.taskId = some row)
    (h : recoverEach one rows s = .ok (events, s')) : WritesEach rows effect s s' := by
  induction rows generalizing s events with
  | nil =>
    cases h
    exact ⟨by simp, fun _ _ => rfl, rfl, rfl, FeedGrows.refl rfl rfl, JournalGrows.refl rfl rfl rfl⟩
  | cons row rows ih =>
    obtain ⟨⟨event, t⟩, first, ⟨later, u⟩, rest, h⟩ := of_bind₂ h
    cases h
    rw [List.map_cons, List.nodup_cons] at distinct
    obtain ⟨f, writes, sound⟩ := each row s t event first (present row List.mem_cons_self)
    have apart : ∀ other ∈ rows, other.taskId ≠ row.taskId := by
      intro other member same
      exact distinct.1 (same ▸ List.mem_map_of_mem member)
    have kept : ∀ other ∈ rows, t.slice other.taskId = s.slice other.taskId :=
      fun other member => writes.frame other.taskId (apart other member)
    have remaining := ih distinct.2
      (fun other member => by
        have found := congrArg TaskSlice.row (kept other member)
        exact found.trans (present other (List.mem_cons_of_mem _ member))) rest
    refine ⟨?_, ?_, remaining.sessions.trans writes.sessions,
      remaining.identities.trans writes.identities, writes.feed.trans remaining.feed,
      writes.journal.trans remaining.journal⟩
    · intro other member v seen
      rcases List.mem_cons.mp member with rfl | member
      · refine ⟨f v, ?_, sound v seen⟩
        rw [view_of_slice (remaining.frame other.taskId distinct.1)]
        exact writes.view_some seen
      · exact remaining.here other member v (by rw [view_of_slice (kept other member), seen])
    · intro taskId outside
      rw [List.map_cons, List.mem_cons, not_or] at outside
      rw [remaining.frame taskId outside.2, writes.frame taskId outside.1]

variable {p : TaskRow → Bool}

variable {row : TaskRow} {event : TaskEvent}

theorem mem_selectTasks : row ∈ selectTasks s p ↔ row ∈ s.tasks.rows ∧ p row = true := by
  unfold selectTasks
  rw [(List.perm_insertionSort _ _).mem_iff, List.mem_filter]

theorem selectTasks_distinct (s : Store) (p : TaskRow → Bool) :
    ((selectTasks s p).map TaskRow.taskId).Nodup := by
  unfold selectTasks
  rw [((List.perm_insertionSort _ _).map _).nodup_iff]
  exact List.Nodup.sublist (List.Sublist.map _ List.filter_sublist) s.tasks.keyed

theorem selectTasks_present (h : row ∈ selectTasks s p) :
    s.tasks.lookup row.taskId = some row := Table.lookup_of_mem (mem_selectTasks.mp h).1

def PausedBy (now : Time) (failureCode phase : String) (v v' : TaskView) : Prop :=
  ∃ payload row', RowChange v.row row' .paused 1 0 ∧
    row'.control = { v.row.control.unleased with phase } ∧
    v' = { v with
      row := row', events := v.events ++ [v.row.event .stateChanged payload now],
      attempts := finishRunning .interrupted now failureCode v.attempts }

theorem view_row {v : TaskView} (present : s.tasks.lookup row.taskId = some row)
    (seen : s.view row.taskId = some v) : v.row = row := by
  have found := (view_eq_some_iff.mp seen).1
  rw [present] at found
  exact (Option.some.inj found).symm

theorem identity_present (present : s.tasks.lookup row.taskId = some row) :
    row.identity ∈ s.tasks.rows.map TaskRow.identity :=
  List.mem_map_of_mem (Table.lookup_mem present)

theorem pauseRecovered_writes {failureCode phase : String}
    (present : s.tasks.lookup row.taskId = some row)
    (h : pauseRecovered env now failureCode phase reason row s = .ok (event, t)) :
    ∃ f, Writes row.taskId f s t ∧
      ∀ v, s.view row.taskId = some v → PausedBy now failureCode phase v (f v) := by
  obtain ⟨⟨appended, store⟩, journal, h⟩ := of_bind h
  cases h
  refine ⟨_, (writes_finishActiveAttempt .interrupted now failureCode).comp
    (writes_journal journal rfl (identity_present present) (fun _ => rfl)), ?_⟩
  intro v seen
  obtain rfl := view_row present seen
  refine ⟨_, _, ?_, ?_, rfl⟩
  · exact ⟨rfl, rfl, by simp [appendEvent_seq journal], rfl⟩
  · rfl

theorem recoverExpiredLeases_effect (h : recoverExpiredLeases env now s = .ok (events, s')) :
    WritesEach (selectTasks s (leaseExpired now))
      (PausedBy now "lease_expired" "lease_expired") s s' :=
  recoverEach_writes (fun _ _ _ _ paused present => pauseRecovered_writes present paused)
    (selectTasks_distinct s (leaseExpired now)) (fun _ => selectTasks_present) h

theorem recoverExpiredLeases_refines (h : recoverExpiredLeases env now s = .ok (events, s')) :
    Refines s (.recoverExpiredLeases now) s' := by
  have writes := recoverExpiredLeases_effect h
  refine ⟨writes.sessions, Or.inl writes.identities, writes.feed, writes.journal, ?_⟩
  intro taskId
  by_cases selected : taskId ∈ (selectTasks s (leaseExpired now)).map TaskRow.taskId
  · obtain ⟨row, member, rfl⟩ := List.mem_map.mp selected
    obtain ⟨v, seen, rfl⟩ := view_of_lookup (selectTasks_present member)
    obtain ⟨v', after, payload, row', change, control, rfl⟩ := writes.here _ member v seen
    have expired := (mem_selectTasks.mp member).2
    have running : v.row.state = .running := by
      simp only [leaseExpired, Bool.and_eq_true, beq_iff_eq] at expired
      exact expired.1
    exact .moved seen after (.expire running expired change control)
  · exact .same (writes.frame taskId selected)

def WarnedBy (now : Time) (v v' : TaskView) : Prop :=
  ∃ payload row', RowChange v.row row' v.row.state 1 0 ∧
    row'.control = v.row.control.unleased ∧
    v' = { v with
      row := row', events := v.events ++ [v.row.event .warning payload now],
      attempts := finishRunning .interrupted now "core_restart_waiting_approval" v.attempts }

theorem recoverWaiting_writes (present : s.tasks.lookup row.taskId = some row)
    (h : recoverWaiting env now row s = .ok (event, t)) :
    ∃ f, Writes row.taskId f s t ∧ ∀ v, s.view row.taskId = some v → WarnedBy now v (f v) := by
  obtain ⟨⟨appended, store⟩, journal, h⟩ := of_bind h
  cases h
  refine ⟨_, (writes_finishActiveAttempt .interrupted now "core_restart_waiting_approval").comp
    (writes_journal journal rfl (identity_present present) (fun _ => rfl)), ?_⟩
  intro v seen
  obtain rfl := view_row present seen
  refine ⟨_, _, ?_, ?_, rfl⟩
  · exact ⟨rfl, rfl, by simp [appendEvent_seq journal], rfl⟩
  · rfl

theorem unknownCommit_view {v : TaskView} (seen : s.view taskId = some v) :
    unknownCommit s taskId = v.steps.any (fun step => step.state == .outcomeUnknown) := by
  rw [view_steps seen, unknownCommit, Store.stepsOf, Table.owned, List.any_filter]
  rfl

theorem recoverRunning_writes (present : s.tasks.lookup row.taskId = some row)
    (h : recoverRunning env now row s = .ok (event, t)) :
    ∃ f, Writes row.taskId f s t ∧ ∀ v, s.view row.taskId = some v →
      PausedBy now "core_restart" (restartPhase v) v (f v) := by
  unfold recoverRunning at h
  have phase : ∀ v, s.view row.taskId = some v → restartPhase v =
      if unknownCommit s row.taskId then "outcome_unknown"
      else if row.phase = "pause_requested" then "manual_pause" else "interrupted" := by
    intro v seen
    rw [restartPhase, unknownCommit_view seen, view_row present seen]
  split at h
  · rename_i unknown
    simp only [unknown, if_true] at phase
    obtain ⟨f, writes, paused⟩ := pauseRecovered_writes present h
    exact ⟨f, writes, fun v seen => by rw [phase v seen]; exact paused v seen⟩
  · rename_i known
    simp only [known] at phase
    split at h
    · rename_i asked
      simp only [asked, if_true] at phase
      obtain ⟨f, writes, paused⟩ := pauseRecovered_writes present h
      exact ⟨f, writes, fun v seen => by rw [phase v seen]; exact paused v seen⟩
    · rename_i unasked
      simp only [unasked, if_false] at phase
      obtain ⟨f, writes, paused⟩ := pauseRecovered_writes present h
      exact ⟨f, writes, fun v seen => by rw [phase v seen]; exact paused v seen⟩

theorem markOutcomeUnknown_slice (s : Store) (now : Time) (taskId : String) :
    (markOutcomeUnknown s now (fun _ => true)).slice taskId =
      { s.slice taskId with steps := quarantine now (s.stepsOf taskId) } := by
  have marked : (markOutcomeUnknown s now (fun _ => true)).stepsOf taskId =
      quarantine now (s.stepsOf taskId) := by
    dsimp only [Store.stepsOf, markOutcomeUnknown, Store.updateSteps, quarantine]
    rw [Table.owned_update (by intro row; rfl)]
    simp
  unfold Store.slice
  rw [marked]
  rfl

theorem markOutcomeUnknown_view (now : Time) {v : TaskView} (seen : s.view taskId = some v) :
    (markOutcomeUnknown s now (fun _ => true)).view taskId =
      some { v with steps := quarantine now v.steps } := by
  have slice := markOutcomeUnknown_slice s now taskId
  unfold Store.slice at slice
  rw [TaskSlice.mk.injEq] at slice
  obtain ⟨row, events, attempts, steps, approvals, trace⟩ := slice
  obtain ⟨row₀, events₀, attempts₀, steps₀, approvals₀, trace₀⟩ := view_eq_some_iff.mp seen
  rw [view_eq_some_iff, row, events, attempts, steps, approvals, trace, ← steps₀]
  exact ⟨row₀, events₀, attempts₀, rfl, approvals₀, trace₀⟩

theorem selected_iff {v : TaskView} (seen : s.view taskId = some v) :
    taskId ∈ (selectTasks s p).map TaskRow.taskId ↔ p v.row = true := by
  have found := (view_eq_some_iff.mp seen).1
  constructor
  · intro member
    obtain ⟨row, selected, rfl⟩ := List.mem_map.mp member
    rw [selectTasks_present selected, Option.some.injEq] at found
    rw [← found]
    exact (mem_selectTasks.mp selected).2
  · intro chosen
    refine List.mem_map.mpr ⟨v.row, mem_selectTasks.mpr ⟨Table.lookup_mem found, chosen⟩, ?_⟩
    exact view_taskId seen

theorem WritesEach.view_here (writes : WritesEach rows effect s s') {v : TaskView}
    (selected : taskId ∈ rows.map TaskRow.taskId) (seen : s.view taskId = some v) :
    ∃ v', s'.view taskId = some v' ∧ effect v v' := by
  obtain ⟨row, member, rfl⟩ := List.mem_map.mp selected
  exact writes.here row member v seen

theorem WritesEach.view_frame (writes : WritesEach rows effect s s')
    (outside : taskId ∉ rows.map TaskRow.taskId) : s'.view taskId = s.view taskId :=
  view_of_slice (writes.frame taskId outside)

theorem recoverInterrupted_writes (h : recoverInterrupted env now s = .ok (events, s')) :
    ∃ t, WritesEach (selectTasks (markOutcomeUnknown s now (fun _ => true))
          (fun row => row.state == .waitingApproval))
        (WarnedBy now) (markOutcomeUnknown s now (fun _ => true)) t ∧
      WritesEach (selectTasks t (fun row => row.state == .running))
        (fun v v' => PausedBy now "core_restart" (restartPhase v) v v') t s' := by
  obtain ⟨⟨warned, t⟩, first, ⟨paused, u⟩, second, h⟩ := of_bind₂ h
  cases h
  exact ⟨t, recoverEach_writes (fun _ _ _ _ one present => recoverWaiting_writes present one)
      (selectTasks_distinct _ _) (fun _ => selectTasks_present) first,
    recoverEach_writes (fun _ _ _ _ one present => recoverRunning_writes present one)
      (selectTasks_distinct _ _) (fun _ => selectTasks_present) second⟩

theorem recoverInterrupted_moves (h : recoverInterrupted env now s = .ok (events, s'))
    {v : TaskView} (seen : s.view taskId = some v) :
    ∃ v', s'.view taskId = some v' ∧ Move s (.recoverInterrupted now) v v' := by
  obtain ⟨t, waits, runs⟩ := recoverInterrupted_writes h
  -- a Task sits in at most one of the two loops: its state decides which
  have marked := markOutcomeUnknown_view now seen
  by_cases waiting : v.row.state = .waitingApproval
  · obtain ⟨v₁, after, payload, row', change, control, rfl⟩ :=
      waits.view_here ((selected_iff marked).mpr (by simp [waiting])) marked
    have waits' : row'.state = .waitingApproval := change.state.trans waiting
    have still := runs.view_frame (fun member => by
      have running := (selected_iff after).mp member
      simp [waits'] at running)
    rw [waiting] at change
    exact ⟨_, still.trans after, .restartWaiting waiting change control⟩
  · have still := waits.view_frame (fun member => by
      have waited := (selected_iff marked).mp member
      simp [waiting] at waited)
    have between := still.trans marked
    by_cases running : v.row.state = .running
    · obtain ⟨v₁, after, payload, row', change, control, rfl⟩ :=
        runs.view_here ((selected_iff between).mpr (by simp [running])) between
      exact ⟨_, after, .restartRunning running change control⟩
    · have last := runs.view_frame (fun member => by
        have ran := (selected_iff between).mp member
        simp [running] at ran)
      have idle : v.row.state.isActive = false := by
        cases state : v.row.state <;> simp_all [TaskState.isActive]
      exact ⟨_, last.trans between, .restart idle⟩

theorem recoverInterrupted_refines (rooted : Rooted s)
    (h : recoverInterrupted env now s = .ok (events, s')) :
    Refines s (.recoverInterrupted now) s' := by
  obtain ⟨t, waits, runs⟩ := recoverInterrupted_writes h
  refine ⟨runs.sessions.trans waits.sessions,
    Or.inl (runs.identities.trans waits.identities), ?_, ?_, ?_⟩
  · have marked : FeedGrows s (markOutcomeUnknown s now (fun _ => true)) := FeedGrows.refl rfl rfl
    exact marked.trans (waits.feed.trans runs.feed)
  · have marked : JournalGrows s (markOutcomeUnknown s now (fun _ => true)) :=
      JournalGrows.refl rfl rfl rfl
    exact marked.trans (waits.journal.trans runs.journal)
  · intro taskId
    cases seen : s.view taskId with
    | none =>
      have out : ∀ {w : Store} {p : TaskRow → Bool}, w.view taskId = none →
          taskId ∉ (selectTasks w p).map TaskRow.taskId := by
        intro w p absent member
        obtain ⟨row, selected, rfl⟩ := List.mem_map.mp member
        rw [view_none_iff, selectTasks_present selected] at absent
        cases absent
      have marked : (markOutcomeUnknown s now (fun _ => true)).slice taskId =
          s.slice taskId := by
        have empty := rooted taskId seen
        have steps : s.stepsOf taskId = [] := congrArg TaskSlice.steps empty
        rw [markOutcomeUnknown_slice, steps, empty]
        rfl
      have one := (waits.frame taskId (out (by rw [view_of_slice marked, seen]))).trans marked
      exact .same ((runs.frame taskId (out (by rw [view_of_slice one, seen]))).trans one)
    | some v =>
      obtain ⟨v', after, move⟩ := recoverInterrupted_moves h seen
      exact .moved seen after move

end Recovery

end Knoa.Tasks
