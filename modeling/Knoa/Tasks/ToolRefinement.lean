import Knoa.Tasks.Refinement

/-!
# Tool steps, approvals, traces and creation refine moves

The remaining operations, and the theorem that covers them all.
-/
namespace Knoa.Tasks
open Relational Transaction

variable {env : Env} {s s' : Store} {now : Time}

variable {principalId approvalId : String} {approval : ApprovalRow}

theorem ownedApproval_mem (h : ownedApproval s principalId approvalId = .ok approval) :
    approval ∈ s.approvals.rows ∧ approval.approvalId = approvalId := by
  have found := (ownedApproval_ok_iff.mp h).1
  exact ⟨Table.lookup_mem found, Table.lookup_key found⟩

theorem approval_unique {a b : ApprovalRow} (ha : a ∈ s.approvals.rows) (hb : b ∈ s.approvals.rows)
    (same : a.approvalId = b.approvalId) : a = b := Table.mem_unique ha hb same

/-- An approval on record is one of the approvals of its Task. -/
theorem approval_view (rooted : Rooted s) (member : approval ∈ s.approvals.rows) :
    ∃ v, s.view approval.taskId = some v ∧ approval ∈ v.approvals := by
  cases seen : s.view approval.taskId with
  | none =>
    have empty : s.approvalsOf approval.taskId = [] := congrArg TaskSlice.approvals (rooted _ seen)
    have present : approval ∈ s.approvalsOf approval.taskId := mem_approvalsOf.mpr ⟨member, rfl⟩
    rw [empty] at present
    cases present
  | some v =>
    refine ⟨v, rfl, ?_⟩
    rw [view_approvals seen]
    exact mem_approvalsOf.mpr ⟨member, rfl⟩

theorem writes_annotate {requested : EventRow} {text : String}
    (member : approval ∈ s.approvals.rows)
    (found : eventOf s approval.taskId approval.requestEventSeq = some requested) :
    Writes approval.taskId
      (fun v =>
        { v with
          approvals := annotateApprovals approval.approvalId text v.approvals
          events := annotateEvents approval.requestEventSeq text v.events })
      s ((s.updateApprovals (fun row => row.approvalId == approval.approvalId)
          (fun row => { row with reason := text })).updateEvents
        (fun event => event.taskId == approval.taskId && event.eventSeq == approval.requestEventSeq)
        (fun event => { event with payload := { requested.payload with reason := text } })) := by
  have first : Writes approval.taskId
      (fun v =>
        { v with approvals := v.approvals.map (fun row =>
            if (row.approvalId == approval.approvalId) = true then { row with reason := text }
            else row) })
      s (s.updateApprovals (fun row => row.approvalId == approval.approvalId)
        (fun row => { row with reason := text })) := by
    apply writes_updateApprovals
    · intro row
      rfl
    · intro row present selected
      rw [approval_unique present member (by simpa using selected)]
  refine (first.comp (writes_updateEvents _ (by intro event; rfl) ?_)).congr ?_
  · intro event _ selected
    simp only [Bool.and_eq_true, beq_iff_eq] at selected
    exact selected.1
  · intro v seen
    simp only [Function.comp, beq_iff_eq, annotateApprovals, annotateEvents]
    congr 1
    apply List.map_congr_left
    intro event present
    rw [view_events seen] at present
    obtain ⟨stored, owner⟩ := mem_eventsOf.mp present
    by_cases asked : event.eventSeq = approval.requestEventSeq
    · have same : event = requested :=
        Table.mem_unique stored (Table.lookup_mem found) (by
          rw [Table.lookup_key found, EventRow.key, owner, asked])
      subst same
      simp [asked, owner]
    · simp [asked]

theorem annotateApprovalReview_refines {reason : String} {result : TaskApprovalRecord × TaskEvent}
    (rooted : Rooted s)
    (h : annotateApprovalReview env principalId approvalId reason s = .ok (result, s')) :
    Refines s (.annotateApprovalReview principalId approvalId reason) s' := by
  obtain ⟨principal, -, key, -, approval, owned, requested, found, h⟩ := of_bind₄ h
  obtain ⟨member, rfl⟩ := ownedApproval_mem owned
  split at h
  · rename_i pending
    obtain ⟨payload, json, updated, -, h⟩ := of_bind₂ h
    cases h
    have whole : payload = { requested.payload with reason := takeChars (strip reason) 2000 } := by
      unfold eventJson at json
      split at json <;> cases json
      rfl
    subst whole
    obtain ⟨v, seen, known⟩ := approval_view rooted member
    exact Refines.of_writes (writes_annotate member (orRaise_ok_iff.mp found)) seen
      (.annotate known pending)
  · cases h
    exact Refines.refl s _

variable {taskId : String}

/-- A step id that the Task has is answered from the record; a new one is stored as committing, and
only for a Task that runs. -/
theorem beginToolStep_effect {request : ToolStepRequest} {result : TaskToolStepRecord × Bool}
    (h : beginToolStep now principalId taskId request s = .ok (result, s')) :
    (∃ existing, ownedStep s (strip principalId) (strip taskId) (strip request.toolStepId) =
        some existing ∧ s' = s) ∨
      ∃ v row, ownedStep s (strip principalId) (strip taskId) (strip request.toolStepId) = none ∧
        s.view (strip taskId) = some v ∧ v.row.state = .running ∧
        row.principalId = v.row.principalId ∧ row.state = .committing ∧ row ∉ s.steps.rows ∧
        Writes (strip taskId) (fun w => { w with steps := w.steps ++ [row] }) s s' := by
  obtain ⟨principal, owner, task, normal, stepId, step, callId, -, h⟩ := of_bind₄ h
  obtain ⟨name, -, -, -, -, -, -, -, h⟩ := of_bind₄ h
  obtain ⟨row, owned, _, running, h⟩ := of_bind₂ h
  rw [normalizeIdentifier_ok owner, normalizeIdentifier_ok normal] at h owned
  rw [normalizeIdentifier_ok step] at h
  split at h
  · rename_i existing found
    obtain ⟨-, -, h⟩ := of_bind h
    cases h
    exact Or.inl ⟨existing, found, rfl⟩
  · rename_i absent
    obtain ⟨steps, inserted, h⟩ := of_bind h
    cases h
    have added := (insertRow_ok inserted).1
    have mine := (ownedTask_ok_iff.mp owned).2
    obtain ⟨v, seen, rfl, -⟩ := ownedTask_view owned
    refine Or.inr ⟨v, _, absent, seen, require_ok_iff.mp running, mine.symm, rfl, ?_,
      writes_insertStep added⟩
    exact fun member => Table.insert_fresh added (List.mem_map_of_mem member)

theorem beginToolStep_refines {request : ToolStepRequest} {result : TaskToolStepRecord × Bool}
    (h : beginToolStep now principalId taskId request s = .ok (result, s')) :
    Refines s (.beginToolStep now principalId taskId request) s' := by
  rcases beginToolStep_effect h with ⟨existing, -, rfl⟩ |
    ⟨v, row, -, seen, running, owner, committing, -, writes⟩
  · exact Refines.refl _ _
  · exact Refines.of_writes writes seen (.beginStep running owner committing)

theorem ownedStep_some {principal stepId : String} {row : ToolStepRow}
    (h : ownedStep s principal taskId stepId = some row) :
    row ∈ s.steps.rows ∧ row.toolStepId = stepId ∧ row.taskId = taskId := by
  unfold ownedStep at h
  rw [Option.filter_eq_some_iff] at h
  simp only [Bool.and_eq_true, beq_iff_eq] at h
  exact ⟨Table.lookup_mem h.1, Table.lookup_key h.1, h.2.1⟩

theorem writes_finishStep {state : TaskToolStepState} {result : JsonText} {step : ToolStepRow}
    (member : step ∈ s.steps.rows) : Writes step.taskId
      (fun v =>
        { v with steps := v.steps.map (fun row =>
            if row.toolStepId = step.toolStepId ∧ row.state = .committing then
              { row with state, result, updatedAt := now }
            else row) })
      s (s.updateSteps
        (fun row => row.toolStepId == step.toolStepId && row.state == .committing)
        (fun row => { row with state, result, updatedAt := now })) := by
  refine Writes.congr (writes_updateSteps
    (p := fun row => row.toolStepId == step.toolStepId && row.state == .committing)
    (f := fun row => { row with state, result, updatedAt := now })
    (fun _ => rfl) (fun _ => rfl) ?_) ?_
  · intro row present selected
    simp only [Bool.and_eq_true, beq_iff_eq] at selected
    rw [Table.mem_unique present member selected.1]
  · intro v _
    simp

theorem finishToolStep_refines {toolStepId : String} {state : TaskToolStepState} {output : JsonText}
    {result : TaskToolStepRecord × Bool}
    (h : finishToolStep now principalId taskId toolStepId state output s = .ok (result, s')) :
    Refines s (.finishToolStep now principalId taskId toolStepId state output) s' := by
  obtain ⟨_, terminal, principal, -, task, -, stepId, -, h⟩ := of_bind₄ h
  obtain ⟨-, -, row, owned, current, found, h⟩ := of_bind₃ h
  split at h
  · obtain ⟨updated, -, h⟩ := of_bind h
    cases h
    obtain ⟨member, rfl, rfl⟩ := ownedStep_some (orRaise_ok_iff.mp found)
    obtain ⟨v, seen, rfl, -⟩ := ownedTask_view owned
    exact Refines.of_writes (writes_finishStep member) seen
      (.finishStep (require_ok_iff.mp terminal))
  · obtain ⟨-, -, h⟩ := of_bind h
    cases h
    exact Refines.refl s _

/-- Only the committing steps of the Task are quarantined. -/
theorem writes_markTask {principal : String} : Writes taskId
      (fun v =>
        { v with steps := v.steps.map (fun row =>
            if row.principalId = principal ∧ row.state = .committing then
              { row with state := .outcomeUnknown, updatedAt := now }
            else row) })
      s (markOutcomeUnknown s now
        (fun step => step.taskId == taskId && step.principalId == principal)) := by
  refine Writes.congr (writes_updateSteps
    (p := fun row => (row.taskId == taskId && row.principalId == principal) &&
      row.state == .committing)
    (f := fun row => { row with state := .outcomeUnknown, updatedAt := now })
    (fun _ => rfl) (fun _ => rfl) ?_) ?_
  · intro row _ selected
    simp only [Bool.and_eq_true, beq_iff_eq] at selected
    exact selected.1.1
  · intro v seen
    congr 1
    apply List.map_congr_left
    intro row member
    rw [view_steps seen] at member
    simp [(mem_stepsOf.mp member).2]

theorem pauseForUnknownToolOutcome_refines {reason : String} {result : TaskRecord × TaskEvent}
    (h : pauseForUnknownToolOutcome env now principalId taskId reason s = .ok (result, s')) :
    Refines s (.pauseForUnknownToolOutcome now principalId taskId reason) s' := by
  obtain ⟨principal, -, task, normal, -, -, row, owned, h⟩ := of_bind₄ h
  obtain ⟨_, running, ⟨appended, store⟩, journal, updated, -, h⟩ := of_bind₃ h
  cases h
  have owner := (ownedTask_ok_iff.mp owned).2
  obtain ⟨v, seen, rfl, key⟩ := ownedTask_view owned
  subst owner
  have known := identity_mem seen
  refine Refines.of_writes ((writes_markTask.comp (writes_finishActiveAttempt .interrupted now
    "tool_outcome_unknown")).comp (writes_journal journal key known (fun _ => rfl))) seen
    (.unknown (require_ok_iff.mp running) ?_
      ((view_taskId seen).trans (normalizeIdentifier_ok normal)) rfl)
  exact ⟨rfl, rfl, by simp [appendEvent_seq journal], rfl⟩

variable {request : ApprovalRequest} {fields : ApprovalFields}

theorem normalizeApproval_ok (h : normalizeApproval principalId taskId request = .ok fields) :
    fields = {
      principal := strip principalId, taskId := strip taskId, stepId := strip request.toolStepId
      callId := strip request.toolCallId, name := strip request.toolName
      reason := strip request.reason } := by
  obtain ⟨principal, named, task, tasked, stepId, stepped, callId, called, h⟩ := of_bind₄ h
  obtain ⟨name, tool, -, -, -, -, h⟩ := of_bind₃ h
  cases h
  rw [normalizeIdentifier_ok named, normalizeIdentifier_ok tasked, normalizeIdentifier_ok stepped,
    normalizeIdentifier_ok called, normalizeIdentifier_ok tool]

variable {result : TaskApprovalRecord × TaskEvent × Bool}

/-- The approval and its event are stored together, and the Task waits. -/
theorem openApproval_effect {task : TaskRow}
    (owned : ownedTask s fields.principal fields.taskId = .ok task)
    (h : openApproval env now request fields approvalId task s = .ok (result, s')) :
    ∃ v, s.view fields.taskId = some v ∧ v.row.state = .running ∧
      result.1 = newApprovalRow now approvalId v.row.nextEventSeq request fields ∧
      Writes fields.taskId
        (fun w =>
          { w with
            row := waitingRow now v.row.nextEventSeq w.row
            events := w.events ++
              [v.row.event .approvalRequested (approvalPayload approvalId request fields) now]
            approvals := w.approvals ++
              [newApprovalRow now approvalId v.row.nextEventSeq request fields] })
        s s' := by
  obtain ⟨_, running, ⟨appended, store⟩, journal, approvals, inserted, updated, returned,
    h⟩ := of_bind₄ h
  cases h
  obtain ⟨v, seen, rfl, key⟩ := ownedTask_view owned
  obtain ⟨rfl, journaled⟩ := appendEvent_ok journal
  have stored := (insertRow_ok inserted).1
  refine ⟨v, seen, require_ok_iff.mp running, ?_, ?_⟩
  · have found := (ownedApproval_ok_iff.mp returned).1
    dsimp only [Store.updateTask] at found
    rw [Table.lookup_insert stored] at found
    have named : some _ = some updated := (if_pos rfl).symm.trans found
    exact (Option.some.inj named).symm
  · exact ((writes_of_appended journaled key (identity_mem seen) rfl).comp
      (writes_insertApproval stored)).comp
      (writes_updateTask (f := waitingRow now v.row.nextEventSeq) (fun _ => rfl) (fun _ => rfl))

variable {approvalIds : Nat → String}

theorem openApproval_refines {task : TaskRow}
    (normal : normalizeApproval principalId taskId request = .ok fields)
    (owned : ownedTask s fields.principal fields.taskId = .ok task)
    (fresh : existingApproval s fields.taskId fields.stepId = none)
    (trimmed : strip approvalId = approvalId)
    (h : openApproval env now request fields approvalId task s = .ok (result, s')) :
    Refines s (.requestApproval now approvalIds principalId taskId request) s' := by
  obtain ⟨v, seen, running, -, writes⟩ := openApproval_effect owned h
  have named := normalizeApproval_ok normal
  subst named
  exact Refines.of_writes writes seen
    (.ask running (view_taskId seen) fresh rfl ⟨rfl, rfl, rfl, rfl⟩ rfl trimmed rfl)

/-- Either the approval on record for the step is returned and nothing changes, or one is opened. -/
theorem requestApproval_ok
    (h : requestApproval env now approvalIds principalId taskId request s = (.ok result, s')) :
    ∃ fields, normalizeApproval principalId taskId request = .ok fields ∧
      ((existingApproval s fields.taskId fields.stepId = some result.1 ∧ result.2.2 = false ∧
          s' = s) ∨
        ∃ approvalId task, existingApproval s fields.taskId fields.stepId = none ∧
          strip approvalId = approvalId ∧
          ownedTask s fields.principal fields.taskId = .ok task ∧
          openApproval env now request fields approvalId task s = .ok (result, s')) := by
  unfold requestApproval at h
  split at h
  · cases h
  · rename_i fields normal
    refine ⟨fields, normal, ?_⟩
    obtain ⟨body, member, once⟩ := retrying_ok h
    obtain ⟨i, -, rfl⟩ := List.mem_map.mp member
    obtain ⟨approvalId, named, task, owned, once⟩ := of_bind₂ once
    split at once
    · rename_i approval existing
      obtain ⟨-, -, requested, -, once⟩ := of_bind₂ once
      cases once
      exact Or.inl ⟨existing, rfl, rfl⟩
    · rename_i fresh
      have trimmed : strip approvalId = approvalId := by
        rw [normalizeIdentifier_ok named, strip_strip]
      exact Or.inr ⟨approvalId, task, fresh, trimmed, owned, once⟩

theorem requestApproval_refines
    (h : requestApproval env now approvalIds principalId taskId request s = (.ok result, s')) :
    Refines s (.requestApproval now approvalIds principalId taskId request) s' := by
  obtain ⟨fields, normal, found | opened⟩ := requestApproval_ok h
  · rw [found.2.2]
    exact Refines.refl s _
  · obtain ⟨approvalId, task, fresh, trimmed, owned, once⟩ := opened
    exact openApproval_refines normal owned fresh trimmed once

variable {resolvedBy : String}

theorem writes_decide {state : ApprovalState} (member : approval ∈ s.approvals.rows) :
    Writes approval.taskId
      (fun v =>
        { v with approvals := decideApproval approval.approvalId state now resolvedBy v.approvals })
      s (s.updateApprovals
        (fun row => row.approvalId == approval.approvalId && row.state == .pending)
        (fun row => { row with state, resolvedAt := some now, resolvedBy })) := by
  refine Writes.congr (writes_updateApprovals
    (p := fun row => row.approvalId == approval.approvalId && row.state == .pending)
    (f := fun row => { row with state, resolvedAt := some now, resolvedBy })
    (fun _ => rfl) (fun _ => rfl) ?_) ?_
  · intro row present selected
    simp only [Bool.and_eq_true, beq_iff_eq] at selected
    rw [approval_unique present member selected.1]
  · intro v _
    simp [decideApproval]

def resumedRow (now : Time) (resumeState : TaskState) (nextEventSeq : Nat) (task row : TaskRow) :
    TaskRow :=
  { row with
    state := resumeState, leaseOwner := if resumeState = .queued then "" else task.leaseOwner,
    leaseExpiresAt := if resumeState = .queued then none else task.leaseExpiresAt, updatedAt := now,
    nextEventSeq := nextEventSeq + 1, revision := row.revision + 1 }

def resolvedPayload (resumeState : TaskState) (state : ApprovalState) (approval : ApprovalRow) :
    TaskEventPayload where
  previousState := some .waitingApproval
  state := some resumeState
  approvalId := approval.approvalId
  toolStepId := approval.toolStepId
  toolCallId := approval.toolCallId
  toolName := approval.toolName
  reason := state.value

/-- What a decision makes of a Task that waits: its state, the event and, where it is queued again, the
end of its attempt. -/
def resolvedView (now : Time) (resumeState : TaskState) (state : ApprovalState)
    (resolvedBy : String) (approval : ApprovalRow) (task : TaskRow) (v : TaskView) : TaskView :=
  { v with
    row := resumedRow now resumeState task.nextEventSeq task v.row
    events := v.events ++
      [task.event .approvalResolved (resolvedPayload resumeState state approval) now]
    attempts := if resumeState = .queued then
      finishRunning .interrupted now "approval_wait_interrupted" v.attempts else v.attempts
    approvals := decideApproval approval.approvalId state now resolvedBy v.approvals }

/-- A decided approval is returned as it is. -/
theorem resolveApproval_effect {approved : Bool} {resumeState : TaskState}
    {result : TaskApprovalRecord × Option TaskEvent × Bool}
    (h : resolveApproval env now principalId approvalId approved resumeState resolvedBy s =
      .ok (result, s')) :
    ∃ approval ∈ s.approvals.rows, approval.approvalId = strip approvalId ∧
      ((approval.state ≠ .pending ∧ result = (approval, none, false) ∧ s' = s) ∨
        (approval.state = .pending ∧ result.2.2 = true ∧
          (resumeState = .running ∨ resumeState = .queued) ∧
          result.1 = { approval with
            state := if approved then .approved else .denied, resolvedAt := some now,
            resolvedBy := strip resolvedBy } ∧
          ∃ v, s.view approval.taskId = some v ∧ v.row.state = .waitingApproval ∧
            approval ∈ v.approvals ∧
            Writes approval.taskId
              (resolvedView now resumeState (if approved then .approved else .denied)
                (strip resolvedBy) approval v.row) s s')) := by
  obtain ⟨_, target, principal, -, key, normal, h⟩ := of_bind₃ h
  obtain ⟨-, -, approval, owned, h⟩ := of_bind₂ h
  obtain ⟨member, rfl⟩ := ownedApproval_mem owned
  refine ⟨approval, member, normalizeIdentifier_ok normal, ?_⟩
  split at h
  · rename_i pending
    obtain ⟨task, found, _, waiting, ⟨appended, store⟩, journal, updated, reread, h⟩ := of_bind₄ h
    cases h
    obtain ⟨v, seen, rfl, taskKey⟩ := ownedTask_view found
    rw [require_ok_iff] at waiting target
    have known : approval ∈ v.approvals := by
      rw [view_approvals seen]
      exact mem_approvalsOf.mpr ⟨member, rfl⟩
    obtain ⟨rfl, journaled⟩ := appendEvent_ok journal
    have decided : updated = { approval with
        state := if approved then .approved else .denied, resolvedAt := some now,
        resolvedBy := strip resolvedBy } := by
      have stored : store.approvals.lookup approval.approvalId = some updated := by
        have found := (ownedApproval_ok_iff.mp reread).1
        split at found <;> exact found
      rw [journaled.approvals] at stored
      unfold Store.updateApprovals at stored
      rw [Table.lookup_update, Table.lookup_of_mem member, Option.map_some,
        Option.some.injEq] at stored
      rw [← stored]
      simp [pending]
    refine Or.inr ⟨pending, rfl, target, decided, v, seen, waiting, known, ?_⟩
    have owned := identity_mem seen
    rcases target with rfl | rfl
    · exact ((writes_decide member).comp (writes_of_appended journaled taskKey owned rfl)).comp
        (writes_updateTask (f := resumedRow now .running v.row.nextEventSeq v.row)
          (fun _ => rfl) (fun _ => rfl))
    · exact (((writes_decide member).comp (writes_of_appended journaled taskKey owned rfl)).comp
        (writes_finishActiveAttempt .interrupted now "approval_wait_interrupted")).comp
        (writes_updateTask (f := resumedRow now .queued v.row.nextEventSeq v.row)
          (fun _ => rfl) (fun _ => rfl))
  · rename_i decided
    cases h
    exact Or.inl ⟨decided, rfl, rfl⟩

theorem resolveApproval_refines {approved : Bool} {resumeState : TaskState}
    {result : TaskApprovalRecord × Option TaskEvent × Bool}
    (h : resolveApproval env now principalId approvalId approved resumeState resolvedBy s =
      .ok (result, s')) :
    Refines s (.resolveApproval now principalId approvalId approved resumeState resolvedBy) s' := by
  obtain ⟨approval, member, named, ⟨-, -, rfl⟩ | decided⟩ := resolveApproval_effect h
  · exact Refines.refl s' _
  · obtain ⟨pending, -, target, -, v, seen, waiting, known, writes⟩ := decided
    rcases target with rfl | rfl
    · exact Refines.of_writes writes seen
        (.resolve waiting known pending named ⟨rfl, rfl, rfl, rfl⟩ rfl)
    · exact Refines.of_writes writes seen
        (.resolveQueued waiting known pending named ⟨rfl, rfl, rfl, rfl⟩ rfl)

theorem writes_trace {traces : Table TraceRow.taskId} {trace : TraceRow}
    (here : traces.lookup taskId = some trace)
    (frame : ∀ other, other ≠ taskId → traces.lookup other = s.traces.lookup other) :
    Writes taskId (fun v => { v with trace := some trace }) s { s with traces } where
  here := by
    unfold Store.view
    rw [here, Option.map_map]
    rfl
  frame other apart := by
    unfold Store.slice
    rw [frame other apart]
    rfl
  sessions := rfl
  identities := rfl
  feed := FeedGrows.refl rfl rfl
  journal := JournalGrows.refl rfl rfl rfl

theorem saveTrace_refines {entries : List TaskTraceEntry} {finalOutput : String}
    {result : TaskExecutionTrace}
    (h : saveTrace env now principalId taskId entries finalOutput s = .ok (result, s')) :
    Refines s (.saveTrace now principalId taskId entries finalOutput) s' := by
  obtain ⟨principal, -, task, -, -, -, h⟩ := of_bind₃ h
  obtain ⟨-, -, row, owned, h⟩ := of_bind₂ h
  obtain ⟨v, seen, rfl, -⟩ := ownedTask_view owned
  split at h
  · rename_i traces inserted
    cases h
    have stored : traces.lookup task = some (newTraceRow env now task entries finalOutput) := by
      rw [Table.lookup_insert inserted]
      exact if_pos rfl
    refine Refines.of_writes (writes_trace stored ?_) seen .saveTrace
    intro other apart
    rw [Table.lookup_insert inserted]
    exact if_neg (Ne.symm apart)
  · obtain ⟨trace, found, h⟩ := of_bind h
    cases h
    refine Refines.of_writes (writes_trace (orRaise_ok_iff.mp found) ?_) seen .saveTrace
    intro other apart
    rw [Table.lookup_update]
    cases old : s.traces.lookup other with
    | none => rfl
    | some trace =>
      have key : trace.taskId = other := Table.lookup_key old
      simp [key, apart]

section Creation

/-- The row is inserted before the events are appended, so they find it. -/
theorem insertTask_ok {selectedAgent : String} {request : CreateRequest} {fields : CreateFields}
    {candidate : String} {result : TaskRecord × Bool}
    (h : insertTask env now selectedAgent request fields candidate s = .ok (result, s')) :
    ∃ taskId tasks store, (strip taskId = taskId ∧ taskId ≠ "" ∧ taskId.length ≤ 128) ∧
      s.tasks.insert (newTaskRow now taskId selectedAgent request fields) = some tasks ∧
      (∀ other ∈ s.tasks.rows, ¬ (other.principalId = request.scope.principalId ∧
        other.clientRequestId = fields.requestId)) ∧
      Appended { s with tasks } store
        (newTaskRow now taskId selectedAgent request fields).principalId
        ((newTaskRow now taskId selectedAgent request fields).event .taskCreated
          { state := some .queued } now) ∧
      s' = store.updateTask taskId (fun task => { task with nextEventSeq := 2 }) ∧
      result = ({ newTaskRow now taskId selectedAgent request fields with nextEventSeq := 2 },
        true) := by
  obtain ⟨-, -, -, -, -, -, taskId, normal, h⟩ := of_bind₄ h
  obtain ⟨tasks, inserted, row, owned, ⟨appended, store⟩, journal, created, returned,
    h⟩ := of_bind₄ h
  cases h
  have trimmed : strip taskId = taskId ∧ taskId ≠ "" ∧ taskId.length ≤ 128 := by
    obtain ⟨rfl, sized⟩ := normalizeIdentifier_ok_iff.mp normal
    exact ⟨strip_strip candidate, sized⟩
  obtain ⟨stored, free⟩ := insertRow_ok inserted
  have read : row = newTaskRow now taskId selectedAgent request fields := by
    have found := (ownedTask_ok_iff.mp owned).1
    rw [Table.lookup_insert stored] at found
    simpa [newTaskRow] using found.symm
  subst read
  obtain ⟨rfl, journaled⟩ := appendEvent_ok journal
  refine ⟨taskId, tasks, store, trimmed, stored, ?_, journaled, rfl, ?_⟩
  · intro other member same
    simpa [same.1, same.2] using free other member
  have last := (ownedTask_ok_iff.mp returned).1
  dsimp only [Store.updateTask] at last
  rw [Table.lookup_update, journaled.tasks, Table.lookup_insert stored] at last
  simp only [newTaskRow, if_pos, Option.map_some, Option.some.injEq, beq_self_eq_true] at last
  rw [← last]
  rfl

theorem insertTask_refines {selectedAgent : String} {taskIds : Nat → String}
    {request : CreateRequest} {fields : CreateFields} {candidate : String}
    {result : TaskRecord × Bool} (rooted : Rooted s)
    (h : insertTask env now selectedAgent request fields candidate s = .ok (result, s')) :
    Refines s (.create now taskIds request) s' := by
  obtain ⟨taskId, tasks, store, trimmed, stored, free, journaled, rfl, -⟩ := insertTask_ok h
  -- after the row is in, the rest of the call is a write on its Task
  have key : ((newTaskRow now taskId selectedAgent request fields).event .taskCreated
      { state := some .queued } now).taskId = taskId := rfl
  have inserted : (newTaskRow now taskId selectedAgent request fields).identity ∈
      ({ s with tasks } : Store).tasks.rows.map TaskRow.identity := by
    rw [Table.insert_rows stored, List.map_append]
    exact List.mem_concat_self
  have writes := (writes_of_appended journaled key inserted rfl).comp
    (writes_updateTask (f := fun task => { task with nextEventSeq := 2 }) (fun _ => rfl)
      (fun _ => rfl))
  have absent : s.tasks.lookup taskId = none :=
    Table.lookup_eq_none_iff.mpr (Table.insert_fresh stored)
  refine ⟨writes.sessions, Or.inr ⟨(newTaskRow now taskId selectedAgent request fields).identity,
    ?_, ?_⟩, ⟨writes.feed.rows, writes.feed.counter⟩, ?_, ?_⟩
  · rw [writes.identities, Table.insert_rows stored, List.map_append, List.map_singleton]
  · intro old member
    obtain ⟨row, present, rfl⟩ := List.mem_map.mp member
    exact free row present
  · refine ⟨writes.journal.events, ?_, writes.journal.fed⟩
    intro id member
    apply writes.journal.tasks
    rw [Table.insert_rows stored, List.map_append]
    exact List.mem_append_left _ member
  · intro other
    by_cases same : other = taskId
    · subst same
      have empty := rooted other (view_none_iff.mpr absent)
      rw [TaskSlice.mk.injEq] at empty
      obtain ⟨-, events, attempts, steps, approvals, trace⟩ := empty
      have born : ({ s with tasks } : Store).view other = some
          { row := newTaskRow now other selectedAgent request fields
            events := [], attempts := [], steps := [], approvals := [], trace := none } := by
        rw [view_eq_some_iff]
        refine ⟨?_, events.symm, attempts.symm, steps.symm, approvals.symm, trace.symm⟩
        exact (Table.lookup_insert stored other).trans (if_pos rfl)
      have change : RowChange (newTaskRow now other selectedAgent request fields)
          { newTaskRow now other selectedAgent request fields with nextEventSeq := 2 } .queued 1 0 :=
        ⟨rfl, rfl, rfl, rfl⟩
      exact .created (view_none_iff.mpr absent) rfl rfl rfl change (writes.view_some born)
        trimmed.1 trimmed.2 ⟨taskIds, request, rfl, rfl⟩
    · refine .same ((writes.frame other same).trans ?_)
      have kept : tasks.lookup other = s.tasks.lookup other :=
        (Table.lookup_insert stored other).trans (if_neg (Ne.symm same))
      unfold Store.slice
      rw [kept]
      rfl

theorem create_refines {taskIds : Nat → String} {request : CreateRequest}
    {result : TaskRecord × Bool} (rooted : Rooted s)
    (h : create env now taskIds request s = (.ok result, s')) :
    Refines s (.create now taskIds request) s' := by
  unfold create at h
  split at h
  · cases h
  · obtain ⟨body, member, once⟩ := retrying_ok h
    obtain ⟨i, -, rfl⟩ := List.mem_map.mp member
    obtain ⟨session, -, -, -, once⟩ := of_bind₂ once
    split at once
    · obtain ⟨-, -, once⟩ := of_bind once
      cases once
      exact Refines.refl s _
    · exact insertTask_refines rooted once

end Creation

theorem commit_returned {α : Type} {body : Transaction.Body Store TaskError α}
    (h : outcome (Transaction.commit body s) = (.ok ⟨⟩, s')) : ∃ a, body s = .ok (a, s') := by
  obtain ⟨a, returned⟩ := outcome_ok h
  exact ⟨a, Transaction.commit_ok_iff.mp returned⟩

/-- Every call of the repository that returns is a move of the Task it names, or leaves every Task as
it was. -/
theorem step_refines {op : Op} (rooted : Rooted s) (h : step env s op = some s') :
    Refines s op s' := by
  have called := step_eq_some h
  cases op with
  | create =>
    obtain ⟨result, returned⟩ := outcome_ok called
    exact create_refines rooted returned
  | appendEvent =>
    obtain ⟨result, returned⟩ := commit_returned called
    exact appendTaskEvent_refines returned
  | requestCancel =>
    obtain ⟨result, returned⟩ := commit_returned called
    exact requestCancel_refines returned
  | requestPause =>
    obtain ⟨result, returned⟩ := commit_returned called
    exact requestPause_refines returned
  | resume =>
    obtain ⟨result, returned⟩ := commit_returned called
    exact resume_refines returned
  | transition =>
    obtain ⟨result, returned⟩ := commit_returned called
    exact transition_refines returned
  | claimNext =>
    obtain ⟨result, returned⟩ := commit_returned called
    exact claimNext_refines returned
  | activateStaged =>
    obtain ⟨result, returned⟩ := commit_returned called
    exact activateStaged_refines returned
  | renewLease =>
    obtain ⟨result, returned⟩ := commit_returned called
    exact renewLease_refines returned
  | recoverExpiredLeases =>
    obtain ⟨result, returned⟩ := commit_returned called
    exact recoverExpiredLeases_refines returned
  | recoverInterrupted =>
    obtain ⟨result, returned⟩ := commit_returned called
    exact recoverInterrupted_refines rooted returned
  | annotateApprovalReview =>
    obtain ⟨result, returned⟩ := commit_returned called
    exact annotateApprovalReview_refines rooted returned
  | beginToolStep =>
    obtain ⟨result, returned⟩ := commit_returned called
    exact beginToolStep_refines returned
  | finishToolStep =>
    obtain ⟨result, returned⟩ := commit_returned called
    exact finishToolStep_refines returned
  | pauseForUnknownToolOutcome =>
    obtain ⟨result, returned⟩ := commit_returned called
    exact pauseForUnknownToolOutcome_refines returned
  | requestApproval =>
    obtain ⟨result, returned⟩ := outcome_ok called
    exact requestApproval_refines returned
  | resolveApproval =>
    obtain ⟨result, returned⟩ := commit_returned called
    exact resolveApproval_refines returned
  | saveTrace =>
    obtain ⟨result, returned⟩ := commit_returned called
    exact saveTrace_refines returned

/-- No row of a Task is left without it. -/
theorem Refines.rooted {op : Op} (refines : Refines s op s') (rooted : Rooted s) : Rooted s' := by
  intro taskId absent
  cases refines.changed taskId with
  | same slice => rw [slice, rooted taskId (by rw [← view_of_slice slice, absent])]
  | moved before after | created _ _ _ _ _ after => rw [after] at absent; cases absent

end Knoa.Tasks
