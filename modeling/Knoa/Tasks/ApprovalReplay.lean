import Knoa.Library.Transition
import Knoa.Tasks.ToolRefinement

/-!
# Asking again for an approval

A request for an action whose approval is on record is answered with that approval if the reason
still reads as requested.
-/
namespace Knoa.Tasks
open Relational Transaction
open Transition (accepted final)

variable {env : Env} {s s' : Store} {caller principalId taskId stepId approvalId : String}

/-- What may be done to an approval after it was requested. -/
inductive Review
  | annotate (reason : String)
  | resolve (now : Time) (approved : Bool) (resumeState : TaskState) (resolvedBy : String)

def reviewStep (env : Env) (principalId approvalId : String) (s : Store) : Review → Option Store
  | .annotate reason =>
    match annotateApprovalReview env principalId approvalId reason s with
    | .ok (_, s') => some s'
    | .error _ => none
  | .resolve now approved resumeState resolvedBy =>
    match resolveApproval env now principalId approvalId approved resumeState resolvedBy s with
    | .ok (_, s') => some s'
    | .error _ => none

def written (approvalId : String) (taken : Store × Review) : Option String :=
  match taken.2, taken.1.approvals.lookup approvalId with
  | .annotate reason, some row =>
    if row.state = .pending then some (takeChars (strip reason) 2000) else none
  | _, _ => none

def reasonAfter (env : Env) (principalId approvalId : String) (s : Store) (reviews : List Review)
    (reason : String) : String :=
  (accepted (reviewStep env principalId approvalId) s reviews).foldl
    (fun reason taken => (written approvalId taken).getD reason) reason

/-- The approval of an action and what a request for the action reads beside it. -/
structure Standing (s : Store) (principalId taskId stepId : String) (row : ApprovalRow) : Prop where
  existing : existingApproval s taskId stepId = some row
  event : eventOf s taskId row.requestEventSeq ≠ none
  task : ∃ task, ownedTask s principalId taskId = .ok task
  normal : strip row.approvalId = row.approvalId

/-- The row after a review, with the reason that then stands on record. -/
structure Reworded (row row' : ApprovalRow) (reason : String) : Prop where
  approvalId : row'.approvalId = row.approvalId
  toolName : row'.toolName = row.toolName
  arguments : row'.arguments = row.arguments
  reason : row'.reason = reason

namespace Standing

variable {row : ApprovalRow}

section
variable (stands : Standing s principalId taskId stepId row)
include stands

theorem lookup : s.approvals.lookup row.approvalId = some row :=
  Table.lookup_of_mem (List.mem_of_find?_eq_some stands.existing)

theorem updated {p : ApprovalRow → Bool} {f : ApprovalRow → ApprovalRow}
    (approvals : s'.approvals.rows = s.approvals.rows.map fun row => if p row then f row else row)
    (same : ∀ row, (f row).taskId = row.taskId ∧ (f row).toolStepId = row.toolStepId ∧
      (f row).requestEventSeq = row.requestEventSeq ∧ (f row).approvalId = row.approvalId)
    (events : ∀ event ∈ s.events.rows, ∃ event' ∈ s'.events.rows, event'.key = event.key)
    (tasks : ∀ task ∈ s.tasks.rows, ∃ task' ∈ s'.tasks.rows,
      task'.taskId = task.taskId ∧ task'.principalId = task.principalId) :
    Standing s' principalId taskId stepId (if p row then f row else row) := by
  have kept : ∀ row, (if p row then f row else row).taskId = row.taskId ∧
      (if p row then f row else row).toolStepId = row.toolStepId ∧
      (if p row then f row else row).requestEventSeq = row.requestEventSeq ∧
      (if p row then f row else row).approvalId = row.approvalId := by
    intro row
    split
    · exact same row
    · exact ⟨rfl, rfl, rfl, rfl⟩
  refine ⟨?_, ?_, ?_, ?_⟩
  · unfold existingApproval
    rw [approvals, List.find?_map]
    have found := stands.existing
    unfold existingApproval at found
    have asks : ((fun row : ApprovalRow => row.taskId == taskId && row.toolStepId == stepId) ∘
        fun row => if p row then f row else row) =
          fun row => row.taskId == taskId && row.toolStepId == stepId := by
      funext row
      rw [Function.comp_apply, (kept row).1, (kept row).2.1]
    rw [asks, found]
    rfl
  · obtain ⟨event, found⟩ := Option.ne_none_iff_exists'.mp stands.event
    obtain ⟨event', member, key⟩ := events event (Table.lookup_mem found)
    have known := Table.lookup_of_mem member
    rw [key, Table.lookup_key found] at known
    rw [(kept row).2.2.1, eventOf, known]
    exact Option.some_ne_none event'
  · obtain ⟨task, owned⟩ := stands.task
    obtain ⟨found, principal⟩ := ownedTask_ok_iff.mp owned
    obtain ⟨task', member, key, owner⟩ := tasks task (Table.lookup_mem found)
    have known := Table.lookup_of_mem member
    rw [key, Table.lookup_key found] at known
    exact ⟨task', ownedTask_ok_iff.mpr ⟨known, owner.trans principal⟩⟩
  · rw [(kept row).2.2.2, stands.normal]

theorem owned {principal key : String} {approval : ApprovalRow}
    (named : normalizeIdentifier row.approvalId "approval_id" 128 = .ok key)
    (owned : ownedApproval s principal key = .ok approval) :
    key = row.approvalId ∧ approval = row := by
  have found := (ownedApproval_ok_iff.mp owned).1
  rw [normalizeIdentifier_ok named, stands.normal, stands.lookup] at found
  exact ⟨(normalizeIdentifier_ok named).trans stands.normal, (Option.some.inj found).symm⟩

theorem annotated {reason : String} {result : TaskApprovalRecord × TaskEvent}
    (h : annotateApprovalReview env caller row.approvalId reason s = .ok (result, s')) :
    ∃ row', Standing s' principalId taskId stepId row' ∧ Reworded row row'
      ((written row.approvalId (s, .annotate reason)).getD row.reason) := by
  have puts : written row.approvalId (s, .annotate reason) =
      if row.state = .pending then some (takeChars (strip reason) 2000) else none := by
    simp only [written, stands.lookup]
  obtain ⟨principal, -, key, named, approval, read, requested, -, h⟩ := of_bind₄ h
  obtain ⟨rfl, rfl⟩ := stands.owned named read
  split at h
  · rename_i pending
    obtain ⟨payload, -, updated, -, h⟩ := of_bind₂ h
    cases h
    refine ⟨_, stands.updated rfl (fun _ => ⟨rfl, rfl, rfl, rfl⟩) ?_
      fun task member => ⟨task, member, rfl, rfl⟩, ?_⟩
    · intro event member
      refine ⟨_, List.mem_map_of_mem member, ?_⟩
      split <;> rfl
    · rw [if_pos (beq_self_eq_true _), puts, if_pos pending]
      exact ⟨rfl, rfl, rfl, rfl⟩
  · rename_i decided
    cases h
    rw [puts, if_neg decided]
    exact ⟨approval, stands, rfl, rfl, rfl, rfl⟩

theorem resolved {now : Time} {approved : Bool} {resumeState : TaskState} {resolvedBy : String}
    {result : TaskApprovalRecord × Option TaskEvent × Bool}

    (h : resolveApproval env now caller row.approvalId approved resumeState resolvedBy s =
      .ok (result, s')) :
    ∃ row', Standing s' principalId taskId stepId row' ∧ Reworded row row' row.reason := by
  obtain ⟨_, -, principal, -, key, named, h⟩ := of_bind₃ h
  obtain ⟨-, -, approval, read, h⟩ := of_bind₂ h
  obtain ⟨rfl, rfl⟩ := stands.owned named read
  split at h
  · rename_i pending
    obtain ⟨task, -, -, -, ⟨appended, store⟩, journal, updated, -, h⟩ := of_bind₄ h
    cases h
    obtain ⟨rfl, journaled⟩ := appendEvent_ok journal
    have rows := congrArg Table.rows journaled.approvals
    refine ⟨_, stands.updated (p := fun row => row.approvalId == approval.approvalId && row.state == .pending)
      (f := fun row => { row with
        state := if approved then .approved else .denied, resolvedAt := some now,
        resolvedBy := strip resolvedBy }) ?_ (fun _ => ⟨rfl, rfl, rfl, rfl⟩) ?_ ?_, ?_⟩
    · split <;> exact rows
    · intro event member
      refine ⟨event, ?_, rfl⟩
      have appended : event ∈ store.events.rows := by
        rw [journaled.events]
        exact List.mem_append_left _ member
      split <;> exact appended
    · intro row member
      have present : row ∈ store.tasks.rows := by
        rw [journaled.tasks]
        exact member
      split <;>
        · refine ⟨_, List.mem_map_of_mem present, ?_⟩
          split <;> exact ⟨rfl, rfl⟩
    · split <;> exact ⟨rfl, rfl, rfl, rfl⟩
  · cases h
    exact ⟨approval, stands, rfl, rfl, rfl, rfl⟩

theorem reviewed {review : Review} (h : reviewStep env caller row.approvalId s review = some s') :
    ∃ row', Standing s' principalId taskId stepId row' ∧
      Reworded row row' ((written row.approvalId (s, review)).getD row.reason) := by
  cases review with
  | annotate reason =>
    simp only [reviewStep] at h
    split at h <;> cases h
    rename_i result called
    exact stands.annotated called
  | resolve now approved resumeState resolvedBy =>
    simp only [reviewStep] at h
    split at h <;> cases h
    rename_i result called
    exact stands.resolved called

theorem reviews (caller : String) (reviews : List Review) :
    ∃ row', Standing (final (reviewStep env caller row.approvalId) s reviews)
        principalId taskId stepId row' ∧
      Reworded row row' (reasonAfter env caller row.approvalId s reviews row.reason) := by
  induction reviews generalizing s row with
  | nil => exact ⟨row, stands, rfl, rfl, rfl, rfl⟩
  | cons review reviews ih =>
    unfold reasonAfter
    cases taken : reviewStep env caller row.approvalId s review with
    | none =>
      rw [final, Transition.next_of_none taken, Transition.accepted_cons_none taken]
      exact ih stands
    | some s' =>
      rw [final, Transition.next_of_some taken, Transition.accepted_cons_some taken]
      obtain ⟨between, known, first⟩ := stands.reviewed taken
      obtain ⟨row', after, rest⟩ := ih known
      rw [first.approvalId, first.reason] at rest
      rw [first.approvalId] at after
      exact ⟨row', after, rest.approvalId.trans first.approvalId, rest.toolName.trans first.toolName,
        rest.arguments.trans first.arguments, rest.reason⟩

end

end Standing

theorem opened_standing {now : Time} {approvalIds : Nat → String} {request : ApprovalRequest}
    {approval : TaskApprovalRecord} {event : TaskEvent}
    (h : requestApproval env now approvalIds principalId taskId request s =
      (.ok (approval, event, true), s')) :
    ∃ fields, normalizeApproval principalId taskId request = .ok fields ∧
      Standing s' fields.principal fields.taskId fields.stepId approval ∧
      approval.toolName = fields.name ∧ approval.arguments = request.arguments ∧
      approval.reason = fields.reason := by
  obtain ⟨fields, named, ⟨-, called, -⟩ | ⟨approvalId, task, fresh, normal, owned, opened⟩⟩ :=
    requestApproval_ok h
  · cases called
  refine ⟨fields, named, ?_⟩
  obtain ⟨-, -, ⟨appended, store⟩, journal, approvals, inserted, updated, reread,
    opened⟩ := of_bind₄ opened
  cases opened
  obtain ⟨rfl, journaled⟩ := appendEvent_ok journal
  have stored := (insertRow_ok inserted).1
  have found := (ownedApproval_ok_iff.mp reread).1
  dsimp only [Store.updateTask] at found
  rw [Table.lookup_insert stored] at found
  have new : some _ = some approval := (if_pos rfl).symm.trans found
  cases Option.some.inj new
  refine ⟨⟨?_, ?_, ?_, normal⟩, rfl, rfl, rfl⟩
  · unfold existingApproval at fresh ⊢
    dsimp only [Store.updateTask]
    rw [Table.insert_rows stored, journaled.approvals, List.find?_append, fresh]
    simp [newApprovalRow]
  · have last : ∀ event, store.events.rows = s.events.rows ++ [event] →
        store.events.lookup event.key = some event := by
      intro event rows
      refine Table.lookup_of_mem ?_
      rw [rows]
      exact List.mem_concat_self
    have known := last _ journaled.events
    rw [EventRow.key, Table.lookup_key (ownedTask_ok_iff.mp owned).1] at known
    exact fun missing => Option.some_ne_none _ (known.symm.trans missing)
  · obtain ⟨found, principal⟩ := ownedTask_ok_iff.mp owned
    have known : store.tasks.lookup fields.taskId = some task := by
      rw [journaled.tasks]
      exact found
    have rewritten := Table.lookup_update store.tasks (fun row => row.taskId == fields.taskId)
      (waitingRow now task.nextEventSeq) (fun _ => rfl) fields.taskId
    rw [known] at rewritten
    refine ⟨_, ownedTask_ok_iff.mpr ⟨rewritten, ?_⟩⟩
    dsimp only
    split <;> exact principal

theorem normalizeApproval_again {request : ApprovalRequest} {fields : ApprovalFields}
    {toolCallId : String} {expiresAt : Option Time}
    (h : normalizeApproval principalId taskId request = .ok fields)
    (called : strip toolCallId ≠ "" ∧ (strip toolCallId).length ≤ 256) :
    normalizeApproval principalId taskId
        { request with toolCallId, expiresAt } =
      .ok { fields with callId := strip toolCallId } := by
  obtain ⟨_, principal, _, task, _, step, _, -, h⟩ := of_bind₄ h
  obtain ⟨_, name, _, short, _, small, h⟩ := of_bind₃ h
  cases h
  have call : normalizeIdentifier toolCallId "tool_call_id" 256 = .ok (strip toolCallId) :=
    normalizeIdentifier_ok_iff.mpr ⟨rfl, called⟩
  simp only [normalizeApproval, principal, task, step, call, name, short, small]
  rfl

theorem Standing.replay {request : ApprovalRequest} {fields : ApprovalFields} {row : ApprovalRow}
    {now : Time} {candidate : String}
    (stands : Standing s fields.principal fields.taskId fields.stepId row)
    (name : row.toolName = fields.name) (arguments : row.arguments = request.arguments)
    (drawn : strip candidate ≠ "" ∧ (strip candidate).length ≤ 128) :
    ∃ event, requestApprovalOnce env now request fields candidate s =
      if row.reason = fields.reason then .ok ((row, event, false), s)
      else .error (.idempotencyConflict "tool_step_id already belongs to another approval") := by
  obtain ⟨task, owned⟩ := stands.task
  obtain ⟨requested, known⟩ := Option.ne_none_iff_exists'.mp stands.event
  refine ⟨{ requested with eventType := .approvalRequested }, ?_⟩
  have id : normalizeIdentifier candidate "approval_id" 128 = .ok (strip candidate) :=
    normalizeIdentifier_ok_iff.mpr ⟨rfl, drawn⟩
  simp only [requestApprovalOnce, id, owned, stands.existing, Transaction.ok_bind]
  split
  · rename_i kept
    rw [require_of ⟨name, arguments, kept⟩, known]
    rfl
  · rename_i lost
    rw [require_of_not fun same => lost same.2.2]
    rfl

/-- A request for the action of an approval is answered with it, while its reason reads as then. -/
theorem replayed_iff (env : Env) (now later : Time) (approvalIds laterIds : Nat → String)
    (principalId taskId : String) (request : ApprovalRequest) (s s' : Store)
    (approval : TaskApprovalRecord) (event : TaskEvent)
    (opened : requestApproval env now approvalIds principalId taskId request s =
      (.ok (approval, event, true), s'))
    (reviews : List Review) (toolCallId : String) (expiresAt : Option Time)
    (called : strip toolCallId ≠ "" ∧ (strip toolCallId).length ≤ 256)
    (drawn : strip (laterIds 0) ≠ "" ∧ (strip (laterIds 0)).length ≤ 128) :
    let t := final (reviewStep env principalId approval.approvalId) s' reviews
    (∃ row event', t.approvals.lookup approval.approvalId = some row ∧
      requestApproval env later laterIds principalId taskId
        { request with toolCallId, expiresAt } t = (.ok (row, event', false), t)) ↔
      reasonAfter env principalId approval.approvalId s' reviews (strip request.reason) =
        strip request.reason := by
  intro t
  obtain ⟨fields, named, stands, name, arguments, reason⟩ := opened_standing opened
  obtain ⟨row, stands, reworded⟩ := stands.reviews principalId reviews
  have asked : fields.reason = strip request.reason := by rw [normalizeApproval_ok named]
  rw [reason] at reworded
  obtain ⟨event', once⟩ := @Standing.replay env t
    { request with toolCallId, expiresAt }
    { fields with callId := strip toolCallId } row later (laterIds 0) stands
    (reworded.toolName.trans name) (reworded.arguments.trans arguments) drawn
  rw [reworded.reason] at once
  have retried : requestApproval env later laterIds principalId taskId
      { request with toolCallId, expiresAt } t =
        retrying retryApprovalId (.runtime "Could not allocate a unique approval ID")
          ((List.range 5).map fun i => requestApprovalOnce env later
            { request with toolCallId, expiresAt }
            { fields with callId := strip toolCallId } (laterIds i)) t := by
    unfold requestApproval
    rw [normalizeApproval_again named called]
  rw [← asked, retried, List.range_succ_eq_map, List.map_cons, retrying, commit]
  by_cases kept : reasonAfter env principalId approval.approvalId s' reviews fields.reason =
      fields.reason
  · rw [once, if_pos kept]
    refine iff_of_true ⟨row, event', ?_, rfl⟩ kept
    rw [← reworded.approvalId]
    exact stands.lookup
  · rw [once, if_neg kept]
    refine iff_of_false ?_ kept
    rintro ⟨row', event', -, returned⟩
    cases returned

/-- A running Task that is about to ask. -/
def sampleAsking : Store := final (step sampleEnv) sampleStore [sampleCreate "t", .claimNext 0 "w" 60 ""]

def sampleReplayed : ApprovalRequest where
  toolStepId := "action"
  toolCallId := "c"
  toolName := "write"
  arguments := .emptyObject
  reason := "needs a write"

def sampleAsked : Store := (requestApproval sampleEnv 1 (fun _ => "a") "p" "t" sampleReplayed sampleAsking).2

def sampleFields : ApprovalFields := ⟨"p", "t", "action", "c", "write", "needs a write"⟩

theorem sampleAsked_opened :
    requestApproval sampleEnv 1 (fun _ => "a") "p" "t" sampleReplayed sampleAsking =
      (.ok (newApprovalRow 1 "a" 3 sampleReplayed sampleFields,
        ⟨"t", 3, .approvalRequested, approvalPayload "a" sampleReplayed sampleFields, 1⟩, true),
        sampleAsked) :=
  Prod.ext (by decide +kernel) rfl

theorem replayed_after_approval :
    let t := final (reviewStep sampleEnv "p" "a") sampleAsked [.resolve 2 true .running ""]
    ∃ row event, t.approvals.lookup "a" = some row ∧
      requestApproval sampleEnv 3 (fun _ => "b") "p" "t" { sampleReplayed with toolCallId := "d" } t =
        (.ok (row, event, false), t) :=
  (replayed_iff sampleEnv 1 3 (fun _ => "a") (fun _ => "b") "p" "t" sampleReplayed sampleAsking
    sampleAsked _ _ sampleAsked_opened [.resolve 2 true .running ""] "d" none
    (by decide) (by decide)).mpr (by decide +kernel)

/-- The reviewer's remark stands in the place of the reason. -/
theorem annotated_not_replayed : ¬ ∀ (env : Env) (now later : Time)
    (approvalIds laterIds : Nat → String) (principalId taskId : String) (request : ApprovalRequest)
    (s s' : Store) (approval : TaskApprovalRecord) (event : TaskEvent),
    requestApproval env now approvalIds principalId taskId request s =
      (.ok (approval, event, true), s') →
    ∀ (reviews : List Review) (toolCallId : String) (expiresAt : Option Time),
    (strip toolCallId ≠ "" ∧ (strip toolCallId).length ≤ 256) →
    (strip (laterIds 0) ≠ "" ∧ (strip (laterIds 0)).length ≤ 128) →
    let t := final (reviewStep env principalId approval.approvalId) s' reviews
    ∃ row event', t.approvals.lookup approval.approvalId = some row ∧
      requestApproval env later laterIds principalId taskId
        { request with toolCallId, expiresAt } t = (.ok (row, event', false), t) := by
  intro claim
  let reviews := [Review.annotate "allowed by policy", .resolve 2 true .running "reviewer"]
  obtain ⟨row, event, -, returned⟩ := claim sampleEnv 1 3 (fun _ => "a") (fun _ => "b") "p" "t"
    sampleReplayed sampleAsking sampleAsked _ _ sampleAsked_opened reviews "d" none
    (by decide) (by decide)
  have refused : (requestApproval sampleEnv 3 (fun _ => "b") "p" "t"
      { sampleReplayed with toolCallId := "d", expiresAt := none }
      (final (reviewStep sampleEnv "p" "a") sampleAsked reviews)).1.toOption.isNone = true := by
    decide +kernel
  exact Bool.false_ne_true ((congrArg (fun result => result.1.toOption.isNone) returned).symm.trans refused)

end Knoa.Tasks
