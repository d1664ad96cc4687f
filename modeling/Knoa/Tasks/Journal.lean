import Knoa.Tasks.Repository

/-!
# The event journal

`_append_event` with the principal feed and the notification intents, and
`_finish_active_attempt`.
-/
namespace Knoa.Tasks
open Transaction (of_bind)

def maxEventBytes : Nat := 512 * 1024

/-- `_event_json`: the payload, or the error of an oversize one. -/
def eventJson (env : Env) (payload : TaskEventPayload) : Except TaskError TaskEventPayload :=
  if maxEventBytes < env.eventBytes payload then
    .error (.value "Task event payload exceeds the size limit")
  else .ok payload

structure NotificationIntent where
  kind : String
  policyKey : String
  deriving DecidableEq, Repr

def notificationIntentForEvent : TaskEventType → Option NotificationIntent
  | .completed => some { kind := "result", policyKey := "completed" }
  | .failed => some { kind := "recovery", policyKey := "failed" }
  | .cancelled => some { kind := "recovery", policyKey := "cancelled" }
  | .approvalRequested | .interactionRequested =>
    some { kind := "decision", policyKey := "waiting_approval" }
  | _ => none

/-- The category table of `_append_notification_intent`, defined on the event
types that have an intent. -/
def notificationCategory : TaskEventType → String
  | .completed => "completed"
  | .failed => "failed"
  | .cancelled => "cancelled"
  | .approvalRequested => "approval_required"
  | .interactionRequested => "interaction_required"
  | _ => ""

def definitionOfExecution (s : Store) (executionId : String) : Option DefinitionRow :=
  (s.executions.lookup executionId).bind (fun execution => s.definitions.lookup execution.taskId)

def notificationMuted (definition : Option DefinitionRow) (policyKey : String) : Bool :=
  match definition with
  | none => false
  | some definition => definition.notificationPolicy.lookup policyKey == some false

def notificationIntentRow (env : Env) (s : Store) (row : TaskRow) (eventType : TaskEventType)
    (payload : TaskEventPayload) (occurredAt : Time) : NotificationIntentRow :=
  let definition := definitionOfExecution s row.taskId
  let category := notificationCategory eventType
  let urgent := category == "approval_required" || category == "interaction_required"
  let actionId := if payload.approvalId = "" then payload.interactionId else payload.approvalId
  let dedupeKey := "execution:" ++ row.taskId ++ ":" ++ eventType.value ++ ":" ++ actionId
  { intentId := "ni_" ++ env.digest (row.principalId ++ ":" ++ dedupeKey)
    principalId := row.principalId
    category, workId := (definition.map DefinitionRow.taskId).getD row.taskId
    executionId := row.taskId
    semanticCode := "task." ++ category
    title :=
      match definition with
      | some definition =>
        takeChars (if definition.title = "" then definition.goal else definition.title) 200
      | none => "Background task"
    linkApprovalId := payload.approvalId
    linkInteractionId := payload.interactionId
    dedupeKey, priority := if urgent then "urgent" else "normal"
    expiresAt := occurredAt + (if urgent then 24 * 60 * 60 else 7 * 24 * 60 * 60)
    state := "pending"
    sourceSequence := s.intentSequence
    createdAt := occurredAt
    updatedAt := occurredAt }

/-- `INSERT OR IGNORE` under the three unique keys of `notification_intents`. -/
def insertIntent (s : Store) (intent : NotificationIntentRow) : Store :=
  let clash := s.intents.rows.any (fun other =>
    (other.principalId == intent.principalId && other.dedupeKey == intent.dedupeKey) ||
      other.sourceSequence == intent.sourceSequence)
  match s.intents.insert intent with
  | some intents => if clash then s else { s with intents }
  | none => s

def appendNotificationIntent (env : Env) (s : Store) (row : TaskRow) (eventType : TaskEventType)
    (payload : TaskEventPayload) (occurredAt : Time) : Store :=
  match notificationIntentForEvent eventType with
  | none => s
  | some semantic =>
    if notificationMuted (definitionOfExecution s row.taskId) semantic.policyKey then s
    else
      insertIntent { s with intentSequence := s.intentSequence + 1 }
        (notificationIntentRow env s row eventType payload occurredAt)

def appendFeed (s : Store) (row : TaskRow) (eventSeq : Nat) (occurredAt : Time) :
    Except TaskError Store := do
  let entry : FeedRow :=
    { feedEventId := s.feedSequence + 1, principalId := row.principalId, taskId := row.taskId,
      taskEventSeq := eventSeq, occurredAt }
  let feed ← insertRow s.feed entry "runtime_principal_task_events.feed_event_id"
    (fun other => other.taskId == row.taskId && other.taskEventSeq == eventSeq)
    "runtime_principal_task_events.task_id, runtime_principal_task_events.task_event_seq"
  return { s with feed, feedSequence := s.feedSequence + 1 }

def appendPrincipalFeed (s : Store) (row : TaskRow) (eventType : TaskEventType)
    (occurredAt : Time) : Except TaskError Store :=
  if eventType.inPrincipalFeed then appendFeed s row row.nextEventSeq occurredAt else .ok s

/-- `_append_event`: the event takes the sequence number the given row carries. -/
def appendEvent (env : Env) (s : Store) (row : TaskRow) (eventType : TaskEventType)
    (payload : TaskEventPayload) (occurredAt : Time) : Except TaskError (TaskEvent × Store) := do
  let encoded ← eventJson env payload
  let event : EventRow :=
    { taskId := row.taskId, eventSeq := row.nextEventSeq, eventType,
      payload := encoded, occurredAt }
  let events ← insertRow s.events event
    "runtime_task_events.task_id, runtime_task_events.event_seq" (fun _ => false) ""
  let fed ← appendPrincipalFeed { s with events } row eventType occurredAt
  return (event, appendNotificationIntent env fed row eventType payload occurredAt)

def finishActiveAttempt (s : Store) (taskId : String) (state : TaskAttemptState) (now : Time)
    (failureCode : String) : Store :=
  s.updateAttempts (fun row => row.taskId == taskId && row.state == .running)
    (fun row => { row with state, finishedAt := some now, failureCode })

/-- What a call may do to the principal feed: add rows at its end, under
increasing ids above the counter. -/
structure FeedGrows (s s' : Store) : Prop where
  rows : ∃ added : List FeedRow, s'.feed.rows = s.feed.rows ++ added ∧
    (added.map FeedRow.feedEventId).Pairwise (· < ·) ∧
    ∀ row ∈ added, s.feedSequence < row.feedEventId ∧ row.feedEventId ≤ s'.feedSequence
  counter : s.feedSequence ≤ s'.feedSequence

variable {s s' : Store}

theorem FeedGrows.refl (feed : s'.feed = s.feed) (counter : s'.feedSequence = s.feedSequence) :
    FeedGrows s s' where
  rows := ⟨[], by simp [feed], List.Pairwise.nil, by simp⟩
  counter := Nat.le_of_eq counter.symm

theorem FeedGrows.trans {t u : Store} (first : FeedGrows s t) (second : FeedGrows t u) :
    FeedGrows s u := by
  obtain ⟨left, left_rows, left_sorted, left_bound⟩ := first.rows
  obtain ⟨right, right_rows, right_sorted, right_bound⟩ := second.rows
  have below := first.counter
  have above := second.counter
  refine ⟨⟨left ++ right, ?_, ?_, ?_⟩, Nat.le_trans below above⟩
  · rw [right_rows, left_rows, List.append_assoc]
  · rw [List.map_append, List.pairwise_append]
    refine ⟨left_sorted, right_sorted, ?_⟩
    intro a member b other
    obtain ⟨row, row_member, rfl⟩ := List.mem_map.mp member
    obtain ⟨row', row'_member, rfl⟩ := List.mem_map.mp other
    have upper := (left_bound row row_member).2
    have lower := (right_bound row' row'_member).1
    omega
  · intro row member
    rcases List.mem_append.mp member with early | late
    · have bound := left_bound row early
      omega
    · have bound := right_bound row late
      omega

/-- What `_append_event` leaves: one more event, at most its own row in the feed of
the principal, and nothing changed outside the journal, the feed and the notification
intents. -/
structure Appended (s s' : Store) (principalId : String) (event : EventRow) : Prop where
  sessions : s'.sessions = s.sessions
  tasks : s'.tasks = s.tasks
  events : s'.events.rows = s.events.rows ++ [event]
  attempts : s'.attempts = s.attempts
  traces : s'.traces = s.traces
  steps : s'.steps = s.steps
  approvals : s'.approvals = s.approvals
  definitions : s'.definitions = s.definitions
  executions : s'.executions = s.executions
  feed : FeedGrows s s'
  fed : ∀ row ∈ s'.feed.rows, row ∈ s.feed.rows ∨
    row.principalId = principalId ∧ (row.taskId, row.taskEventSeq) = event.key

/-- Two stores that differ in their notification intents only. -/
structure SameButIntents (s s' : Store) : Prop where
  sessions : s'.sessions = s.sessions
  tasks : s'.tasks = s.tasks
  events : s'.events = s.events
  attempts : s'.attempts = s.attempts
  traces : s'.traces = s.traces
  steps : s'.steps = s.steps
  approvals : s'.approvals = s.approvals
  definitions : s'.definitions = s.definitions
  executions : s'.executions = s.executions
  feed : s'.feed = s.feed
  feedSequence : s'.feedSequence = s.feedSequence

theorem appendNotificationIntent_same (env : Env) (s : Store) (row : TaskRow)
    (eventType : TaskEventType) (payload : TaskEventPayload) (occurredAt : Time) :
    SameButIntents s (appendNotificationIntent env s row eventType payload occurredAt) := by
  unfold appendNotificationIntent insertIntent
  split
  · constructor <;> rfl
  · split
    · constructor <;> rfl
    · dsimp only
      split
      · split <;> constructor <;> rfl
      · constructor <;> rfl

variable {row : TaskRow} {occurredAt : Time}

theorem appendFeed_ok {eventSeq : Nat} (h : appendFeed s row eventSeq occurredAt = .ok s') :
    ∃ feed entry, s.feed.insert entry = some feed ∧ entry.feedEventId = s.feedSequence + 1 ∧
      entry.principalId = row.principalId ∧
      (entry.taskId, entry.taskEventSeq) = (row.taskId, eventSeq) ∧
      s' = { s with feed, feedSequence := s.feedSequence + 1 } := by
  obtain ⟨feed, inserted, returned⟩ := of_bind h
  cases returned
  exact ⟨feed, _, (insertRow_ok inserted).1, rfl, rfl, rfl, rfl⟩

theorem appendFeed_grows {eventSeq : Nat} (h : appendFeed s row eventSeq occurredAt = .ok s') :
    FeedGrows s s' := by
  obtain ⟨feed, entry, inserted, fresh, -, -, rfl⟩ := appendFeed_ok h
  refine ⟨⟨[entry], Relational.Table.insert_rows inserted, by simp, ?_⟩, Nat.le_succ _⟩
  intro other member
  rw [List.mem_singleton.mp member]
  dsimp only
  omega

theorem appendEvent_ok {env : Env} {eventType : TaskEventType} {payload : TaskEventPayload}
    {event : TaskEvent} (h : appendEvent env s row eventType payload occurredAt = .ok (event, s')) :
    event = ⟨row.taskId, row.nextEventSeq, eventType, payload, occurredAt⟩ ∧
      Appended s s' row.principalId event := by
  obtain ⟨encoded, json, h⟩ := of_bind h
  obtain ⟨events, inserted, h⟩ := of_bind h
  obtain ⟨fed, feeding, h⟩ := of_bind h
  have whole : encoded = payload := by
    unfold eventJson at json
    split at json <;> cases json
    rfl
  subst whole
  cases h
  refine ⟨rfl, ?_⟩
  have written := Relational.Table.insert_rows (insertRow_ok inserted).1
  have noted := appendNotificationIntent_same env fed row eventType encoded occurredAt
  unfold appendPrincipalFeed at feeding
  split at feeding
  · have grown := appendFeed_grows feeding
    obtain ⟨feed, entry, stored, -, owner, names, rfl⟩ := appendFeed_ok feeding
    exact
      { sessions := noted.sessions, tasks := noted.tasks, attempts := noted.attempts
        traces := noted.traces, steps := noted.steps, approvals := noted.approvals
        definitions := noted.definitions, executions := noted.executions
        events := by rw [noted.events]; exact written
        feed := FeedGrows.trans ⟨grown.rows, grown.counter⟩
          (FeedGrows.refl noted.feed noted.feedSequence)
        fed := by
          intro other member
          rw [noted.feed, Relational.Table.insert_rows stored] at member
          rcases List.mem_concat.mp member with old | new
          · exact Or.inl old
          · rw [new]
            exact Or.inr ⟨owner, names⟩ }
  · cases feeding
    exact
      { sessions := noted.sessions, tasks := noted.tasks, attempts := noted.attempts
        traces := noted.traces, steps := noted.steps, approvals := noted.approvals
        definitions := noted.definitions, executions := noted.executions
        events := by rw [noted.events]; exact written
        feed := FeedGrows.refl noted.feed noted.feedSequence
        fed := by
          intro other member
          rw [noted.feed] at member
          exact Or.inl member }

end Knoa.Tasks
