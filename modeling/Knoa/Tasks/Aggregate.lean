import Knoa.Tasks.ToolRepository

/-!
# One Task across the tables

`Store.view` gathers what the tables hold for one Task. Every primitive write of a repository call
rewrites the view of one Task only.
-/
namespace Knoa.Tasks
open Relational (Table)

/-- The columns no operation rewrites. -/
structure TaskIdentity where
  taskId : String
  principalId : String
  sessionHandle : String
  agentId : String
  clientRequestId : String
  origin : TaskOrigin
  parentTaskId : Option String
  goal : String
  attachments : List ArtifactAttachment
  toolsEnabled : Bool
  priority : Int
  createdAt : Time
  deriving DecidableEq, Repr

def TaskRow.identity (row : TaskRow) : TaskIdentity where
  taskId := row.taskId
  principalId := row.principalId
  sessionHandle := row.sessionHandle
  agentId := row.agentId
  clientRequestId := row.clientRequestId
  origin := row.origin
  parentTaskId := row.parentTaskId
  goal := row.goal
  attachments := row.attachments
  toolsEnabled := row.toolsEnabled
  priority := row.priority
  createdAt := row.createdAt

/-- What the tables hold under one Task id. -/
structure TaskSlice where
  row : Option TaskRow
  events : List EventRow
  attempts : List AttemptRow
  steps : List ToolStepRow
  approvals : List ApprovalRow
  trace : Option TraceRow

/-- The slice of a Task that exists. -/
structure TaskView where
  row : TaskRow
  events : List EventRow
  attempts : List AttemptRow
  steps : List ToolStepRow
  approvals : List ApprovalRow
  trace : Option TraceRow

namespace Store

def eventsOf (s : Store) (taskId : String) : List EventRow := s.events.owned EventRow.taskId taskId

def attemptsOf (s : Store) (taskId : String) : List AttemptRow :=
  s.attempts.owned AttemptRow.taskId taskId

def stepsOf (s : Store) (taskId : String) : List ToolStepRow :=
  s.steps.owned ToolStepRow.taskId taskId

def approvalsOf (s : Store) (taskId : String) : List ApprovalRow :=
  s.approvals.owned ApprovalRow.taskId taskId

def slice (s : Store) (taskId : String) : TaskSlice where
  row := s.tasks.lookup taskId
  events := s.eventsOf taskId
  attempts := s.attemptsOf taskId
  steps := s.stepsOf taskId
  approvals := s.approvalsOf taskId
  trace := s.traces.lookup taskId

def view (s : Store) (taskId : String) : Option TaskView :=
  (s.tasks.lookup taskId).map (fun row =>
    { row, events := s.eventsOf taskId, attempts := s.attemptsOf taskId,
      steps := s.stepsOf taskId, approvals := s.approvalsOf taskId,
      trace := s.traces.lookup taskId })

end Store

variable {s : Store} {taskId : String} {v : TaskView}

theorem view_eq_some_iff : s.view taskId = some v ↔
      s.tasks.lookup taskId = some v.row ∧ v.events = s.eventsOf taskId ∧
        v.attempts = s.attemptsOf taskId ∧ v.steps = s.stepsOf taskId ∧
          v.approvals = s.approvalsOf taskId ∧ v.trace = s.traces.lookup taskId := by
  unfold Store.view
  constructor
  · intro h
    obtain ⟨row, found, rfl⟩ := Option.map_eq_some_iff.mp h
    exact ⟨found, rfl, rfl, rfl, rfl, rfl⟩
  · rintro ⟨found, events, attempts, steps, approvals, trace⟩
    cases v
    subst events attempts steps approvals trace
    rw [found]
    rfl

theorem view_of_lookup {row : TaskRow} (h : s.tasks.lookup taskId = some row) :
    ∃ v, s.view taskId = some v ∧ v.row = row := by
  unfold Store.view
  rw [h]
  exact ⟨_, rfl, rfl⟩

theorem view_of_mem {row : TaskRow} (member : row ∈ s.tasks.rows) :
    ∃ v, s.view row.taskId = some v ∧ v.row = row :=
  view_of_lookup (Table.lookup_of_mem member)

theorem view_mem (h : s.view taskId = some v) : v.row ∈ s.tasks.rows :=
  Table.lookup_mem (view_eq_some_iff.mp h).1

theorem view_taskId (h : s.view taskId = some v) : v.row.taskId = taskId :=
  Table.lookup_key (view_eq_some_iff.mp h).1

theorem identity_mem (h : s.view taskId = some v) :
    v.row.identity ∈ s.tasks.rows.map TaskRow.identity :=
  List.mem_map_of_mem (view_mem h)

theorem view_none_iff : s.view taskId = none ↔ s.tasks.lookup taskId = none := by
  unfold Store.view
  rw [Option.map_eq_none_iff]

variable {s' : Store}

theorem view_of_slice (h : s'.slice taskId = s.slice taskId) : s'.view taskId = s.view taskId := by
  unfold Store.slice at h
  rw [TaskSlice.mk.injEq] at h
  obtain ⟨row, events, attempts, steps, approvals, trace⟩ := h
  unfold Store.view
  rw [row, events, attempts, steps, approvals, trace]

def Fed (s : Store) (row : FeedRow) : Prop :=
  (row.taskId, row.taskEventSeq) ∈ s.events.rows.map EventRow.key ∧
    ∃ id ∈ s.tasks.rows.map TaskRow.identity,
      id.taskId = row.taskId ∧ id.principalId = row.principalId

structure JournalGrows (s s' : Store) : Prop where
  events : ∀ key ∈ s.events.rows.map EventRow.key, key ∈ s'.events.rows.map EventRow.key
  tasks : ∀ id ∈ s.tasks.rows.map TaskRow.identity, id ∈ s'.tasks.rows.map TaskRow.identity
  fed : ∀ row ∈ s'.feed.rows, row ∈ s.feed.rows ∨ Fed s' row

theorem JournalGrows.fed_kept (grows : JournalGrows s s') {row : FeedRow} (h : Fed s row) :
    Fed s' row := by
  obtain ⟨event, id, task, owner⟩ := h
  exact ⟨grows.events _ event, id, grows.tasks _ task, owner⟩

theorem JournalGrows.refl
    (events : s'.events.rows.map EventRow.key = s.events.rows.map EventRow.key)
    (tasks : s'.tasks.rows.map TaskRow.identity = s.tasks.rows.map TaskRow.identity)
    (feed : s'.feed = s.feed) : JournalGrows s s' where
  events key member := by rwa [events]
  tasks id member := by rwa [tasks]
  fed row member := Or.inl (by rwa [← feed])

theorem JournalGrows.trans {t u : Store} (first : JournalGrows s t) (second : JournalGrows t u) :
    JournalGrows s u where
  events key member := second.events key (first.events key member)
  tasks id member := second.tasks id (first.tasks id member)
  fed row member := by
    rcases second.fed row member with old | new
    · exact (first.fed row old).imp_right second.fed_kept
    · exact Or.inr new

/-- One call's effect on one Task: `f` on its view, nothing under the other ids. -/
structure Writes (taskId : String) (f : TaskView → TaskView) (s s' : Store) : Prop where
  here : s'.view taskId = (s.view taskId).map f
  frame : ∀ other, other ≠ taskId → s'.slice other = s.slice other
  sessions : s'.sessions = s.sessions
  identities : s'.tasks.rows.map TaskRow.identity = s.tasks.rows.map TaskRow.identity
  feed : FeedGrows s s'
  journal : JournalGrows s s'

namespace Writes

variable {taskId : String} {f g : TaskView → TaskView} {s t u : Store}

theorem comp (first : Writes taskId f s t) (second : Writes taskId g t u) :
    Writes taskId (g ∘ f) s u where
  here := by rw [second.here, first.here, Option.map_map]
  frame other apart := by rw [second.frame other apart, first.frame other apart]
  sessions := second.sessions.trans first.sessions
  identities := second.identities.trans first.identities
  feed := first.feed.trans second.feed
  journal := first.journal.trans second.journal

theorem id (s : Store) : Writes taskId (fun v => v) s s where
  here := by simp
  frame _ _ := rfl
  sessions := rfl
  identities := rfl
  feed := FeedGrows.refl rfl rfl
  journal := JournalGrows.refl rfl rfl rfl

theorem congr (h : Writes taskId f s t) (same : ∀ v, s.view taskId = some v → f v = g v) :
    Writes taskId g s t :=
  { h with
    here := by
      rw [h.here]
      exact Option.map_congr same }

theorem const (h : Writes taskId f s t) (seen : s.view taskId = some v) :
    Writes taskId (fun _ => f v) s t := by
  apply h.congr
  intro w found
  rw [seen, Option.some.injEq] at found
  rw [found]

theorem view_some (h : Writes taskId f s t) (found : s.view taskId = some v) :
    t.view taskId = some (f v) := by
  rw [h.here, found]
  rfl

end Writes

variable {f : TaskRow → TaskRow}

section
variable (keep : ∀ row, (f row).taskId = row.taskId)
include keep

theorem updateTask_identities (identity : ∀ row, (f row).identity = row.identity) :
    (s.updateTask taskId f keep).tasks.rows.map TaskRow.identity =
      s.tasks.rows.map TaskRow.identity := by
  simp only [Store.updateTask, Table.update_rows, List.map_map]
  apply List.map_congr_left
  intro row _
  simp only [Function.comp]
  split
  · exact identity row
  · rfl

theorem writes_updateTask (identity : ∀ row, (f row).identity = row.identity) :
    Writes taskId (fun v => { v with row := f v.row }) s (s.updateTask taskId f keep) where
  here := by
    have same : (s.updateTask taskId f keep).tasks.lookup taskId =
        (s.tasks.lookup taskId).map f := by
      unfold Store.updateTask
      rw [Table.lookup_update]
      apply Option.map_congr
      intro row found
      simp [Table.lookup_key found]
    unfold Store.view
    rw [same, Option.map_map, Option.map_map]
    rfl
  frame other apart := by
    have same : (s.updateTask taskId f keep).tasks.lookup other = s.tasks.lookup other := by
      unfold Store.updateTask
      rw [Table.lookup_update]
      cases found : s.tasks.lookup other with
      | none => rfl
      | some row =>
        have key : row.taskId = other := Table.lookup_key found
        simp [key, apart]
    unfold Store.slice
    rw [same]
    rfl
  sessions := rfl
  identities := updateTask_identities keep identity
  feed := FeedGrows.refl rfl rfl
  journal := JournalGrows.refl rfl (updateTask_identities keep identity) rfl

theorem updateTask_eq_self (fixed : ∀ row ∈ s.tasks.rows, row.taskId = taskId → f row = row) :
    s.updateTask taskId f keep = s := by
  have same : s.tasks.update (fun row => row.taskId == taskId) f keep = s.tasks := by
    apply Table.ext
    rw [Table.update_rows]
    refine (List.map_congr_left ?_).trans (List.map_id _)
    intro row member
    split
    · rename_i selected
      exact fixed row member (by simpa using selected)
    · rfl
  unfold Store.updateTask
  rw [same]

end

theorem writes_of_appended {row : TaskRow} {event : EventRow}
    (h : Appended s s' row.principalId event) (key : event.taskId = taskId)
    (known : row.identity ∈ s.tasks.rows.map TaskRow.identity) (own : event.taskId = row.taskId) :
    Writes taskId (fun v => { v with events := v.events ++ [event] }) s s' where
  here := by
    subst key
    unfold Store.view Store.eventsOf Store.attemptsOf Store.stepsOf Store.approvalsOf
    rw [h.tasks, h.attempts, h.steps, h.approvals, h.traces, Table.owned_of_append h.events,
      Option.map_map]
    rfl
  frame other apart := by
    subst key
    unfold Store.slice Store.eventsOf Store.attemptsOf Store.stepsOf Store.approvalsOf
    rw [h.tasks, h.attempts, h.steps, h.approvals, h.traces,
      Table.owned_of_append_other h.events apart]
  sessions := h.sessions
  identities := by rw [h.tasks]
  feed := h.feed
  journal := by
    constructor
    · intro key member
      rw [h.events, List.map_append]
      exact List.mem_append_left _ member
    · intro id member
      rwa [h.tasks]
    · intro entry member
      refine (h.fed entry member).imp_right ?_
      rintro ⟨principal, names⟩
      refine ⟨?_, row.identity, ?_, ?_, principal.symm⟩
      · rw [h.events, List.map_append, names]
        exact List.mem_concat_self
      · rwa [h.tasks]
      · exact own.symm.trans (congrArg Prod.fst names).symm

section Updates

variable {s : Store} {taskId : String}

/-- What a call writes to the attempts, the steps and the approvals of one Task. -/
theorem writes_records {attempts : Table AttemptRow.attemptId} {steps : Table ToolStepRow.toolStepId}
    {approvals : Table ApprovalRow.approvalId} {fa : List AttemptRow → List AttemptRow}
    {fs : List ToolStepRow → List ToolStepRow} {fp : List ApprovalRow → List ApprovalRow}
    (tried : Table.Rewrites AttemptRow.taskId taskId fa s.attempts attempts)
    (stepped : Table.Rewrites ToolStepRow.taskId taskId fs s.steps steps)
    (asked : Table.Rewrites ApprovalRow.taskId taskId fp s.approvals approvals) :
    Writes taskId (fun v => { v with
        attempts := fa v.attempts, steps := fs v.steps, approvals := fp v.approvals })
      s { s with attempts, steps, approvals } where
  here := by
    unfold Store.view Store.attemptsOf Store.stepsOf Store.approvalsOf
    simp only [tried.here, stepped.here, asked.here, Option.map_map]
    rfl
  frame other apart := by
    unfold Store.slice Store.attemptsOf Store.stepsOf Store.approvalsOf
    simp only [tried.frame other apart, stepped.frame other apart, asked.frame other apart]
    rfl
  sessions := rfl
  identities := rfl
  feed := FeedGrows.refl rfl rfl
  journal := JournalGrows.refl rfl rfl rfl

theorem writes_updateAttempts {p : AttemptRow → Bool} {f : AttemptRow → AttemptRow}
    (keep : ∀ row, (f row).attemptId = row.attemptId) (task : ∀ row, (f row).taskId = row.taskId)
    (selects : ∀ row ∈ s.attempts.rows, p row = true → row.taskId = taskId) : Writes taskId
      (fun v => { v with attempts := v.attempts.map (fun row => if p row then f row else row) })
      s (s.updateAttempts p f keep) :=
  writes_records (Table.Rewrites.update keep task selects) Table.Rewrites.refl Table.Rewrites.refl

theorem writes_updateSteps {p : ToolStepRow → Bool} {f : ToolStepRow → ToolStepRow}
    (keep : ∀ row, (f row).toolStepId = row.toolStepId) (task : ∀ row, (f row).taskId = row.taskId)
    (selects : ∀ row ∈ s.steps.rows, p row = true → row.taskId = taskId) : Writes taskId
      (fun v => { v with steps := v.steps.map (fun row => if p row then f row else row) })
      s (s.updateSteps p f keep) :=
  writes_records Table.Rewrites.refl (Table.Rewrites.update keep task selects) Table.Rewrites.refl

theorem writes_updateApprovals {p : ApprovalRow → Bool} {f : ApprovalRow → ApprovalRow}
    (keep : ∀ row, (f row).approvalId = row.approvalId) (task : ∀ row, (f row).taskId = row.taskId)
    (selects : ∀ row ∈ s.approvals.rows, p row = true → row.taskId = taskId) : Writes taskId
      (fun v => { v with approvals := v.approvals.map (fun row => if p row then f row else row) })
      s (s.updateApprovals p f keep) :=
  writes_records Table.Rewrites.refl Table.Rewrites.refl (Table.Rewrites.update keep task selects)

theorem writes_updateEvents {p : EventRow → Bool} {f : EventRow → EventRow}
    (keep : ∀ row, (f row).key = row.key) (task : ∀ row, (f row).taskId = row.taskId)
    (selects : ∀ row ∈ s.events.rows, p row = true → row.taskId = taskId) : Writes taskId
      (fun v => { v with events := v.events.map (fun row => if p row then f row else row) })
      s (s.updateEvents p f keep) where
  here := by
    unfold Store.view Store.eventsOf Store.updateEvents
    simp only [Table.owned_update task, Option.map_map]
    rfl
  frame other apart := by
    unfold Store.slice Store.eventsOf Store.updateEvents
    simp only [Table.owned_update_other task selects apart]
    rfl
  sessions := rfl
  identities := rfl
  feed := FeedGrows.refl rfl rfl
  journal := by
    refine JournalGrows.refl ?_ rfl rfl
    simp only [Store.updateEvents, Table.update_rows, List.map_map]
    apply List.map_congr_left
    intro row _
    simp only [Function.comp]
    split
    · exact keep row
    · rfl

end Updates

section Inserts

variable {s : Store}

theorem writes_insertAttempt {attempts : Table AttemptRow.attemptId} {row : AttemptRow}
    (h : s.attempts.insert row = some attempts) :
    Writes row.taskId (fun v => { v with attempts := v.attempts ++ [row] })
      s { s with attempts } :=
  writes_records (Table.Rewrites.insert h) Table.Rewrites.refl Table.Rewrites.refl

theorem writes_insertStep {steps : Table ToolStepRow.toolStepId} {row : ToolStepRow}
    (h : s.steps.insert row = some steps) :
    Writes row.taskId (fun v => { v with steps := v.steps ++ [row] }) s { s with steps } :=
  writes_records Table.Rewrites.refl (Table.Rewrites.insert h) Table.Rewrites.refl

theorem writes_insertApproval {approvals : Table ApprovalRow.approvalId} {row : ApprovalRow}
    (h : s.approvals.insert row = some approvals) :
    Writes row.taskId (fun v => { v with approvals := v.approvals ++ [row] })
      s { s with approvals } :=
  writes_records Table.Rewrites.refl Table.Rewrites.refl (Table.Rewrites.insert h)

end Inserts

end Knoa.Tasks
