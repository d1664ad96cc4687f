import Mathlib.Data.List.Dedup
import Knoa.Library.TextRuns
import Knoa.Tasks.Executor

/-!
# The streaming events of old journals

`_migrate_legacy_runtime_events` of `tasks/schema.py`. Text and tool calls move
from the journal of a Task into its trace.
-/
namespace Knoa.Tasks
open Relational Transaction

structure LegacyEvent where
  taskId : String
  eventSeq : Nat
  eventType : String
  /-- `none` where the stored text is not a payload. -/
  payload : Option TaskEventPayload
  occurredAt : Time
  deriving DecidableEq

structure LegacyJournal where
  events : List LegacyEvent
  feed : List FeedRow
  traces : Table TraceRow.taskId

def principalFeedEventTypes : List String :=
  ["task_created", "state_changed", "approval_requested", "approval_resolved",
    "interaction_requested", "interaction_resolved", "completed", "failed", "cancelled"]

def LegacyEvent.isDurable (event : LegacyEvent) : Bool :=
  event.eventType ∈ principalFeedEventTypes ++ ["artifact", "warning"]

def legacyEntryType : String → Option TaskTraceEntryType
  | "reasoning_delta" => some .reasoning
  | "content_delta" => some .content
  | "plan" => some .plan
  | "tool_call" => some .toolCall
  | "tool_result" => some .toolResult
  | "artifact" => some .artifact
  | "context_compacted" => some .contextCompacted
  | "final_output" => some .finalOutput
  | _ => none

/-- The entry of an event, where its payload can be read and its type is known. -/
def LegacyEvent.entry (event : LegacyEvent) : Option TaskTraceEntry := do
  let payload ← event.payload
  let entryType ← legacyEntryType event.eventType
  return {
    entryType
    iteration := payload.iteration
    content := payload.content
    toolCallId := payload.toolCallId
    toolName := payload.toolName
    toolArgs := payload.toolArgs
    toolResult := payload.toolResult
    artifact := payload.artifact
    occurredAt := event.occurredAt }

def lastOutput (sources : List TaskTraceEntry) : String :=
  ((sources.filter (fun entry => entry.entryType = .finalOutput)).getLast?.map
    TaskTraceEntry.content).getD ""

/-- `SELECT ... ORDER BY event_seq`. -/
def streamingOf (events : List LegacyEvent) (taskId : String) : List LegacyEvent :=
  (events.filter (fun event => event.taskId = taskId ∧ event.isDurable = false)).insertionSort
    (fun a b => a.eventSeq ≤ b.eventSeq)

def legacyTrace (env : Env) (taskId : String) (entries sources : List TaskTraceEntry)
    (first last : TaskTraceEntry) : TraceRow where
  taskId := taskId
  entries := entries
  finalOutput := lastOutput sources
  createdAt := first.occurredAt
  updatedAt := last.occurredAt
  retainedUntil := last.occurredAt + env.traceRetentionSeconds
  compactedAt := none
  revision := 0

def migrateTask (env : Env) (s : LegacyJournal) (taskId : String) :
    Except TaskError LegacyJournal :=
  if (s.traces.lookup taskId).isSome then .ok s
  else
    let sources := (streamingOf s.events taskId).filterMap LegacyEvent.entry
    let entries := sources.foldl appendTraceEntry []
    match entries.head?, entries.getLast? with
    | some first, some last => do
      require (env.traceBytes entries ≤ maxTraceBytes)
        (.value "Task execution trace exceeds the size limit")
      let traces ← orRaise
        (s.traces.insert (legacyTrace env taskId entries sources first last)) .assertion
      return { s with traces }
    | _, _ => .ok s

/-- `SELECT DISTINCT task_id`. -/
def streamingTasks (events : List LegacyEvent) : List String :=
  ((events.filter (fun event => !event.isDurable)).map LegacyEvent.taskId).dedup

def migrateLegacyRuntimeEvents (env : Env) : Body LegacyJournal TaskError Unit := fun s => do
  let s' ← (streamingTasks s.events).foldlM (migrateTask env) s
  let unfed (row : FeedRow) : Bool := s.events.any fun event =>
    event.taskId = row.taskId ∧ event.eventSeq = row.taskEventSeq ∧
      event.eventType ∉ principalFeedEventTypes
  return ((), { s' with
    feed := s'.feed.filter (fun row => !unfed row)
    events := s'.events.filter LegacyEvent.isDurable })

/-- What an entry adds to the text of a kind. -/
def TaskTraceEntry.text (entry : TaskTraceEntry) : Option (TaskTraceEntryType × String) :=
  if entry.entryType = .reasoning ∨ entry.entryType = .content then
    some (entry.entryType, entry.content)
  else none

/-- A trace says what the streaming events of its Task say: the same text of each kind between the
same other entries, and the last output. -/
def Represents (trace : TraceRow) (events : List LegacyEvent) : Prop :=
  ∃ sources, events.map LegacyEvent.entry = sources.map some ∧
    (∀ kind, TextRuns.outline TaskTraceEntry.text kind trace.entries =
      TextRuns.outline TaskTraceEntry.text kind sources) ∧
    trace.finalOutput = lastOutput sources

/-- The streaming events have gone into the traces and nothing else has changed. -/
structure Migrated (s s' : LegacyJournal) : Prop where
  events : s'.events = s.events.filter LegacyEvent.isDurable
  traces : ∀ trace ∈ s.traces.rows, trace ∈ s'.traces.rows
  represented : ∀ event ∈ s.events, event.isDurable = false →
    ∃ trace ∈ s'.traces.rows, trace.taskId = event.taskId ∧
      Represents trace (streamingOf s.events event.taskId)

/-- Every streaming event can be read, and a trace that is there already says what the events do. -/
def Convertible (env : Env) (s : LegacyJournal) : Prop :=
  ∀ event ∈ s.events, event.isDurable = false →
    let streaming := streamingOf s.events event.taskId
    (∀ other ∈ streaming, other.entry.isSome = true) ∧
      match s.traces.lookup event.taskId with
      | some trace => Represents trace streaming
      | none => env.traceBytes ((streaming.filterMap LegacyEvent.entry).foldl appendTraceEntry []) ≤
          maxTraceBytes

def MigratesFaithfully (env : Env) (s : LegacyJournal) : Prop :=
  let s' := (commit (migrateLegacyRuntimeEvents env) s).2
  Migrated s s' ∧ (commit (migrateLegacyRuntimeEvents env) s').2 = s'

variable {env : Env} {s s' : LegacyJournal} {taskId : String} {kind : TaskTraceEntryType}
  {entries sources : List TaskTraceEntry} {streaming : List LegacyEvent}

theorem outline_appendTraceEntry (entry : TaskTraceEntry) :
    TextRuns.outline TaskTraceEntry.text kind (appendTraceEntry entries entry) =
      TextRuns.note TaskTraceEntry.text kind (TextRuns.outline TaskTraceEntry.text kind entries)
        entry := by
  unfold appendTraceEntry
  cases last : entries.getLast? with
  | none =>
    rw [List.getLast?_eq_none_iff.mp last]
    rfl
  | some previous =>
    dsimp only
    split
    · rename_i merged
      obtain ⟨textual, same, -⟩ := merged
      obtain ⟨before, rfl⟩ := List.getLast?_eq_some_iff.mp last
      rw [List.dropLast_concat, TextRuns.outline_snoc, TextRuns.outline_snoc]
      by_cases named : entry.entryType = kind
      · subst named
        simp [TextRuns.note, TextRuns.piece, TaskTraceEntry.text, same, textual, String.append_assoc]
      · simp [TextRuns.note, TextRuns.piece, TaskTraceEntry.text, same, textual, named]
    · exact TextRuns.outline_snoc

theorem outline_merged (sources : List TaskTraceEntry) :
    TextRuns.outline TaskTraceEntry.text kind (sources.foldl appendTraceEntry []) =
      TextRuns.outline TaskTraceEntry.text kind sources := by
  induction sources using List.reverseRecOn with
  | nil => rfl
  | append_singleton sources entry ih =>
    rw [List.foldl_concat, outline_appendTraceEntry, ih, TextRuns.outline_snoc]

theorem appendTraceEntry_ne_nil (entry : TaskTraceEntry) : appendTraceEntry entries entry ≠ [] := by
  unfold appendTraceEntry
  split
  · split <;> simp
  · simp

theorem merged_ne_nil (some_source : sources ≠ []) : sources.foldl appendTraceEntry [] ≠ [] := by
  obtain rfl | ⟨before, entry, rfl⟩ := List.eq_nil_or_concat' sources
  · exact absurd rfl some_source
  rw [List.foldl_concat]
  exact appendTraceEntry_ne_nil entry

/-- The rows that a migration of some Tasks adds. -/
structure MigratesTraces (env : Env) (taskIds : List String) (s s' : LegacyJournal) : Prop where
  events : s'.events = s.events
  kept : ∀ trace ∈ s.traces.rows, trace ∈ s'.traces.rows
  others : ∀ taskId ∉ taskIds, s'.traces.lookup taskId = s.traces.lookup taskId
  made : ∀ taskId ∈ taskIds, s.traces.lookup taskId = none →
    let sources := (streamingOf s.events taskId).filterMap LegacyEvent.entry
    sources ≠ [] → env.traceBytes (sources.foldl appendTraceEntry []) ≤ maxTraceBytes ∧
      ∃ trace ∈ s'.traces.rows, trace.taskId = taskId ∧
        trace.entries = sources.foldl appendTraceEntry [] ∧ trace.finalOutput = lastOutput sources

theorem migrateTask_traces (migrated : migrateTask env s taskId = .ok s') :
    MigratesTraces env [taskId] s s' := by
  unfold migrateTask at migrated
  split at migrated
  · rename_i present
    cases migrated
    refine ⟨rfl, fun _ member => member, fun _ _ => rfl, ?_⟩
    intro id listed absent
    rw [List.mem_singleton.mp listed] at absent
    simp [absent] at present
  · dsimp only at migrated
    split at migrated
    · rename_i first last _ _
      obtain ⟨_, fits, traces, inserted, migrated⟩ := of_bind₂ migrated
      cases migrated
      have rows := Table.insert_rows (orRaise_ok_iff.mp inserted)
      refine ⟨rfl, ?_, ?_, ?_⟩
      · intro trace member
        rw [rows]
        exact List.mem_append_left _ member
      · intro other unlisted
        rw [Table.lookup_insert (orRaise_ok_iff.mp inserted), if_neg]
        rintro rfl
        exact unlisted List.mem_cons_self
      · intro id listed _
        obtain rfl := List.mem_singleton.mp listed
        intro sources some_source
        refine ⟨require_ok_iff.mp fits, legacyTrace env id _ sources first last, ?_, rfl, rfl, rfl⟩
        rw [rows]
        exact List.mem_concat_self
    · rename_i empty
      cases migrated
      refine ⟨rfl, fun _ member => member, fun _ _ => rfl, ?_⟩
      intro id listed _ sources some_source
      obtain rfl := List.mem_singleton.mp listed
      have full := merged_ne_nil some_source
      exact absurd (List.getLast?_eq_some_getLast full) (empty _ _ (List.head?_eq_some_head full))

theorem MigratesTraces.cons {taskIds : List String} {mid : LegacyJournal}
    (first : MigratesTraces env [taskId] s mid) (rest : MigratesTraces env taskIds mid s')
    (once : taskId ∉ taskIds) : MigratesTraces env (taskId :: taskIds) s s' where
  events := rest.events.trans first.events
  kept trace member := rest.kept trace (first.kept trace member)
  others id unlisted := by
    obtain ⟨other, later⟩ : id ≠ taskId ∧ id ∉ taskIds := by simpa using unlisted
    rw [rest.others id later, first.others id (by simpa using other)]
  made id listed absent := by
    rcases List.mem_cons.mp listed with rfl | later
    · intro sources some_source
      obtain ⟨fits, trace, member, made⟩ := first.made id List.mem_cons_self absent some_source
      exact ⟨fits, trace, rest.kept trace member, made⟩
    · have apart : id ∉ [taskId] := fun same => once (List.mem_singleton.mp same ▸ later)
      have made := rest.made id later (by rw [first.others id apart, absent])
      rwa [first.events] at made

theorem migrateTasks_traces {taskIds : List String} (once : taskIds.Nodup)
    (migrated : taskIds.foldlM (migrateTask env) s = .ok s') : MigratesTraces env taskIds s s' := by
  induction taskIds generalizing s with
  | nil =>
    cases migrated
    exact ⟨rfl, fun _ member => member, fun _ _ => rfl, by simp⟩
  | cons taskId taskIds ih =>
    obtain ⟨apart, once⟩ := List.nodup_cons.mp once
    rw [List.foldlM_cons] at migrated
    obtain ⟨mid, first, rest⟩ := of_bind migrated
    exact (migrateTask_traces first).cons (ih once rest) apart

theorem migrateTask_ok (fits : s.traces.lookup taskId = none →
      env.traceBytes (((streamingOf s.events taskId).filterMap LegacyEvent.entry).foldl
        appendTraceEntry []) ≤ maxTraceBytes) : ∃ s', migrateTask env s taskId = .ok s' := by
  unfold migrateTask
  cases absent : s.traces.lookup taskId with
  | some trace => exact ⟨s, rfl⟩
  | none =>
    rw [if_neg (by simp)]
    dsimp only
    split
    · rename_i first last _ _
      generalize built : legacyTrace env taskId _ _ first last = row
      have fresh : s.traces.lookup row.taskId = none := by rwa [← built]
      obtain ⟨traces, inserted⟩ := Table.insert_of_lookup_none fresh
      rw [require_of (fits absent), ok_bind, inserted]
      exact ⟨_, rfl⟩
    · exact ⟨s, rfl⟩

theorem migrateTasks_ok {taskIds : List String} (once : taskIds.Nodup)
    (fits : ∀ taskId ∈ taskIds, s.traces.lookup taskId = none →
      env.traceBytes (((streamingOf s.events taskId).filterMap LegacyEvent.entry).foldl
        appendTraceEntry []) ≤ maxTraceBytes) :
    ∃ s', taskIds.foldlM (migrateTask env) s = .ok s' := by
  induction taskIds generalizing s with
  | nil => exact ⟨s, rfl⟩
  | cons taskId taskIds ih =>
    obtain ⟨apart, once⟩ := List.nodup_cons.mp once
    obtain ⟨mid, migrated⟩ := migrateTask_ok (fits taskId List.mem_cons_self)
    have first := migrateTask_traces migrated
    obtain ⟨s', rest⟩ := ih (s := mid) once fun id later absent => by
      have other : id ∉ [taskId] := fun same => apart (List.mem_singleton.mp same ▸ later)
      rw [first.others id other] at absent
      rw [first.events]
      exact fits id (List.mem_cons_of_mem _ later) absent
    refine ⟨s', ?_⟩
    rw [List.foldlM_cons, migrated]
    exact rest

theorem sources_read (all : ∀ event ∈ streaming, event.entry.isSome = true) :
    streaming.map LegacyEvent.entry = (streaming.filterMap LegacyEvent.entry).map some := by
  induction streaming with
  | nil => rfl
  | cons event streaming ih =>
    obtain ⟨entry, known⟩ := Option.isSome_iff_exists.mp (all event List.mem_cons_self)
    simp [known, ih fun other member => all other (List.mem_cons_of_mem _ member)]

theorem read_sources (read : streaming.map LegacyEvent.entry = sources.map some) :
    streaming.filterMap LegacyEvent.entry = sources ∧
      ∀ event ∈ streaming, event.entry.isSome = true := by
  induction streaming generalizing sources with
  | nil => simpa using read
  | cons event streaming ih =>
    cases sources with
    | nil => cases read
    | cons entry sources =>
      obtain ⟨known, read⟩ := List.cons.inj read
      obtain ⟨filtered, all⟩ := ih read
      simpa [known, filtered] using all

theorem mem_streamingOf {event : LegacyEvent} (member : event ∈ s.events)
    (streams : event.isDurable = false) : event ∈ streamingOf s.events event.taskId := by
  simp [streamingOf, List.mem_insertionSort, member, streams]

theorem mem_streamingTasks : taskId ∈ streamingTasks s.events ↔
    ∃ event ∈ s.events, event.isDurable = false ∧ event.taskId = taskId := by
  simp [streamingTasks, and_assoc, List.mem_dedup]

theorem MigratesTraces.represented (loop : MigratesTraces env (streamingTasks s.events) s s')
    (convertible : Convertible env s) {event : LegacyEvent} (member : event ∈ s.events)
    (streams : event.isDurable = false) : ∃ trace ∈ s'.traces.rows, trace.taskId = event.taskId ∧
      Represents trace (streamingOf s.events event.taskId) := by
  obtain ⟨all, told⟩ := convertible event member streams
  cases known : s.traces.lookup event.taskId with
  | some trace =>
    rw [known] at told
    exact ⟨trace, loop.kept trace (Table.lookup_mem known), Table.lookup_key known, told⟩
  | none =>
    have listed := mem_streamingTasks.mpr ⟨event, member, streams, rfl⟩
    have read := sources_read all
    have some_source : (streamingOf s.events event.taskId).filterMap LegacyEvent.entry ≠ [] := by
      intro none_left
      have present := List.mem_map_of_mem (f := LegacyEvent.entry) (mem_streamingOf member streams)
      rw [read, none_left] at present
      cases present
    obtain ⟨-, trace, stored, owner, entries, output⟩ := loop.made _ listed known some_source
    refine ⟨trace, stored, owner, _, read, fun kind => ?_, output⟩
    rw [entries, outline_merged]

theorem migrate_ok {r : Unit} (migrated : migrateLegacyRuntimeEvents env s = .ok (r, s')) :
    ∃ mid, MigratesTraces env (streamingTasks s.events) s mid ∧
      s'.events = s.events.filter LegacyEvent.isDurable ∧ s'.traces = mid.traces := by
  obtain ⟨mid, looped, returned⟩ := of_bind migrated
  cases returned
  have loop := migrateTasks_traces (List.nodup_dedup _) looped
  exact ⟨mid, loop, by rw [loop.events], rfl⟩

theorem migrate_again {r : Unit} (migrated : migrateLegacyRuntimeEvents env s = .ok (r, s')) :
    (commit (migrateLegacyRuntimeEvents env) s').2 = s' := by
  obtain ⟨mid, looped, returned⟩ := of_bind migrated
  cases returned
  have events := (migrateTasks_traces (List.nodup_dedup _) looped).events
  have done : streamingTasks (mid.events.filter LegacyEvent.isDurable) = [] := by
    simp [streamingTasks, List.filter_filter]
  unfold commit migrateLegacyRuntimeEvents
  dsimp only
  rw [done]
  simp only [List.foldlM_nil, pure, Except.pure, bind, Except.bind, List.filter_filter, Bool.and_self,
    LegacyJournal.mk.injEq, true_and, and_true]
  apply List.filter_congr
  intro row _
  rw [events, Bool.and_eq_right_iff_imp]
  simp only [Bool.not_eq_eq_eq_not, Bool.not_true, List.any_eq_false]
  exact fun kept event member => kept event (List.mem_of_mem_filter member)

theorem migratesFaithfully_iff (env : Env) (s : LegacyJournal) :
    MigratesFaithfully env s ↔ Convertible env s := by
  cases migrated : migrateLegacyRuntimeEvents env s with
  | error e =>
    have same : (commit (migrateLegacyRuntimeEvents env) s).2 = s := by rw [commit, migrated]
    constructor
    · rintro ⟨⟨events, -, -⟩, -⟩ event member streams
      rw [same] at events
      rw [events] at member
      simp [(List.mem_filter.mp member).2] at streams
    · intro convertible
      obtain ⟨s', looped⟩ := @migrateTasks_ok env s (streamingTasks s.events)
        (List.nodup_dedup _) fun taskId listed absent => by
          obtain ⟨event, member, streams, rfl⟩ := mem_streamingTasks.mp listed
          have told := (convertible event member streams).2
          rwa [absent] at told
      unfold migrateLegacyRuntimeEvents at migrated
      rw [looped] at migrated
      cases migrated
  | ok result =>
    obtain ⟨r, s'⟩ := result
    have after : (commit (migrateLegacyRuntimeEvents env) s).2 = s' := by rw [commit, migrated]
    obtain ⟨mid, loop, events, traces⟩ := migrate_ok migrated
    unfold MigratesFaithfully
    rw [after]
    constructor
    · rintro ⟨⟨-, -, represented⟩, -⟩ event member streams
      obtain ⟨trace, stored, owner, sources, read, told⟩ := represented event member streams
      obtain ⟨filtered, all⟩ := read_sources read
      refine ⟨all, ?_⟩
      rw [traces] at stored
      cases known : s.traces.lookup event.taskId with
      | some old =>
        have same := Table.mem_unique (loop.kept old (Table.lookup_mem known)) stored
          ((Table.lookup_key known).trans owner.symm)
        subst same
        exact ⟨sources, read, told⟩
      | none =>
        refine (loop.made _ (mem_streamingTasks.mpr ⟨event, member, streams, rfl⟩) known ?_).1
        intro none_left
        rw [filtered] at none_left
        rw [none_left] at read
        have present := mem_streamingOf member streams
        rw [List.map_nil, List.map_eq_nil_iff] at read
        rw [read] at present
        cases present
    · intro convertible
      refine ⟨⟨events, ?_, ?_⟩, migrate_again migrated⟩
      · rw [traces]
        exact loop.kept
      · intro event member streams
        rw [traces]
        exact loop.represented convertible member streams

/-- A Task whose trace is there already, and one more delta in its journal. -/
def sampleJournal : LegacyJournal where
  events := [⟨"t", 1, "content_delta", some { content := "x" }, 0⟩]
  feed := []
  traces := .single (newTraceRow sampleEnv 0 "t" [] "")

theorem delta_lost : ¬ MigratesFaithfully sampleEnv sampleJournal := by
  rintro ⟨⟨-, -, represented⟩, -⟩
  obtain ⟨trace, stored, -, sources, read, told, -⟩ := represented _ List.mem_cons_self (by decide)
  have rows : (commit (migrateLegacyRuntimeEvents sampleEnv) sampleJournal).2.traces.rows =
      sampleJournal.traces.rows := by decide +kernel
  rw [rows] at stored
  obtain rfl := List.mem_singleton.mp stored
  have known := congrArg TextRuns.Outline.current (told .content)
  rw [← (read_sources read).1] at known
  exact absurd known (by decide +kernel)

end Knoa.Tasks
