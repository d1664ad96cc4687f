import Knoa.Tasks.Operations

/-!
# Compaction of expired traces

`compact_expired_traces` of `tasks/execution_repository.py`: the drafts go and what the Task
produced stays.
-/
namespace Knoa.Tasks
open Relational Transaction

/-- What stands in a trace after its retention. -/
def TaskTraceEntryType.isKept : TaskTraceEntryType → Bool
  | .plan | .toolCall | .toolResult | .artifact | .contextCompacted | .warning | .finalOutput => true
  | .reasoning | .content => false

def TaskTraceEntry.compact (entry : TaskTraceEntry) : TaskTraceEntry :=
  { entry with toolArgs := .emptyObject, toolResult := none }

def compactEntries (entries : List TaskTraceEntry) : List TaskTraceEntry :=
  (entries.filter (fun entry => entry.entryType.isKept)).map TaskTraceEntry.compact

/-- The rows of `compact_expired_traces`. -/
def expiredTraces (env : Env) (now : Time) (s : Store) : List TraceRow :=
  s.traces.rows.filter (fun trace =>
    trace.compactedAt.isNone &&
      (decide (trace.retainedUntil ≤ now) ||
        decide (trace.createdAt ≤ now - env.traceRetentionSeconds)) &&
      (s.tasks.lookup trace.taskId).any (fun task => task.state.isTerminal))

def TraceRow.compacted (trace : TraceRow) (now : Time) : TraceRow :=
  { trace with
    entries := compactEntries trace.entries, compactedAt := some now, updatedAt := now,
    revision := trace.revision + 1 }

def ToolStepRow.pruned (step : ToolStepRow) (now : Time) : ToolStepRow :=
  { step with arguments := .emptyObject, result := .emptyObject, updatedAt := now }

def compactTrace (env : Env) (now : Time) (s : Store) (row : TraceRow) : Except TaskError Store := do
  require (env.traceBytes (compactEntries row.entries) ≤ maxTraceBytes)
    (.value "Task execution trace exceeds the size limit")
  return { s with
    traces := s.traces.update
      (fun trace => trace.taskId == row.taskId && trace.compactedAt.isNone)
      (fun trace =>
        { trace with
          entries := compactEntries row.entries, compactedAt := some now, updatedAt := now,
          revision := trace.revision + 1 })
      (fun _ => rfl)
    -- the verbose payloads of the steps of the Task go with its drafts
    steps := s.steps.update (fun step => step.taskId == row.taskId) (·.pruned now) (fun _ => rfl) }

def compactExpiredTraces (env : Env) (now : Time) : Body Store TaskError Nat := fun s => do
  let rows := expiredTraces env now s
  let s' ← rows.foldlM (compactTrace env now) s
  return (rows.length, s')

def TaskTraceEntryType.isResult : TaskTraceEntryType → Bool
  | .artifact | .finalOutput => true
  | _ => false

/-- An expired trace before and after its compaction. -/
structure TraceCompacted (env : Env) (now : Time) (s : Store) (trace trace' : TraceRow) : Prop where
  task : trace'.taskId = trace.taskId
  ended : ∃ task, s.tasks.lookup trace.taskId = some task ∧ task.state.isTerminal = true
  older : trace.retainedUntil ≤ now ∨ trace.createdAt ≤ now - env.traceRetentionSeconds
  finalOutput : trace'.finalOutput = trace.finalOutput
  results : trace'.entries.filter (fun entry => entry.entryType.isResult) =
    (trace.entries.filter (fun entry => entry.entryType.isResult)).map TaskTraceEntry.compact

/-- The step before and after the compaction of its Task's trace. -/
structure StepPruned (env : Env) (now : Time) (s : Store) (step step' : ToolStepRow) : Prop where
  expired : ∃ trace ∈ expiredTraces env now s, trace.taskId = step.taskId
  pruned : step' = step.pruned now

/-- A compaction touches nothing but expired traces and the steps of their Tasks. -/
structure Compacts (env : Env) (now : Time) (s s' : Store) : Prop where
  frame : s' = { s with traces := s'.traces, steps := s'.steps }
  traces : List.Forall₂ (fun trace trace' => trace' = trace ∨ TraceCompacted env now s trace trace')
    s.traces.rows s'.traces.rows
  steps : List.Forall₂ (fun step step' => step' = step ∨ StepPruned env now s step step')
    s.steps.rows s'.steps.rows

variable {env : Env} {now : Time} {s s' : Store} {trace : TraceRow}

theorem compactEntries_results (entries : List TaskTraceEntry) :
    (compactEntries entries).filter (fun entry => entry.entryType.isResult) =
      (entries.filter (fun entry => entry.entryType.isResult)).map TaskTraceEntry.compact := by
  unfold compactEntries
  rw [List.filter_map, List.filter_filter]
  congr 1
  apply List.filter_congr
  intro entry _
  cases type : entry.entryType <;>
    simp [TaskTraceEntry.compact, TaskTraceEntryType.isResult, TaskTraceEntryType.isKept, type]

theorem expired_compacted (expired : trace ∈ expiredTraces env now s) :
    TraceCompacted env now s trace (trace.compacted now) where
  task := rfl
  ended := by
    obtain ⟨-, selected⟩ := List.mem_filter.mp expired
    exact (Option.any_eq_true _ _).mp (Bool.and_eq_true_iff.mp selected).2
  older := by
    obtain ⟨-, selected⟩ := List.mem_filter.mp expired
    simpa using (Bool.and_eq_true_iff.mp (Bool.and_eq_true_iff.mp selected).1).2
  finalOutput := rfl
  results := compactEntries_results trace.entries

theorem expired_stored (expired : trace ∈ expiredTraces env now s) :
    trace ∈ s.traces.rows ∧ trace.compactedAt = none := by
  obtain ⟨member, selected⟩ := List.mem_filter.mp expired
  refine ⟨member, ?_⟩
  simpa using (Bool.and_eq_true_iff.mp (Bool.and_eq_true_iff.mp selected).1).1

/-- What the loop has done to the two tables after it went through some rows. -/
structure CompactsRows (now : Time) (rows : List TraceRow) (s s' : Store) : Prop where
  frame : s' = { s with traces := s'.traces, steps := s'.steps }
  traces : s'.traces.rows =
    s.traces.rows.map (fun trace => if trace ∈ rows then trace.compacted now else trace)
  steps : s'.steps.rows = s.steps.rows.map (fun step =>
    if step.taskId ∈ rows.map TraceRow.taskId then step.pruned now else step)

theorem compactTrace_rows {row : TraceRow} (stored : row ∈ s.traces.rows)
    (fresh : row.compactedAt = none) (called : compactTrace env now s row = .ok s') :
    CompactsRows now [row] s s' := by
  obtain ⟨-, -, called⟩ := of_bind called
  cases called
  refine ⟨rfl, List.map_congr_left fun trace member => ?_, List.map_congr_left fun step _ => ?_⟩
  · by_cases same : trace = row
    · subst same
      simp [fresh, TraceRow.compacted]
    · have other : trace.taskId ≠ row.taskId := fun key => same (Table.mem_unique member stored key)
      simp [same, other]
  · simp

theorem CompactsRows.cons {row : TraceRow} {rows : List TraceRow} {mid : Store}
    (first : CompactsRows now [row] s mid) (rest : CompactsRows now rows mid s')
    (fresh : ∀ trace ∈ rows, trace.compactedAt = none) : CompactsRows now (row :: rows) s s' where
  frame := by rw [rest.frame, first.frame]
  traces := by
    rw [rest.traces, first.traces, List.map_map]
    apply List.map_congr_left
    intro trace _
    by_cases same : trace = row
    · have done : row.compacted now ∉ rows := fun member => by cases fresh _ member
      simp [same, done]
    · simp [same]
  steps := by
    rw [rest.steps, first.steps, List.map_map]
    apply List.map_congr_left
    intro step _
    by_cases same : step.taskId = row.taskId
    · simp only [Function.comp_apply, List.map_cons, List.map_nil, List.mem_cons, same, true_or, if_true]
      split <;> rfl
    · simp [same]

theorem compactTraces_rows {rows : List TraceRow} (once : rows.Nodup)
    (stored : ∀ trace ∈ rows, trace ∈ s.traces.rows ∧ trace.compactedAt = none)
    (called : rows.foldlM (compactTrace env now) s = .ok s') : CompactsRows now rows s s' := by
  induction rows generalizing s with
  | nil =>
    cases called
    exact ⟨rfl, by simp, by simp⟩
  | cons row rows ih =>
    rw [List.foldlM_cons] at called
    obtain ⟨mid, compacted, called⟩ := of_bind called
    obtain ⟨present, fresh⟩ := stored row List.mem_cons_self
    have first := compactTrace_rows present fresh compacted
    obtain ⟨unlisted, once⟩ := List.nodup_cons.mp once
    refine first.cons (ih once ?_ called) fun trace member =>
      (stored trace (List.mem_cons_of_mem _ member)).2
    intro trace member
    obtain ⟨known, open'⟩ := stored trace (List.mem_cons_of_mem _ member)
    have other : trace ≠ row := fun same => unlisted (same ▸ member)
    refine ⟨?_, open'⟩
    rw [first.traces]
    exact List.mem_map.mpr ⟨trace, known, by simp [other]⟩

theorem CompactsRows.compacts (loop : CompactsRows now (expiredTraces env now s) s s') :
    Compacts env now s s' where
  frame := loop.frame
  traces := by
    rw [loop.traces, List.forall₂_map_right_iff, List.forall₂_same]
    intro trace _
    split
    · rename_i expired
      exact .inr (expired_compacted expired)
    · exact .inl rfl
  steps := by
    rw [loop.steps, List.forall₂_map_right_iff, List.forall₂_same]
    intro step _
    split
    · rename_i expired
      exact .inr ⟨List.mem_map.mp expired, rfl⟩
    · exact .inl rfl

theorem CompactsRows.none_left (loop : CompactsRows now (expiredTraces env now s) s s') :
    expiredTraces env now s' = [] := by
  have tasks : s'.tasks = s.tasks := by rw [loop.frame]
  rw [List.eq_nil_iff_forall_not_mem]
  intro trace expired
  obtain ⟨member, selected⟩ := List.mem_filter.mp expired
  rw [loop.traces] at member
  obtain ⟨before, known, rfl⟩ := List.mem_map.mp member
  rw [tasks] at selected
  split at selected
  · simp [TraceRow.compacted] at selected
  · rename_i live
    exact live (List.mem_filter.mpr ⟨known, selected⟩)

theorem traces_compacted (env : Env) (now : Time) (s : Store) :
    let s' := (commit (compactExpiredTraces env now) s).2
    Compacts env now s s' ∧ (commit (compactExpiredTraces env now) s').2 = s' := by
  intro s'
  cases called : compactExpiredTraces env now s with
  | error e =>
    have same : s' = s := by
      change (commit _ s).2 = s
      rw [commit, called]
    rw [same]
    refine ⟨⟨rfl, ?_, ?_⟩, by rw [commit, called]⟩
    · exact List.forall₂_same.mpr fun _ _ => .inl rfl
    · exact List.forall₂_same.mpr fun _ _ => .inl rfl
  | ok result =>
    obtain ⟨count, after⟩ := result
    have same : s' = after := by
      change (commit _ s).2 = after
      rw [commit, called]
    rw [same]
    obtain ⟨mid, looped, returned⟩ := of_bind called
    cases returned
    have once : (expiredTraces env now s).Nodup := (List.Nodup.of_map _ s.traces.keyed).filter _
    have loop := compactTraces_rows once (fun _ => expired_stored) looped
    refine ⟨loop.compacts, ?_⟩
    unfold commit compactExpiredTraces
    rw [loop.none_left]
    rfl

/-- A Task that is over, its trace and the step it took. -/
def sampleExpired : Store :=
  let task := newTaskRow 0 "t" "a" (sampleRequest "r")
    { requestId := "r", goal := "goal", parentTaskId := "", phase := "" }
  let step := newToolStepRow 0 "p" "t" "u" "c" "read"
    { toolStepId := "u", toolCallId := "c", toolName := "read", arguments := ⟨"\x7b\"path\":\"a\"\x7d"⟩, 
      effect := "read_only", risk := "low" }
  { sampleStore with
    tasks := .single { task with state := .completed }
    traces := .single (newTraceRow sampleEnv 0 "t" [] "")
    steps := .single step }

theorem arguments_emptied :
    ((commit (compactExpiredTraces sampleEnv sampleEnv.traceRetentionSeconds)
      sampleExpired).2.steps.rows.map ToolStepRow.arguments) = [.emptyObject] ∧
      sampleExpired.steps.rows.map ToolStepRow.arguments ≠ [.emptyObject] := by
  decide +kernel

end Knoa.Tasks
