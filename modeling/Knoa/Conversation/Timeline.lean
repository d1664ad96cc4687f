import Knoa.Library.TextRuns
import Knoa.Tasks.Models

/-!
# The timeline of a turn

The deltas of a text are added to the last entry of its kind, unless an entry of another nature came
after it.
-/
namespace Knoa.Conversation.Timeline
open Knoa.Tasks (JsonText)
open TextRuns

inductive TextKind
  | reasoning
  | content
  deriving DecidableEq, Repr

inductive EntryKind
  | text (kind : TextKind)
  | toolCall
  | toolResult
  | notice
  deriving DecidableEq, Repr

structure ChatTimelineEntry where
  kind : EntryKind
  content : String := ""
  toolCallId : String := ""
  toolName : String := ""
  toolArgs : JsonText := .emptyObject
  toolResult : Option JsonText := none
  blocked : Bool := false
  deriving DecidableEq

/-- The events that `_apply_event` tells apart; a tool result comes as its JSON. -/
inductive RuntimeTurnEvent
  | reasoningSummaryDelta (content : String)
  | assistantDelta (content : String)
  | turnFinished (finalOutput : String)
  | toolCallStarted (toolCallId toolName : String) (arguments : JsonText)
  | toolCallFinished (toolCallId toolName : String) (completed : Bool) (result : JsonText)
  | planChanged (content : String)
  | runtimeWarning (message : String)
  | contextCompacted
  | other

structure LiveTurn where
  reasoning : String := ""
  content : String := ""
  finalOutput : String := ""
  timeline : List ChatTimelineEntry := []

/-- The search backward, over the reversed timeline. -/
def mergeText (kind : TextKind) (content : String) :
    List ChatTimelineEntry → Option (List ChatTimelineEntry)
  | [] => none
  | current :: rest =>
    match current.kind with
    | .text found =>
      if found = kind then some ({ current with content := current.content ++ content } :: rest)
      else (mergeText kind content rest).map (current :: ·)
    | _ => none

/-- `_append_timeline_text`. -/
def appendTimelineText (kind : TextKind) (content : String) (timeline : List ChatTimelineEntry) :
    List ChatTimelineEntry :=
  if content = "" then timeline
  else
    match mergeText kind content timeline.reverse with
    | some merged => merged.reverse
    | none => timeline ++ [{ kind := .text kind, content }]

/-- The entry that an event stands for, before any merging. -/
def RuntimeTurnEvent.entry : RuntimeTurnEvent → Option ChatTimelineEntry
  | .reasoningSummaryDelta content => some { kind := .text .reasoning, content }
  | .assistantDelta content => some { kind := .text .content, content }
  | .toolCallStarted toolCallId toolName toolArgs =>
    some { kind := .toolCall, toolCallId, toolName, toolArgs }
  | .toolCallFinished toolCallId toolName completed result =>
    some { kind := .toolResult, toolCallId, toolName, toolResult := some result, blocked := !completed }
  | .planChanged content | .runtimeWarning content => some { kind := .notice, content }
  | .contextCompacted => some { kind := .notice, content := "Agent context compacted" }
  | .turnFinished _ | .other => none

/-- `_apply_event`. -/
def applyEvent (live : LiveTurn) (event : RuntimeTurnEvent) : LiveTurn :=
  match event with
  | .reasoningSummaryDelta content =>
    { live with
      reasoning := live.reasoning ++ content
      timeline := appendTimelineText .reasoning content live.timeline }
  | .assistantDelta content =>
    { live with
      content := live.content ++ content
      timeline := appendTimelineText .content content live.timeline }
  | .turnFinished finalOutput => { live with finalOutput }
  | event => { live with timeline := live.timeline ++ event.entry.toList }

def entryText (entry : ChatTimelineEntry) : Option (TextKind × String) :=
  match entry.kind with
  | .text kind => some (kind, entry.content)
  | _ => none

def EntryKind.isText : EntryKind → Bool
  | .text _ => true
  | _ => false

variable {kind k : TextKind} {content : String} {timeline reversed merged run : List ChatTimelineEntry}

theorem entryText_isSome (run : List ChatTimelineEntry) : (∀ e ∈ run, (entryText e).isSome = true) ↔
    ∀ kind ∈ run.map ChatTimelineEntry.kind, kind.isText = true := by
  have textual (e : ChatTimelineEntry) : (entryText e).isSome = e.kind.isText := by
    unfold entryText EntryKind.isText
    split <;> simp_all
  simp [textual]

/-- A merge adds to one entry of the last run, and to what the run says. -/
theorem mergeText_some (h : mergeText kind content reversed = some merged) :
    ∃ run run' before, reversed = run ++ before ∧ merged = run' ++ before ∧
      (∀ kind ∈ run.map ChatTimelineEntry.kind, kind.isText = true) ∧
      run'.map ChatTimelineEntry.kind = run.map ChatTimelineEntry.kind ∧
      ∀ k, said entryText k run'.reverse =
        said entryText k run.reverse ++ if kind = k then content else "" := by
  induction reversed generalizing merged with
  | nil => cases h
  | cons current rest ih =>
    unfold mergeText at h
    split at h
    · rename_i found known
      split at h
      · rename_i same
        cases h
        refine ⟨[current], [{ current with content := current.content ++ content }], rest, rfl, rfl,
          by simp [EntryKind.isText, known], rfl, fun k => ?_⟩
        simp only [said, List.reverse_singleton, piece, entryText, known, same]
        split <;> simp
      · rename_i differs
        obtain ⟨after, later, rfl⟩ := Option.map_eq_some_iff.mp h
        obtain ⟨run, run', before, rfl, rfl, all, kinds, texts⟩ := ih later
        refine ⟨current :: run, current :: run', before, rfl, rfl, ?_, ?_, fun k => ?_⟩
        · simpa [EntryKind.isText, known] using all
        · rw [List.map_cons, kinds, List.map_cons]
        · rw [List.reverse_cons, List.reverse_cons, TextRuns.said_append, TextRuns.said_append, texts k]
          by_cases here : kind = k
          · have silent : said entryText k [current] = "" := by
              simp [said, piece, entryText, known, ← here, differs]
            simp [silent]
          · simp [here]
    · cases h

/-- Where nothing was merged, the last run has no entry of the kind. -/
theorem mergeText_none (h : mergeText kind content reversed = none) {run : List EntryKind}
    (first : run <+: reversed.map ChatTimelineEntry.kind) (all : ∀ kind ∈ run, kind.isText = true) :
    .text kind ∉ run := by
  induction reversed generalizing run with
  | nil => simp [List.prefix_nil.mp first]
  | cons current rest ih =>
    cases run with
    | nil => simp
    | cons e run =>
      obtain ⟨rfl, later⟩ := List.cons_prefix_cons.mp first
      unfold mergeText at h
      split at h
      · rename_i found known
        split at h
        · cases h
        · rename_i differs
          have none_later := ih (Option.map_eq_none_iff.mp h) later
            fun kind member => all kind (List.mem_cons_of_mem _ member)
          simpa [known, Ne.symm differs] using none_later
      · rename_i other
        have textual := all current.kind List.mem_cons_self
        unfold EntryKind.isText at textual
        split at textual
        · rename_i found known
          exact absurd known (other found)
        · cases textual

theorem appendTimelineText_outline : outline entryText k (appendTimelineText kind content timeline) =
    note entryText k (outline entryText k timeline) { kind := .text kind, content } := by
  unfold appendTimelineText
  split
  · rename_i empty
    simp [note, entryText, piece, empty]
  · split
    · rename_i found
      obtain ⟨run, run', before, whole, rfl, all, kinds, texts⟩ := mergeText_some found
      have all' := (entryText_isSome run').mpr (kinds ▸ all)
      have parts : timeline = before.reverse ++ run.reverse := by
        rw [← List.reverse_append, ← whole, List.reverse_reverse]
      rw [parts, List.reverse_append, TextRuns.outline_append, TextRuns.outline_append,
        TextRuns.foldl_run (by simpa using all'),
        TextRuns.foldl_run (by simpa using (entryText_isSome run).mpr all), texts k]
      simp [note, entryText, piece, String.append_assoc]
    · exact TextRuns.outline_snoc

/-- A run has at most one entry of a kind. -/
def Tidy (kinds : List EntryKind) : Prop :=
  ∀ run, run <:+: kinds → (∀ kind ∈ run, kind.isText = true) → run.Nodup

theorem Tidy.snoc {kinds : List EntryKind} {kind : EntryKind} (tidy : Tidy kinds)
    (fresh : ∀ run, run <:+ kinds → (∀ kind ∈ run, kind.isText = true) → kind.isText = true →
      kind ∉ run) :
    Tidy (kinds ++ [kind]) := by
  intro run within all
  rcases List.infix_concat_iff.mp within with last | inside
  · rcases List.suffix_concat_iff.mp last with rfl | ⟨before, rfl, ends⟩
    · exact List.nodup_nil
    · have textual : ∀ kind ∈ before, kind.isText = true := by
        intro kind member
        exact all kind (List.mem_append_left _ member)
      refine List.nodup_append.mpr ⟨tidy before ends.isInfix textual, by simp, ?_⟩
      rintro a member b same rfl
      cases List.mem_singleton.mp same
      exact fresh before ends textual (all kind (by simp)) member
  · exact tidy run inside all

theorem appendTimelineText_tidy (tidy : Tidy (timeline.map ChatTimelineEntry.kind)) :
    Tidy ((appendTimelineText kind content timeline).map ChatTimelineEntry.kind) := by
  unfold appendTimelineText
  split
  · exact tidy
  · split
    · rename_i found
      obtain ⟨run, run', before, whole, rfl, -, kinds, -⟩ := mergeText_some found
      have same : timeline.map ChatTimelineEntry.kind =
          (run' ++ before).reverse.map ChatTimelineEntry.kind := by
        rw [← List.reverse_reverse timeline, whole]
        simp [kinds]
      rw [← same]
      exact tidy
    · rename_i found
      rw [List.map_append]
      refine tidy.snoc fun run ends all _ => ?_
      have first : run.reverse <+: timeline.reverse.map ChatTimelineEntry.kind := by
        rw [List.map_reverse]
        exact List.reverse_prefix.mpr ends
      simpa using mergeText_none found first (by simpa using all)

/-- The events of a turn, as far as `_apply_event` takes them. -/
def liveOf (events : List RuntimeTurnEvent) : LiveTurn := events.foldl applyEvent {}

def entriesOf (events : List RuntimeTurnEvent) : List ChatTimelineEntry :=
  events.filterMap RuntimeTurnEvent.entry

theorem liveOf_snoc {events : List RuntimeTurnEvent} {event : RuntimeTurnEvent} :
    liveOf (events ++ [event]) = applyEvent (liveOf events) event := by
  simp [liveOf]

/-- The timeline says, run by run, what the events say, with the other entries where they were. -/
theorem liveOf_outline (events : List RuntimeTurnEvent) :
    outline entryText k (liveOf events).timeline = outline entryText k (entriesOf events) := by
  induction events using List.reverseRecOn with
  | nil => rfl
  | append_singleton events event ih =>
    rw [liveOf_snoc, entriesOf, List.filterMap_append]
    cases event <;>
      simp [applyEvent, RuntimeTurnEvent.entry, appendTimelineText_outline, TextRuns.outline_append, ih,
        entriesOf, List.filterMap_cons]

theorem liveOf_tidy (events : List RuntimeTurnEvent) :
    Tidy ((liveOf events).timeline.map ChatTimelineEntry.kind) := by
  induction events using List.reverseRecOn with
  | nil =>
    intro run within _
    simp [List.infix_nil.mp within]
  | append_singleton events event ih =>
    rw [liveOf_snoc]
    cases event <;>
      simp only [applyEvent, RuntimeTurnEvent.entry, Option.toList, List.map_append, List.map_cons,
        List.map_nil, List.append_nil]
    case reasoningSummaryDelta => exact appendTimelineText_tidy ih
    case assistantDelta => exact appendTimelineText_tidy ih
    all_goals first | exact ih | exact ih.snoc fun _ _ _ => nofun

/-- The timeline of a turn keeps the texts of either kind and the other entries in their order, and
has at most one entry of a kind between two of the others. -/
theorem timeline_faithful (events : List RuntimeTurnEvent) :
    (∀ kind, outline entryText kind (liveOf events).timeline =
      outline entryText kind (entriesOf events) ∧
      said entryText kind (liveOf events).timeline = said entryText kind (entriesOf events)) ∧
    (liveOf events).timeline.filter (fun e => (entryText e).isNone) =
      (entriesOf events).filter (fun e => (entryText e).isNone) ∧
    Tidy ((liveOf events).timeline.map ChatTimelineEntry.kind) := by
  refine ⟨fun kind => ⟨liveOf_outline events, ?_⟩, ?_, liveOf_tidy events⟩
  · rw [TextRuns.said_outline, liveOf_outline events, ← TextRuns.said_outline]
  · rw [@TextRuns.others_outline _ _ _ _ .content, liveOf_outline events, ← TextRuns.others_outline]

end Knoa.Conversation.Timeline
