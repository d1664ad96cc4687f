import Knoa.Models.ModelStep

/-!
# The protocol of a model step

A fallback speaks only after a primary that has shown nothing, and a step ends with one terminal
event.
-/
namespace Knoa.Models

variable {chunks yielded : List ProviderChunk} {ending : Ending} {seen last : Seen}
  {stop : PrimaryEnd}

def terminals (chunks : List ProviderChunk) : Nat := chunks.countP fun chunk => chunk.terminal

def ModelStepEvent.isTerminal : ModelStepEvent → Bool
  | .terminal _ => true
  | _ => false

def contentOf (events : List ModelStepEvent) : String :=
  String.join <| events.filterMap fun
    | .contentDelta content => some content
    | _ => none

def reasoningOf (events : List ModelStepEvent) : String :=
  String.join <| events.filterMap fun
    | .reasoningDelta content => some content
    | _ => none

/-- One terminal event, the last one, with the concatenations of the deltas. -/
def EndsOnce (events : List ModelStepEvent) : Prop :=
  ∃ before result, events = before ++ [.terminal result] ∧
    (∀ event ∈ before, event.isTerminal = false) ∧ result.content = contentOf before ∧
      result.reasoning = reasoningOf before

theorem followPrimary_spec (h : followPrimary ending chunks seen = (yielded, stop, last)) :
    yielded <+: chunks ∧ (stop = .isOver →
      last.emitted = (seen.emitted || yielded.any ProviderChunk.observable) ∧
      last.terminal = (seen.terminal || yielded.any ProviderChunk.terminal)) := by
  induction chunks generalizing seen yielded with
  | nil =>
    cases h
    refine ⟨List.prefix_refl _, fun _ => ?_⟩
    simp
  | cons chunk rest ih =>
    unfold followPrimary at h
    dsimp only at h
    split at h
    · split at h
      · cases h
        refine ⟨⟨rest, rfl⟩, fun isOver => ?_⟩
        cases isOver
      · cases h
        refine ⟨List.nil_prefix, fun _ => ?_⟩
        simp
    · generalize followed : followPrimary ending rest _ = result at h
      obtain ⟨later, stop', last'⟩ := result
      cases h
      obtain ⟨before, saw⟩ := ih followed
      refine ⟨List.cons_prefix_cons.mpr ⟨rfl, before⟩, fun isOver => ?_⟩
      obtain ⟨emitted, terminal⟩ := saw isOver
      rw [List.any_cons, List.any_cons, ← Bool.or_assoc, ← Bool.or_assoc]
      exact ⟨emitted, terminal⟩

theorem terminals_failedOver (chunks : List ProviderChunk) :
    terminals (chunks.map ProviderChunk.failedOver) = terminals chunks := by
  unfold terminals
  rw [List.countP_map]
  rfl

theorem terminals_eq_zero (none : yielded.any ProviderChunk.terminal = false) :
    terminals yielded = 0 := by
  unfold terminals
  rw [List.countP_eq_zero]
  intro chunk member
  rw [Bool.not_eq_true]
  exact Bool.eq_false_iff.mpr (List.any_eq_false.mp none chunk member)

theorem terminals_le (before : yielded <+: chunks) : terminals yielded ≤ terminals chunks :=
  before.sublist.countP_le

theorem failover_unmixed (primary fallback : ProviderStream) (cancelled : Bool)
    (used : (failover primary fallback cancelled).fallback ≠ []) :
    ∀ chunk ∈ (failover primary fallback cancelled).primary, chunk.observable = false := by
  unfold failover at used ⊢
  split at used
  · exact absurd rfl used
  · exact absurd rfl used
  next yielded seen followed =>
    obtain ⟨-, saw⟩ := followPrimary_spec followed
    split at used
    · exact absurd rfl used
    next going =>
      split at used
      · exact absurd rfl used
      next silent =>
        rw [if_neg going, if_neg silent]
        have nothing := (saw rfl).1
        rw [Bool.false_or, eq_comm, Bool.eq_false_of_not_eq_true silent] at nothing
        intro chunk member
        exact Bool.eq_false_iff.mpr (List.any_eq_false.mp nothing chunk member)

theorem failover_terminals (primary fallback : ProviderStream) (cancelled : Bool)
    (first : terminals primary.chunks ≤ 1) (second : terminals fallback.chunks ≤ 1) :
    terminals (failover primary fallback cancelled).toStream.chunks ≤ 1 := by
  have alone : ∀ {yielded : List ProviderChunk} {ending : Ending}, yielded <+: primary.chunks →
      terminals ({ primary := yielded, ending } : FailoverStream).toStream.chunks ≤ 1 := by
    intro yielded ending before
    unfold FailoverStream.toStream
    rw [List.append_nil, List.append_nil]
    exact (terminals_le before).trans first
  unfold failover
  split
  next followed => exact alone (followPrimary_spec followed).1
  next followed => exact alone (followPrimary_spec followed).1
  next yielded seen followed =>
    obtain ⟨before, saw⟩ := followPrimary_spec followed
    split
    · exact alone before
    next going =>
      rw [Bool.or_eq_true, not_or] at going
      have unfinished := (saw rfl).2
      rw [Bool.false_or, eq_comm, Bool.eq_false_of_not_eq_true going.2] at unfinished
      have none := terminals_eq_zero unfinished
      unfold FailoverStream.toStream
      split
      · rw [List.append_nil]
        unfold terminals at none ⊢
        rw [List.countP_append, none]
        rfl
      · rw [List.append_nil]
        unfold terminals at none ⊢
        rw [List.countP_append, none, Nat.zero_add]
        exact (terminals_failedOver fallback.chunks).le.trans second

theorem deltas_not_terminal (chunk : ProviderChunk) :
    ∀ event ∈ deltas chunk, event.isTerminal = false := by
  intro event member
  rcases List.mem_append.mp member with content | reasoning
  · split at content
    · cases content
    · rw [List.mem_singleton.mp content]
      rfl
  · split at reasoning
    · cases reasoning
    · rw [List.mem_singleton.mp reasoning]
      rfl

theorem contentOf_append (events later : List ModelStepEvent) :
    contentOf (events ++ later) = contentOf events ++ contentOf later := by
  unfold contentOf
  rw [List.filterMap_append, String.join_append]

theorem reasoningOf_append (events later : List ModelStepEvent) :
    reasoningOf (events ++ later) = reasoningOf events ++ reasoningOf later := by
  unfold reasoningOf
  rw [List.filterMap_append, String.join_append]

theorem add_content (parts : Collected) (chunk : ProviderChunk) :
    String.join (parts.add chunk).content =
      String.join parts.content ++ contentOf (deltas chunk) := by
  unfold Collected.add deltas contentOf
  by_cases empty : chunk.contentDelta = "" <;> by_cases silent : chunk.reasoningDelta = "" <;>
    simp [empty, silent]

theorem add_reasoning (parts : Collected) (chunk : ProviderChunk) :
    String.join (parts.add chunk).reasoning =
      String.join parts.reasoning ++ reasoningOf (deltas chunk) := by
  unfold Collected.add deltas reasoningOf
  by_cases empty : chunk.contentDelta = "" <;> by_cases silent : chunk.reasoningDelta = "" <;>
    simp [empty, silent]

/-- The events of the rest of a loop that has collected something. -/
structure Sums (parts : Collected) (ending : Ending) (run : ModelStepRun) : Prop where
  raised : run.raised = true → ending = .cancelled ∧ ∀ event ∈ run.events, event.isTerminal = false
  ends : run.raised = false → ∃ before result, run.events = before ++ [.terminal result] ∧
    (∀ event ∈ before, event.isTerminal = false) ∧
    result.content = String.join parts.content ++ contentOf before ∧
    result.reasoning = String.join parts.reasoning ++ reasoningOf before

theorem Sums.single {parts : Collected} {result : ModelStepResult}
    (content : result.content = String.join parts.content)
    (reasoning : result.reasoning = String.join parts.reasoning) :
    Sums parts ending { events := [.terminal result] } where
  raised raised := by cases raised
  ends _ := by
    refine ⟨[], result, rfl, fun event member => ?_, ?_, ?_⟩
    · cases member
    · exact content.trans (String.append_empty).symm
    · exact reasoning.trans (String.append_empty).symm

theorem Sums.cons {parts parts' : Collected} {run : ModelStepRun} (chunk : ProviderChunk)
    (content : parts'.content = (parts.add chunk).content)
    (reasoning : parts'.reasoning = (parts.add chunk).reasoning) (later : Sums parts' ending run) :
    Sums parts ending { run with events := deltas chunk ++ run.events } where
  raised raised := by
    obtain ⟨isCancelled, quiet⟩ := later.raised raised
    refine ⟨isCancelled, fun event member => ?_⟩
    exact (List.mem_append.mp member).elim (deltas_not_terminal chunk event) (quiet event)
  ends returned := by
    obtain ⟨before, result, events, quiet, content', reasoning'⟩ := later.ends returned
    refine ⟨deltas chunk ++ before, result, ?_, fun event member => ?_, ?_, ?_⟩
    · rw [events, List.append_assoc]
    · exact (List.mem_append.mp member).elim (deltas_not_terminal chunk event) (quiet event)
    · rw [content', content, add_content, contentOf_append, String.append_assoc]
    · rw [reasoning', reasoning, add_reasoning, reasoningOf_append, String.append_assoc]

theorem consume_sums (promptTokens toolTokens : Nat) (cancelled : Nat → Bool)
    (chunks : List ProviderChunk) (i : Nat) (parts : Collected) :
    Sums parts ending (consume promptTokens toolTokens ending cancelled chunks i parts) := by
  induction chunks generalizing i parts with
  | nil =>
    cases ending with
    | cancelled =>
      refine ⟨fun _ => ⟨rfl, fun event member => ?_⟩, fun returned => ?_⟩
      · cases member
      · cases returned
    | raised | finished => exact Sums.single rfl rfl
  | cons chunk rest ih =>
    unfold consume
    split
    · exact Sums.single rfl rfl
    · dsimp only
      split
      · have isOver : Sums (parts.add chunk) ending
            { events := [broken promptTokens toolTokens .failed (parts.add chunk)
                "provider_failed"] } := Sums.single rfl rfl
        exact isOver.cons chunk rfl rfl
      · refine (ih (i + 1) _).cons chunk ?_ ?_
        · split <;> rfl
        · split <;> rfl

theorem modelStep_sums (preparation : Preparation) (stream : ProviderStream)
    (cancelled : Nat → Bool) : Sums {} stream.ending (modelStep preparation stream cancelled) := by
  unfold modelStep
  split
  · exact Sums.single rfl rfl
  · split
    · exact Sums.single rfl rfl
    · exact consume_sums _ _ cancelled stream.chunks 1 {}

/-- Whatever the providers do: their outputs are not mixed, there is one terminal chunk where each
has one, and the step ends with one terminal event, except where a `CancelledError` ends it. -/
theorem failover_step_protocol (primary fallback : ProviderStream) (checked : Bool)
    (preparation : Preparation) (cancelled : Nat → Bool) :
    let out := failover primary fallback checked
    let run := modelStep preparation out.toStream cancelled
    (out.fallback = [] ∨ ∀ chunk ∈ out.primary, chunk.observable = false) ∧
      (terminals out.toStream.chunks ≤ 1 ∨ 1 < terminals primary.chunks ∨
        1 < terminals fallback.chunks) ∧
      (if run.raised then
        out.ending = .cancelled ∧ ∀ event ∈ run.events, event.isTerminal = false
      else EndsOnce run.events) := by
  intro out run
  have sums := modelStep_sums preparation out.toStream cancelled
  refine ⟨?_, ?_, ?_⟩
  · by_cases used : out.fallback = []
    · exact .inl used
    · exact .inr (failover_unmixed primary fallback checked used)
  · by_cases first : terminals primary.chunks ≤ 1
    · by_cases second : terminals fallback.chunks ≤ 1
      · exact .inl (failover_terminals primary fallback checked first second)
      · exact .inr (.inr (Nat.lt_of_not_le second))
    · exact .inr (.inl (Nat.lt_of_not_le first))
  · split
    next raised => exact sums.raised raised
    next returned =>
      obtain ⟨before, result, events, quiet, content, reasoning⟩ :=
        sums.ends (Bool.eq_false_of_not_eq_true returned)
      refine ⟨before, result, events, quiet, ?_, ?_⟩
      · rw [content]
        exact String.empty_append
      · rw [reasoning]
        exact String.empty_append

section Sample

/-- A primary whose task is cancelled. -/
def cancelledStream : ProviderStream where
  chunks := [{ ProviderChunk.silent with contentDelta := "partial" }]
  ending := .cancelled

/-- A primary whose only chunk is an error that carries text. -/
def failingStream : ProviderStream where
  chunks := [{ ProviderChunk.failure "" "" with contentDelta := "partial" }]
  ending := .finished

def answeringStream : ProviderStream where
  chunks := [{ ProviderChunk.silent with contentDelta := "answer" }, .stopped]
  ending := .finished

/-- A step whose provider is cancelled has no terminal event, and a fallback answers for a primary
that has yielded text with its error. -/
theorem cancelled_without_terminal :
    let run := modelStep (.ready 0 0) (failover cancelledStream answeringStream false).toStream
      fun _ => false
    ¬EndsOnce run.events ∧ run.raised = true ∧
      (failover failingStream answeringStream false).fallback.length = 2 ∧
      failingStream.chunks.any ProviderChunk.observable = true := by
  refine ⟨?_, rfl, rfl, by decide⟩
  rintro ⟨before, result, events, -⟩
  have last := congrArg List.getLast? events
  rw [List.getLast?_append_of_ne_nil _ (List.cons_ne_nil _ _)] at last
  cases last

end Sample

end Knoa.Models
