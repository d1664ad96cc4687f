import Mathlib.Algebra.Order.Ring.Unbundled.Rat
import Mathlib.Data.List.Sort
import Mathlib.Data.Prod.Lex
import Mathlib.Data.String.Basic
import Knoa.Tasks.Launches

/-!
# The definitions that an event launches

`list_event_task_definitions` of `tasks/definition_repository.py`: the newest active definitions, as
many as the limit says, and of those the ones that launch on the source.
-/
namespace Knoa.Tasks
open Relational Transaction

inductive TaskLaunchKind
  | immediate
  | scheduled
  | event
  deriving DecidableEq

/-- A definition with its launch policy. -/
structure EventDefinition where
  taskId : String
  state : TaskDefinitionState
  updatedAt : Time
  kind : TaskLaunchKind
  eventSource : String := ""
  deriving DecidableEq

def EventDefinition.isActive (definition : EventDefinition) : Bool := definition.state = .active

def EventDefinition.launchesOn (source : String) (definition : EventDefinition) : Bool :=
  definition.kind = .event ∧ definition.eventSource = source

def EventDefinition.rank (definition : EventDefinition) : Time ×ₗ String :=
  toLex (definition.updatedAt, definition.taskId)

/-- `WHERE state='active' ORDER BY updated_at DESC, task_id DESC`. -/
def newest (definitions : Table EventDefinition.taskId) : List EventDefinition :=
  (definitions.rows.filter EventDefinition.isActive).insertionSort (fun a b => b.rank ≤ a.rank)

def listEventTaskDefinitions (definitions : Table EventDefinition.taskId) (eventSource : String)
    (limit : Int) : Except TaskError (List EventDefinition) := do
  let source := strip eventSource
  require (source ≠ "" ∧ source.length ≤ 128) (.value "Event source must contain 1-128 characters")
  require (1 ≤ limit ∧ limit ≤ 5000) (.value "Event Task list limit must be between 1 and 5000")
  return ((newest definitions).take limit.toNat).filter (EventDefinition.launchesOn source)

/-- The active definitions that launch on a source. -/
def routed (definitions : Table EventDefinition.taskId) (eventSource : String) :
    List EventDefinition :=
  definitions.rows.filter fun definition =>
    definition.isActive && definition.launchesOn (strip eventSource)

/-- No definition is missed as long as there are at most as many as the limit says. -/
def RoutesAll (definitions : Table EventDefinition.taskId) (eventSource : String) (limit : Int) :
    Prop :=
  (routed definitions eventSource).length ≤ limit →
    ∃ found, listEventTaskDefinitions definitions eventSource limit = .ok found ∧
      ∀ definition ∈ routed definitions eventSource, definition ∈ found

variable {definitions : Table EventDefinition.taskId} {rows : List EventDefinition}
  {definition : EventDefinition}

theorem mem_take_iff (sorted : rows.Pairwise (fun a b => b.rank < a.rank))
    (member : definition ∈ rows)
    (n : Nat) : definition ∈ rows.take n ↔ rows.countP (definition.rank < ·.rank) < n := by
  induction rows generalizing n with
  | nil => cases member
  | cons row rows ih =>
    obtain ⟨newer, sorted⟩ := List.pairwise_cons.mp sorted
    cases n with
    | zero => simp
    | succ n =>
      rw [List.take_succ_cons, List.countP_cons]
      rcases List.mem_cons.mp member with rfl | later
      · have none : rows.countP (definition.rank < ·.rank) = 0 := by
          rw [List.countP_eq_zero]
          intro other listed
          simpa using (newer other listed).le
        simp [none]
      · have apart : definition ≠ row := by
          rintro rfl
          exact lt_irrefl _ (newer _ later)
        rw [List.mem_cons, ih sorted later, if_pos (by simpa using newer _ later)]
        simp [apart]

/-- No two definitions have the same rank, so that the order is strict. -/
theorem newest_sorted : (newest definitions).Pairwise (fun a b => b.rank < a.rank) := by
  have sorted := List.pairwise_insertionSort (fun a b : EventDefinition => b.rank ≤ a.rank)
    (definitions.rows.filter EventDefinition.isActive)
  have once : (newest definitions).Pairwise (fun a b => a.taskId ≠ b.taskId) := by
    rw [newest, (List.perm_insertionSort _ _).pairwise_iff fun apart => Ne.symm apart]
    exact (List.pairwise_map.mp definitions.keyed).filter _
  refine (sorted.and once).imp fun both => lt_of_le_of_ne both.1 fun same => both.2 ?_
  exact (congrArg (fun rank => (ofLex rank).2) same).symm

theorem routesAll_iff (definitions : Table EventDefinition.taskId) (eventSource : String)
    (limit : Int) : RoutesAll definitions eventSource limit ↔
      limit < (routed definitions eventSource).length ∨
        (strip eventSource ≠ "" ∧ (strip eventSource).length ≤ 128) ∧ (1 ≤ limit ∧ limit ≤ 5000) ∧
          ∀ definition ∈ routed definitions eventSource, (definitions.rows.countP fun other =>
            other.isActive && decide (definition.rank < other.rank)) < limit := by
  have position : ∀ definition ∈ routed definitions eventSource, ∀ n,
      definition ∈ (newest definitions).take n ↔ (definitions.rows.countP fun other =>
        other.isActive && decide (definition.rank < other.rank)) < n := by
    intro definition member n
    obtain ⟨stored, selected⟩ := List.mem_filter.mp member
    have active := (Bool.and_eq_true_iff.mp selected).1
    rw [mem_take_iff newest_sorted, newest, (List.perm_insertionSort _ _).countP_eq,
      List.countP_filter]
    · simp only [Bool.and_comm]
    · rw [newest, List.mem_insertionSort]
      exact List.mem_filter.mpr ⟨stored, active⟩
  by_cases many : limit < (routed definitions eventSource).length
  · exact ⟨fun _ => .inl many, fun _ few => absurd many (not_lt.mpr few)⟩
  constructor
  · intro all
    obtain ⟨found, listed, complete⟩ := all (not_lt.mp many)
    obtain ⟨_, source, _, bounded, listed⟩ := of_bind₂ listed
    cases listed
    refine .inr ⟨require_ok_iff.mp source, require_ok_iff.mp bounded, fun definition member => ?_⟩
    have first := (position definition member _).mp (List.mem_of_mem_filter (complete _ member))
    omega
  · rintro (more | ⟨source, bounded, above⟩) few
    · exact absurd more many
    refine ⟨_, by rw [listEventTaskDefinitions, require_of source, ok_bind, require_of bounded]; rfl, ?_⟩
    intro definition member
    have selected := (Bool.and_eq_true_iff.mp (List.mem_filter.mp member).2).2
    refine List.mem_filter.mpr ⟨(position definition member _).mpr ?_, selected⟩
    have fewer := above definition member
    omega

def sampleDefinitions : Table EventDefinition.taskId :=
  ⟨[{ taskId := "a", state := .active, updatedAt := 1, kind := .event, eventSource := "mcp:x" },
    { taskId := "b", state := .active, updatedAt := 2, kind := .immediate }], by decide⟩

/-- One definition was edited after the only one that launches on the source. -/
theorem older_definition_missed : ¬ RoutesAll sampleDefinitions "mcp:x" 1 := by
  intro all
  obtain ⟨found, listed, complete⟩ := all (by decide +kernel)
  have empty : (listEventTaskDefinitions sampleDefinitions "mcp:x" 1).toOption = some [] := by
    decide +kernel
  rw [listed] at empty
  cases empty
  have member : sampleDefinitions.rows.head (by decide) ∈ routed sampleDefinitions "mcp:x" := by
    decide +kernel
  cases complete _ member

end Knoa.Tasks
