import Mathlib.Order.Lattice
import Mathlib.Data.List.Pairwise

/-!
# Reading a growing log by cursor

A log holds entries under increasing keys and grows at its end. What a reader has taken is read off
the log and the key of the last entry it took.
-/
namespace Cursor

universe u v

variable {α : Type u} {κ : Type v} [LinearOrder κ] (key : α → κ)

/-- The entries behind the cursor. -/
def after (log : List α) (cursor : κ) : List α := log.filter (fun e => cursor < key e)

/-- The entries a reader that started at `start` has taken. -/
def taken (log : List α) (start cursor : κ) : List α :=
  log.filter (fun e => start < key e ∧ key e ≤ cursor)

variable {key} {log added page rest : List α} {e : α} {start cursor : κ}

theorem mem_after : e ∈ after key log cursor ↔ e ∈ log ∧ cursor < key e := by
  simp [after]

theorem mem_taken : e ∈ taken key log start cursor ↔ e ∈ log ∧ start < key e ∧ key e ≤ cursor := by
  simp [taken]

@[simp] theorem taken_self : taken key log start start = [] := by
  rw [taken, List.filter_eq_nil_iff]
  simp

theorem after_append : after key (log ++ added) cursor =
    after key log cursor ++ after key added cursor := List.filter_append _ _

theorem prefix_after_append (h : page <+: after key log cursor) :
    page <+: after key (log ++ added) cursor := by
  rw [after_append]
  exact h.trans (List.prefix_append _ _)

theorem taken_append (behind : ∀ e ∈ added, cursor < key e) :
    taken key (log ++ added) start cursor = taken key log start cursor := by
  have none_added : taken key added start cursor = [] := by
    rw [taken, List.filter_eq_nil_iff]
    intro e member
    simpa using fun _ => behind e member
  rw [taken, List.filter_append]
  exact (congrArg (taken key log start cursor ++ ·) none_added).trans (List.append_nil _)

section
variable (sorted : log.Pairwise (fun a b => key a < key b))
include sorted

theorem taken_head (begun : start ≤ cursor) (head : e :: rest = after key log cursor) :
    taken key log start (key e) = taken key log start cursor ++ [e] ∧
      rest = after key log (key e) := by
  induction log with
  | nil => cases head
  | cons a log ih =>
    obtain ⟨below, sorted⟩ := List.pairwise_cons.mp sorted
    by_cases behind : cursor < key a
    · have here : after key (a :: log) cursor = a :: log := by
        rw [after, List.filter_eq_self]
        intro b member
        rcases List.mem_cons.mp member with rfl | later
        · simpa using behind
        · simpa using behind.trans (below b later)
      rw [here, List.cons.injEq] at head
      obtain ⟨rfl, rfl⟩ := head
      have all : after key rest (key e) = rest := by
        rw [after, List.filter_eq_self]
        intro b member
        simpa using below b member
      have none_later : ∀ bound, bound ≤ key e → taken key rest start bound = [] := by
        intro bound low
        rw [taken, List.filter_eq_nil_iff]
        intro b member
        simpa using fun _ => low.trans_lt (below b member)
      constructor
      · have first : taken key (e :: rest) start (key e) = e :: taken key rest start (key e) := by
          rw [taken, List.filter_cons_of_pos (by simpa using begun.trans_lt behind)]
          rfl
        have before : taken key (e :: rest) start cursor = taken key rest start cursor := by
          rw [taken, List.filter_cons_of_neg (by simpa using fun _ => behind)]
          rfl
        rw [first, before, none_later _ (le_refl _), none_later _ behind.le]
        rfl
      · rw [after, List.filter_cons_of_neg (by simp)]
        exact all.symm
    · have skip : after key (a :: log) cursor = after key log cursor := by
        rw [after, List.filter_cons_of_neg (by simpa using behind)]
        rfl
      rw [skip] at head
      obtain ⟨took, left⟩ := ih sorted head
      have reached : key a ≤ cursor := not_lt.mp behind
      have ahead : cursor < key e := (mem_after.mp (head ▸ List.mem_cons_self)).2
      constructor
      · by_cases wanted : start < key a
        · rw [taken, List.filter_cons_of_pos (by simpa using ⟨wanted, reached.trans ahead.le⟩),
            taken, List.filter_cons_of_pos (by simpa using ⟨wanted, reached⟩), List.cons_append]
          exact congrArg (a :: ·) took
        · rw [taken, List.filter_cons_of_neg (by simpa using fun low => absurd low wanted),
            taken, List.filter_cons_of_neg (by simpa using fun low => absurd low wanted)]
          exact took
      · rw [left, after, after, List.filter_cons_of_neg (by simpa using reached.trans ahead.le)]

theorem taken_prefix (begun : start ≤ cursor) (ahead : e :: rest <+: after key log cursor) :
    taken key log start (key e) = taken key log start cursor ++ [e] ∧
      rest <+: after key log (key e) := by
  obtain ⟨tail, whole⟩ := ahead
  obtain ⟨took, left⟩ := taken_head sorted begun (by rwa [← List.cons_append])
  exact ⟨took, tail, left⟩

/-- What the reader takes next of a log that has grown is the next of the entries it had. -/
theorem length_after_next (ahead : e :: rest <+: after key (log ++ added) cursor) :
    (after key log (key e)).length = (after key log cursor).length - 1 := by
  have beyond := (mem_after.mp (ahead.subset List.mem_cons_self)).2
  cases left : after key log cursor with
  | nil =>
    rw [after, List.filter_eq_nil_iff] at left
    refine List.length_eq_zero_iff.mpr (List.filter_eq_nil_iff.mpr fun a member later => ?_)
    have reached := left a member
    simp only [decide_eq_true_eq] at later reached
    exact reached (beyond.trans later)
  | cons a tail =>
    rw [after_append, left, List.cons_append, List.cons_prefix_cons] at ahead
    rw [ahead.1, ← (taken_head sorted (le_refl cursor) left.symm).2]
    rfl

theorem next_prefix
    (ahead : e ∈ after key log cursor) (nearest : ∀ a ∈ log, cursor < key a → key e ≤ key a) :
    [e] <+: after key log cursor := by
  cases left : after key log cursor with
  | nil =>
    rw [left] at ahead
    cases ahead
  | cons a rest =>
    have first : e = a := by
      rw [left] at ahead
      rcases List.mem_cons.mp ahead with same | later
      · exact same
      · have ordered : (a :: rest).Pairwise (fun a b => key a < key b) :=
          left ▸ sorted.filter _
        obtain ⟨member, behind⟩ := mem_after.mp (left ▸ List.mem_cons_self : a ∈ after key log cursor)
        exact absurd (nearest a member behind) (not_le.mpr (List.rel_of_pairwise_cons ordered later))
    rw [first]
    exact List.prefix_append [a] rest

end

theorem taken_eq_after (none_left : after key log cursor = []) :
    taken key log start cursor = after key log start := by
  apply List.filter_congr
  intro e member
  rw [after, List.filter_eq_nil_iff] at none_left
  have reached := none_left e member
  simp only [decide_eq_true_eq, not_lt] at reached
  simp [reached]

end Cursor
