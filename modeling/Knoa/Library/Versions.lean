import Mathlib.Data.List.Basic
import Mathlib.Order.Nat

/-!
# Revisions as versions

Snapshots that are given out one after the other, each with a revision. Whoever keeps the one with
the highest revision keeps the last, where revisions rise with what is seen.
-/
namespace Versions

universe u v

variable {α : Type u} {β : Type v} {rev : α → Nat} {view : α → β} {given : List α} {a b : α}

/-- A later snapshot has no lower revision, and one revision is one view. -/
def Ordered (rev : α → Nat) (view : α → β) (given : List α) : Prop :=
  given.Pairwise fun a b => rev a ≤ rev b ∧ (rev a = rev b → view a = view b)

/-- Everything that was given out is below the revision. -/
def Outdated (rev : α → Nat) (given : List α) (r : Nat) : Prop := ∀ a ∈ given, rev a < r

instance (rev : α → Nat) (given : List α) (r : Nat) : Decidable (Outdated rev given r) :=
  inferInstanceAs (Decidable (∀ a ∈ given, rev a < r))

/-- Nothing that was given out is above the revision, and what has it shows the view. -/
structure Current (rev : α → Nat) (view : α → β) (given : List α) (r : Nat) (v : Option β) :
    Prop where
  below : ∀ a ∈ given, rev a ≤ r
  same : ∀ a ∈ given, rev a = r → v = some (view a)

theorem ordered_nil : Ordered rev view [] := List.Pairwise.nil

variable {r : Nat}

theorem Outdated.current (outdated : Outdated rev given r) (v : Option β) :
    Current rev view given r v where
  below := fun a member => (outdated a member).le
  same := fun a member same => absurd same (outdated a member).ne

theorem Outdated.mono {s : Nat} (outdated : Outdated rev given r) (le : r ≤ s) :
    Outdated rev given s := fun a member => (outdated a member).trans_le le

theorem Ordered.append (ordered : Ordered rev view given)
    (current : Current rev view given r (some (view a))) (has : rev a = r) :
    Ordered rev view (given ++ [a]) := by
  refine List.pairwise_append.mpr ⟨ordered, List.pairwise_singleton _ _, ?_⟩
  intro b member c last
  rw [List.mem_singleton.mp last, has]
  refine ⟨current.below b member, fun same => ?_⟩
  exact (Option.some.inj (current.same b member same)).symm

theorem Current.append (current : Current rev view given r (some (view a))) (has : rev a = r) :
    Current rev view (given ++ [a]) r (some (view a)) where
  below := by
    intro b member
    rcases List.mem_append.mp member with old | last
    · exact current.below b old
    · rw [List.mem_singleton.mp last]
      exact has.le
  same := by
    intro b member same
    rcases List.mem_append.mp member with old | last
    · exact current.same b old same
    · rw [List.mem_singleton.mp last]

variable {i j : Nat}

section
variable (ordered : Ordered rev view given)
include ordered

theorem Ordered.at (first : given[i]? = some a) (second : given[j]? = some b) (before : i < j) :
    rev a ≤ rev b ∧ (rev a = rev b → view a = view b) := by
  obtain ⟨boundI, rfl⟩ := List.getElem?_eq_some_iff.mp first
  obtain ⟨boundJ, rfl⟩ := List.getElem?_eq_some_iff.mp second
  exact List.pairwise_iff_getElem.mp ordered i j boundI boundJ before

theorem Ordered.view_eq (first : a ∈ given) (second : b ∈ given)
    (same : rev a = rev b) : view a = view b := by
  obtain ⟨i, atI⟩ := List.mem_iff_getElem?.mp first
  obtain ⟨j, atJ⟩ := List.mem_iff_getElem?.mp second
  rcases Nat.lt_trichotomy i j with before | here | after
  · exact (ordered.at atI atJ before).2 same
  · subst here
    rw [atI] at atJ
    cases atJ
    rfl
  · exact ((ordered.at atJ atI after).2 same.symm).symm

theorem Ordered.rev_lt (first : given[i]? = some a)
    (second : given[j]? = some b) (before : i < j) (differ : view a ≠ view b) : rev a < rev b := by
  obtain ⟨le, same⟩ := ordered.at first second before
  exact lt_of_le_of_ne le fun equal => differ (same equal)

theorem Ordered.kept (first : given[i]? = some a)
    (second : given[j]? = some b) (before : i < j) (le : rev b ≤ rev a) : view b = view a := by
  obtain ⟨ge, same⟩ := ordered.at first second before
  exact (same (le_antisymm ge le)).symm

end

end Versions
