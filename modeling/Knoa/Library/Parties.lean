import Mathlib.Algebra.BigOperators.Group.List.Basic
import Mathlib.Algebra.GroupWithZero.Nat

/-!
# A list of parties

The parties of a system stand in a list, and a step replaces one of them.
-/
namespace Parties

universe u

variable {α : Type u} {l : List α} {i : Nat} {a b : α}

theorem forall_set {P : α → Prop} (all : ∀ x ∈ l, P x) (new : P b) : ∀ x ∈ l.set i b, P x := by
  intro x member
  rcases List.mem_or_eq_of_mem_set member with old | rfl
  · exact all x old
  · exact new

theorem forall_append {P : α → Prop} (all : ∀ x ∈ l, P x) (new : P b) : ∀ x ∈ l ++ [b], P x := by
  intro x member
  rcases List.mem_append.mp member with old | last
  · exact all x old
  · rw [List.mem_singleton.mp last]
    exact new

variable {x : α}

theorem mem_set_other (member : x ∈ l) (stands : l[i]? = some a) (other : x ≠ a) :
    x ∈ l.set i b := by
  obtain ⟨j, at_j⟩ := List.mem_iff_getElem?.mp member
  have apart : i ≠ j := by
    rintro rfl
    rw [stands] at at_j
    exact other (Option.some.inj at_j).symm
  refine List.mem_iff_getElem?.mpr ⟨j, ?_⟩
  rw [List.getElem?_set_ne apart]
  exact at_j

theorem mem_set_self (stands : l[i]? = some a) : b ∈ l.set i b :=
  List.mem_set (List.getElem?_eq_some_iff.mp stands).1 b

theorem getElem?_set_cases {j : Nat} (h : (l.set i b)[j]? = some x) :
    i = j ∧ x = b ∨ i ≠ j ∧ l[j]? = some x := by
  by_cases same : i = j
  · subst same
    rw [List.getElem?_set_self' ] at h
    obtain ⟨_, -, rfl⟩ := Option.map_eq_some_iff.mp h
    exact Or.inl ⟨rfl, rfl⟩
  · rw [List.getElem?_set_ne same] at h
    exact Or.inr ⟨same, h⟩

theorem getElem?_append_cases {j : Nat} (h : (l ++ [b])[j]? = some x) :
    j = l.length ∧ x = b ∨ l[j]? = some x := by
  rw [List.getElem?_append] at h
  split at h
  · exact Or.inr h
  · obtain ⟨bound, rfl⟩ := List.getElem?_eq_some_iff.mp h
    rw [List.length_singleton] at bound
    exact Or.inl ⟨by omega, by simp⟩

theorem rank_set (rank : α → Nat) (stands : l[i]? = some a) :
    ((l.set i b).map rank).sum + rank a = (l.map rank).sum + rank b := by
  induction l generalizing i with
  | nil => cases stands
  | cons first rest ih =>
    cases i with
    | zero =>
      cases stands
      simp only [List.set_cons_zero, List.map_cons, List.sum_cons]
      omega
    | succ i =>
      have later := ih (i := i) stands
      simp only [List.set_cons_succ, List.map_cons, List.sum_cons]
      omega

theorem rank_set_same (rank : α → Nat) (stands : l[i]? = some a) (same : rank b = rank a) :
    ((l.set i b).map rank).sum = (l.map rank).sum := by
  have change := rank_set (b := b) rank stands
  omega

/-- A future is set once: for the party that waits, and only where it is not done. -/
theorem setOnce_cases {β γ : Type u} (waiter : Option Nat) (l : List α) (future : α → Option β)
    [∀ x, Decidable (future x = none)] (set : Nat → α → γ) (unset : γ) {done : γ}
    (eq : done = match waiter.bind (fun i => (l[i]?).map (fun x => (i, x))) with
      | some (i, x) => if future x = none then set i x else unset
      | none => unset) :
    (∃ i x, waiter = some i ∧ l[i]? = some x ∧ future x = none ∧ done = set i x) ∨
      done = unset ∧ ∀ i x, waiter = some i → l[i]? = some x → future x ≠ none := by
  subst eq
  split
  · rename_i i x bound
    obtain ⟨j, waits, paired⟩ := Option.bind_eq_some_iff.mp bound
    obtain ⟨other, found, same⟩ := Option.map_eq_some_iff.mp paired
    cases same
    by_cases undone : future x = none
    · exact Or.inl ⟨i, x, waits, found, undone, if_pos undone⟩
    · refine Or.inr ⟨if_neg undone, ?_⟩
      intro j other waits' found'
      cases waits.symm.trans waits'
      cases found.symm.trans found'
      exact undone
  · rename_i nobody
    refine Or.inr ⟨rfl, ?_⟩
    intro i x waits found
    rw [waits, Option.bind_some, found] at nobody
    cases nobody

end Parties
