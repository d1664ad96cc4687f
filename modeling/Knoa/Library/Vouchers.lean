import Knoa.Library.Table
import Mathlib.Order.Nat
import Mathlib.Data.List.Perm.Subperm
import Mathlib.Data.List.Count

/-!
# Vouchers

Rows of a table that are each good for one use. What was spent is a part of what was made, however
the steps are ordered and whatever is deleted.
-/
namespace Vouchers
open Relational (Table)

universe u v w

variable {ρ : Type u} {κ : Type v} {τ : Type w} [DecidableEq κ] [DecidableEq τ] {key : ρ → κ}
  {tag : ρ → τ} {unspent : ρ → Bool} {t u : Table key} {spent made : List τ} {row : ρ}

def Balanced (tag : ρ → τ) (unspent : ρ → Bool) (t : Table key) (spent made : List τ) : Prop :=
  ∀ k, spent.count k + t.rows.countP (fun row => unspent row && tag row == k) ≤ made.count k

omit [DecidableEq κ] in
theorem balanced_empty : Balanced tag unspent (Table.empty : Table key) [] [] := fun _ => le_rfl

section
variable (balanced : Balanced tag unspent t spent made)
include balanced

theorem Balanced.make
    (inserted : t.insert row = some u) : Balanced tag unspent u spent (made ++ [tag row]) := by
  intro k
  have before := balanced k
  rw [Table.insert_rows inserted, List.countP_append, List.count_append, List.countP_singleton,
    List.count_singleton]
  split
  · next counted =>
      rw [Bool.and_eq_true] at counted
      rw [if_pos counted.2]
      omega
  · split <;> omega

omit [DecidableEq κ] in
theorem Balanced.spend (member : row ∈ t.rows)
    (good : unspent row = true) {p : ρ → Bool} {f : ρ → ρ} (keep : ∀ row, key (f row) = key row)
    (selects : ∀ other ∈ t.rows, p other = true ↔ other = row) (drops : unspent (f row) = false) :
    Balanced tag unspent (t.update p f keep) (spent ++ [tag row]) made := by
  intro k
  have before := balanced k
  have moved := Table.countP_update (q := fun row => unspent row && tag row == k) keep member
    selects (by rw [drops, Bool.false_and])
  rw [good, Bool.true_and] at moved
  rw [List.count_append, List.count_singleton]
  omega

omit [DecidableEq κ] in
theorem Balanced.delete (p : ρ → Bool) : Balanced tag unspent (t.delete p) spent made := fun k =>
  le_trans (Nat.add_le_add_left (Table.countP_delete_le t p _) _) (balanced k)

omit [DecidableEq κ] in
theorem Balanced.subperm : spent.Subperm made :=
  List.subperm_ext_iff.mpr fun k _ => le_trans (Nat.le_add_right _ _) (balanced k)

end

omit [DecidableEq τ] in
theorem once {σ : Type*} {f : τ → σ} (part : spent.Subperm made)
    (different : (made.map f).Nodup) : (spent.map f).Nodup :=
  let ⟨_, same, sublist⟩ := part
  (same.map f).nodup_iff.mp ((sublist.map f).nodup different)

end Vouchers
