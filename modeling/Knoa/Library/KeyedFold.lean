import Mathlib.Data.List.Nodup
import Mathlib.Data.List.Forall2
import Mathlib.Data.List.Induction
import Mathlib.Data.List.Sort

/-!
# Folds by key

A table of what the updates of every key have made of it, in the order in which the keys first came.
-/
namespace KeyedFold

universe u v w x

variable {κ : Type u} {β : Type v} {ε : Type w} [DecidableEq κ]

/-- The entry of a key is changed where it stands; a new key comes last. -/
def put (f : Option β → β) (k : κ) : List (κ × β) → List (κ × β)
  | [] => [(k, f none)]
  | (k', b) :: rows => if k' = k then (k', f (some b)) :: rows else (k', b) :: put f k rows

def get (k : κ) : List (κ × β) → Option β
  | [] => none
  | (k', b) :: rows => if k' = k then some b else get k rows

/-- A key that comes for the first time is added at the end. -/
def see (k : κ) (seen : List κ) : List κ := if k ∈ seen then seen else seen ++ [k]

section
variable (step : Option β → ε → β)

def add (rows : List (κ × β)) (update : κ × ε) : List (κ × β) :=
  put (fun b => step b update.2) update.1 rows

def fold (updates : List (κ × ε)) : List (κ × β) := updates.foldl (add step) []

/-- What a sequence of updates makes of one entry. -/
def total (updates : List ε) : Option β := updates.foldl (fun b e => some (step b e)) none

end

/-- The keys, in the order in which they first come. -/
def keys (updates : List (κ × ε)) : List κ := updates.foldl (fun seen update => see update.1 seen) []

def own (k : κ) (updates : List (κ × ε)) : List ε :=
  updates.filterMap fun update => if update.1 = k then some update.2 else none

theorem get_put (f : Option β → β) (k k' : κ) (rows : List (κ × β)) :
    get k' (put f k rows) = if k = k' then some (f (get k rows)) else get k' rows := by
  induction rows with
  | nil =>
    simp only [put, get]
  | cons row rows ih =>
    obtain ⟨key, b⟩ := row
    by_cases here : key = k
    · subst here
      simp only [put, get, if_true]
      split <;> rfl
    · simp only [put, get, if_neg here, ih]
      by_cases other : key = k'
      · have apart : k ≠ k' := fun same => here (other.trans same.symm)
        rw [if_pos other, if_neg apart, if_pos other]
      · rw [if_neg other, if_neg other]

theorem keys_put (f : Option β → β) (k : κ) (rows : List (κ × β)) :
    (put f k rows).map Prod.fst = see k (rows.map Prod.fst) := by
  induction rows with
  | nil => rfl
  | cons row rows ih =>
    obtain ⟨key, b⟩ := row
    by_cases here : key = k
    · subst here
      simp only [put, if_true, List.map_cons, see, List.mem_cons, true_or]
    · have apart : k ≠ key := fun same => here same.symm
      simp only [put, if_neg here, List.map_cons, ih, see, List.mem_cons, apart, false_or]
      split <;> rfl

theorem nodup_see {k : κ} {seen : List κ} (distinct : seen.Nodup) : (see k seen).Nodup := by
  unfold see
  split
  · exact distinct
  · rename_i fresh
    rw [List.nodup_append]
    refine ⟨distinct, List.nodup_singleton k, ?_⟩
    intro a member b single same
    rw [List.mem_singleton] at single
    exact fresh (single ▸ same ▸ member)

theorem get_of_mem {rows : List (κ × β)} (distinct : (rows.map Prod.fst).Nodup) {row : κ × β}
    (member : row ∈ rows) : get row.1 rows = some row.2 := by
  induction rows with
  | nil => cases member
  | cons head rows ih =>
    rw [List.map_cons, List.nodup_cons] at distinct
    rcases List.mem_cons.mp member with rfl | later
    · exact if_pos rfl
    · have apart : head.1 ≠ row.1 := fun same => distinct.1 (same ▸ List.mem_map_of_mem later)
      exact (if_neg apart).trans (ih distinct.2 later)

variable (step : Option β → ε → β)

theorem fold_append (updates later : List (κ × ε)) :
    fold step (updates ++ later) = later.foldl (add step) (fold step updates) :=
  List.foldl_append

theorem own_append (k : κ) (updates later : List (κ × ε)) :
    own k (updates ++ later) = own k updates ++ own k later :=
  List.filterMap_append

theorem own_single (k : κ) (update : κ × ε) :
    own k [update] = if update.1 = k then [update.2] else [] := by
  unfold own
  rw [List.filterMap_cons, List.filterMap_nil]
  split
  · rename_i other
    split at other
    · cases other
    · rename_i apart
      rw [if_neg apart]
  · rename_i e here
    split at here <;> cases here
    rename_i same
    rw [if_pos same]

theorem total_append (updates later : List ε) :
    total step (updates ++ later) = later.foldl (fun b e => some (step b e)) (total step updates) :=
  List.foldl_append

theorem get_fold (k : κ) (updates : List (κ × ε)) :
    get k (fold step updates) = total step (own k updates) := by
  induction updates using List.reverseRecOn with
  | nil => rfl
  | append_singleton updates update ih =>
    have last : fold step (updates ++ [update]) = add step (fold step updates) update :=
      fold_append step updates [update]
    rw [last, add, get_put, own_append, own_single]
    split
    · rename_i same
      rw [total_append, ← same]
      rw [← same] at ih
      rw [ih]
      rfl
    · rw [List.append_nil, ih]

theorem keys_fold (updates : List (κ × ε)) : (fold step updates).map Prod.fst = keys updates := by
  induction updates using List.reverseRecOn with
  | nil => rfl
  | append_singleton updates update ih =>
    have last : fold step (updates ++ [update]) = add step (fold step updates) update :=
      fold_append step updates [update]
    have seen : keys (updates ++ [update]) = see update.1 (keys updates) := List.foldl_append
    rw [last, add, keys_put, ih, seen]

theorem nodup_keys (updates : List (κ × ε)) : (keys updates).Nodup := by
  induction updates using List.reverseRecOn with
  | nil => exact List.nodup_nil
  | append_singleton updates update ih =>
    have seen : keys (updates ++ [update]) = see update.1 (keys updates) := List.foldl_append
    rw [seen]
    exact nodup_see ih

theorem total_of_mem_fold {updates : List (κ × ε)} {row : κ × β}
    (member : row ∈ fold step updates) : total step (own row.1 updates) = some row.2 := by
  have distinct : ((fold step updates).map Prod.fst).Nodup :=
    keys_fold step updates ▸ nodup_keys updates
  rw [← get_fold, get_of_mem distinct member]

section
variable {α : Type x} {step} {updates : List (κ × ε)} {R : β → α → Prop}

theorem forall₂_of_keys {rows : List (κ × β)} {items : List α}
    (stored : ∀ row ∈ rows, total step (own row.1 updates) = some row.2)
    (each : List.Forall₂ (fun k item => ∃ b, total step (own k updates) = some b ∧ R b item)
      (rows.map Prod.fst) items) : List.Forall₂ (fun row item => R row.2 item) rows items := by
  induction rows generalizing items with
  | nil =>
    cases each
    exact .nil
  | cons row rows ih =>
    cases each with
    | cons first others =>
      obtain ⟨b, made, stands⟩ := first
      have here := stored row List.mem_cons_self
      rw [made, Option.some.injEq] at here
      exact .cons (here ▸ stands)
        (ih (fun row member => stored row (List.mem_cons_of_mem _ member)) others)

theorem forall₂_fold {items : List α}
    (each : List.Forall₂ (fun k item => ∃ b, total step (own k updates) = some b ∧ R b item)
      (keys updates) items) :
    List.Forall₂ (fun row item => R row.2 item) (fold step updates) items := by
  refine forall₂_of_keys (fun row member => total_of_mem_fold step member) ?_
  rw [keys_fold]
  exact each

theorem forall₂_sorted (le : κ → κ → Prop) [DecidableRel le] {items : List α}
    (each : List.Forall₂ (fun k item => ∃ b, total step (own k updates) = some b ∧ R b item)
      ((keys updates).insertionSort le) items) : List.Forall₂ (fun row item => R row.2 item)
      ((fold step updates).insertionSort fun a b => le a.1 b.1) items := by
  have sorted : ((fold step updates).insertionSort fun a b => le a.1 b.1).map Prod.fst =
      (keys updates).insertionSort le := by
    rw [← keys_fold step updates]
    exact List.map_insertionSort _ _ _ _ fun _ _ _ _ => Iff.rfl
  have stored : ∀ row ∈ (fold step updates).insertionSort fun a b => le a.1 b.1,
      total step (own row.1 updates) = some row.2 := fun row member =>
    total_of_mem_fold step ((List.perm_insertionSort _ _).mem_iff.mp member)
  refine forall₂_of_keys stored ?_
  rw [sorted]
  exact each

end

end KeyedFold
