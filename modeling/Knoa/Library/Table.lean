
/-!
# Keyed tables

A table is the list of its rows in insertion order with the proof that its primary key is unique.
-/
theorem List.mem_concat {α : Type _} {a b : α} {xs : List α} : a ∈ xs ++ [b] ↔ a ∈ xs ∨ a = b := by
  rw [List.mem_append, List.mem_singleton]

namespace Relational

universe u v

structure Table {ρ : Type u} {κ : Type v} (key : ρ → κ) where
  rows : List ρ
  keyed : (rows.map key).Nodup

namespace Table

variable {ρ : Type u} {κ : Type v} {key : ρ → κ}

variable {t u : Table key} {rows : List ρ} {row : ρ} {k : κ}

@[ext] theorem ext (h : t.rows = u.rows) : t = u := by
  cases t
  cases u
  cases h
  rfl

def empty : Table key := ⟨[], List.nodup_nil⟩

def single (row : ρ) : Table key := ⟨[row], List.pairwise_singleton _ _⟩

theorem keyed_append (keyed : (rows.map key).Nodup)
    (fresh : key row ∉ rows.map key) : ((rows ++ [row]).map key).Nodup := by
  rw [List.map_append, List.nodup_append]
  refine ⟨keyed, by simp, ?_⟩
  intro a member b single
  rw [List.map_singleton, List.mem_singleton] at single
  rintro rfl
  exact fresh (single ▸ member)

/-- `INSERT`: refused when the key is already present. -/
def insert [DecidableEq κ] (t : Table key) (row : ρ) : Option (Table key) :=
  if fresh : key row ∉ t.rows.map key then
    some ⟨t.rows ++ [row], keyed_append t.keyed fresh⟩
  else none

theorem keyed_map {f : ρ → ρ} (keyed : (rows.map key).Nodup)
    (keep : ∀ row, key (f row) = key row) : ((rows.map f).map key).Nodup := by
  have same : key ∘ f = key := funext keep
  rwa [List.map_map, same]

/-- `UPDATE ... WHERE p`: every selected row is rewritten in place. -/
def update (t : Table key) (p : ρ → Bool) (f : ρ → ρ) (keep : ∀ row, key (f row) = key row) :
    Table key :=
  ⟨t.rows.map (fun row => if p row then f row else row), keyed_map t.keyed (by
    intro row
    split
    · exact keep row
    · rfl)⟩

/-- `SELECT ... WHERE key = k`. -/
def lookup [DecidableEq κ] (t : Table key) (k : κ) : Option ρ :=
  t.rows.find? (fun row => decide (key row = k))

@[simp] theorem update_rows (t : Table key) (p : ρ → Bool) (f : ρ → ρ)
    (keep : ∀ row, key (f row) = key row) :
    (t.update p f keep).rows = t.rows.map (fun row => if p row then f row else row) := rfl

variable [DecidableEq κ]

theorem insert_rows (h : t.insert row = some u) : u.rows = t.rows ++ [row] := by
  unfold insert at h
  split at h <;> cases h
  rfl

theorem insert_fresh (h : t.insert row = some u) : key row ∉ t.rows.map key := by
  unfold insert at h
  split at h
  · assumption
  · cases h

theorem insert_eq_none (h : t.insert row = none) : key row ∈ t.rows.map key := by
  unfold insert at h
  split at h
  · cases h
  · rename_i present
    exact Decidable.not_not.mp present

theorem lookup_mem (h : t.lookup k = some row) : row ∈ t.rows := List.mem_of_find?_eq_some h

theorem lookup_key (h : t.lookup k = some row) : key row = k := by
  simpa using List.find?_some h

theorem find?_of_keyed (keyed : (rows.map key).Nodup) (member : row ∈ rows) :
    rows.find? (fun other => decide (key other = key row)) = some row := by
  induction rows with
  | nil => cases member
  | cons head tail ih =>
    rw [List.map_cons, List.nodup_cons] at keyed
    rcases List.mem_cons.mp member with rfl | later
    · simp
    · have different : key head ≠ key row := by
        intro same
        exact keyed.1 (same ▸ List.mem_map_of_mem later)
      rw [List.find?_cons_of_neg (by simpa using different)]
      exact ih keyed.2 later

theorem lookup_of_mem (member : row ∈ t.rows) :
    t.lookup (key row) = some row := find?_of_keyed t.keyed member

theorem lookup_eq_some_iff : t.lookup k = some row ↔ row ∈ t.rows ∧ key row = k := by
  constructor
  · intro h
    exact ⟨lookup_mem h, lookup_key h⟩
  · rintro ⟨member, rfl⟩
    exact lookup_of_mem member

theorem lookup_eq_none_iff : t.lookup k = none ↔ k ∉ t.rows.map key := by
  simp [lookup]

theorem mem_unique {a b : ρ} (ha : a ∈ t.rows) (hb : b ∈ t.rows)
    (same : key a = key b) : a = b := by
  have left := lookup_of_mem ha
  rw [same, lookup_of_mem hb] at left
  exact (Option.some.inj left).symm

theorem lookup_update (t : Table key) (p : ρ → Bool) (f : ρ → ρ)
    (keep : ∀ row, key (f row) = key row) (k : κ) :
    (t.update p f keep).lookup k = (t.lookup k).map (fun row => if p row then f row else row) := by
  have kept : (fun row => decide (key row = k)) ∘ (fun row => if p row then f row else row) =
      fun row => decide (key row = k) := by
    funext row
    by_cases selected : p row = true
    · simp [selected, keep]
    · simp [selected]
  simp only [lookup, update_rows, List.find?_map, kept]

theorem lookup_insert (h : t.insert row = some u) (k : κ) :
    u.lookup k = if key row = k then some row else t.lookup k := by
  have absent := insert_fresh h
  simp only [lookup, insert_rows h, List.find?_append]
  by_cases same : key row = k
  · subst same
    have missing : t.lookup (key row) = none := lookup_eq_none_iff.mpr absent
    simp only [lookup] at missing
    simp [missing]
  · simp [same]

omit [DecidableEq κ] in
theorem countP_update {q p : ρ → Bool} {f : ρ → ρ}
    (keep : ∀ row, key (f row) = key row) (member : row ∈ t.rows)
    (selects : ∀ other ∈ t.rows, p other = true ↔ other = row) (drops : q (f row) = false) :
    (t.update p f keep).rows.countP q + (if q row then 1 else 0) = t.rows.countP q := by
  have distinct : t.rows.Nodup := List.Pairwise.of_map key
    (fun _ _ apart same => apart (same ▸ rfl)) t.keyed
  obtain ⟨before, after, rows⟩ := List.append_of_mem member
  have apart : row ∉ before ∧ row ∉ after := by
    rw [rows, List.nodup_append, List.nodup_cons] at distinct
    refine ⟨?_, distinct.2.1.1⟩
    intro earlier
    exact distinct.2.2 row earlier row List.mem_cons_self rfl
  have unchanged : ∀ l : List ρ, (∀ other ∈ l, other ∈ t.rows) → row ∉ l →
      l.map (fun other => if p other then f other else other) = l := by
    intro l within absent
    have same : l.map (fun other => if p other then f other else other) = l.map id := by
      apply List.map_congr_left
      intro other listed
      rw [if_neg]
      · rfl
      · intro selected
        exact absent (((selects other (within other listed)).mp selected) ▸ listed)
    rw [same, List.map_id]
  rw [update_rows, rows, List.map_append, List.map_cons, if_pos ((selects row member).mpr rfl),
    unchanged before (fun other listed => by rw [rows]; exact List.mem_append_left _ listed) apart.1,
    unchanged after (fun other listed => by
      rw [rows]
      exact List.mem_append_right _ (List.mem_cons_of_mem _ listed)) apart.2,
    List.countP_append, List.countP_append, List.countP_cons, List.countP_cons, drops]
  simp only [Bool.false_eq_true, if_false]
  omega

theorem insert_of_lookup_none (h : t.lookup (key row) = none) : ∃ u, t.insert row = some u := by
  refine ⟨_, dif_pos (lookup_eq_none_iff.mp h)⟩

def columns {ρ' : Type u} {key' : ρ' → κ} (t : Table key) (f : ρ → ρ')
    (keep : ∀ row, key' (f row) = key row) : Table key' where
  rows := t.rows.map f
  keyed := by
    have same : key' ∘ f = key := funext keep
    rw [List.map_map, same]
    exact t.keyed

/-- `DELETE ... WHERE p` -/
def delete (t : Table key) (p : ρ → Bool) : Table key :=
  ⟨t.rows.filter (fun row => !p row), (List.filter_sublist.map key).nodup t.keyed⟩

theorem lookup_delete (t : Table key) (p : ρ → Bool) (k : κ) :
    (t.delete p).lookup k = (t.lookup k).filter (fun row => !p row) := by
  apply Option.ext
  intro row
  rw [lookup_eq_some_iff, Option.filter_eq_some_iff, lookup_eq_some_iff, delete, List.mem_filter]
  exact and_right_comm

/-- `INSERT ... ON CONFLICT DO UPDATE`: the row takes the place of the one with its key. -/
def upsert (t : Table key) (row : ρ) : Table key :=
  ⟨(t.delete (fun other => decide (key other = key row))).rows ++ [row],
    keyed_append (t.delete _).keyed (by simp [delete])⟩

theorem lookup_upsert (t : Table key) (row : ρ) (k : κ) :
    (t.upsert row).lookup k = if key row = k then some row else t.lookup k := by
  apply Option.ext
  intro other
  rw [lookup_eq_some_iff, upsert, List.mem_append, List.mem_singleton, delete, List.mem_filter]
  split
  next same =>
    rw [Option.some.injEq]
    constructor
    · rintro ⟨⟨-, differs⟩ | rfl, found⟩
      · simp [found, same] at differs
      · rfl
    · rintro rfl
      exact ⟨.inr rfl, same⟩
  next differs =>
    rw [lookup_eq_some_iff]
    constructor
    · rintro ⟨⟨member, -⟩ | rfl, found⟩
      · exact ⟨member, found⟩
      · exact absurd found differs
    · rintro ⟨member, found⟩
      exact ⟨.inl ⟨member, by simp [found, Ne.symm differs]⟩, found⟩

omit [DecidableEq κ] in
theorem mem_delete {p : ρ → Bool} (h : row ∈ (t.delete p).rows) :
    row ∈ t.rows := (List.mem_filter.mp h).1

omit [DecidableEq κ] in
theorem countP_delete_le (t : Table key) (p q : ρ → Bool) :
    (t.delete p).rows.countP q ≤ t.rows.countP q := List.filter_sublist.countP_le

end Table

section Selections

variable {α : Type u}

theorem filter_map_of_disjoint {q p : α → Bool} {f : α → α} {rows : List α}
    (keep : ∀ row, q (f row) = q row) (apart : ∀ row ∈ rows, p row = true → q row = false) :
    (rows.map (fun row => if p row then f row else row)).filter q = rows.filter q := by
  induction rows with
  | nil => rfl
  | cons row rows ih =>
    have rest := ih (fun other member => apart other (List.mem_cons_of_mem _ member))
    simp only [List.map_cons, List.filter_cons, rest]
    by_cases selected : p row = true
    · have out := apart row List.mem_cons_self selected
      simp [selected, keep, out]
    · simp [selected]

theorem filter_map_of_keep {q p : α → Bool} {f : α → α} {rows : List α}
    (keep : ∀ row, q (f row) = q row) :
    (rows.map (fun row => if p row then f row else row)).filter q =
      (rows.filter q).map (fun row => if p row then f row else row) := by
  induction rows with
  | nil => rfl
  | cons row rows ih =>
    have kept : q (if p row = true then f row else row) = q row := by
      split
      · exact keep row
      · rfl
    simp only [List.map_cons, List.filter_cons, kept, ih]
    split <;> simp

end Selections

namespace Table

variable {ρ : Type u} {κ : Type v} {ω : Type} {key : ρ → κ} [DecidableEq ω]

def owned (t : Table key) (owner : ρ → ω) (o : ω) : List ρ :=
  t.rows.filter (fun row => decide (owner row = o))

variable {t : Table key} {owner : ρ → ω} {row : ρ}

theorem mem_owned {o : ω} : row ∈ t.owned owner o ↔ row ∈ t.rows ∧ owner row = o := by
  simp [owned]

theorem owned_update {p : ρ → Bool} {f : ρ → ρ}
    {keep : ∀ row, key (f row) = key row} (same : ∀ row, owner (f row) = owner row) (o : ω) :
    (t.update p f keep).owned owner o =
      (t.owned owner o).map (fun row => if p row then f row else row) := by
  unfold owned
  rw [update_rows]
  exact filter_map_of_keep (fun row => by rw [same])

theorem owned_update_other {p : ρ → Bool} {f : ρ → ρ}
    {keep : ∀ row, key (f row) = key row} (same : ∀ row, owner (f row) = owner row) {o other : ω}
    (selects : ∀ row ∈ t.rows, p row = true → owner row = o) (apart : other ≠ o) :
    (t.update p f keep).owned owner other = t.owned owner other := by
  unfold owned
  rw [update_rows]
  apply filter_map_of_disjoint (fun row => by rw [same])
  intro row member selected
  rw [selects row member selected]
  exact decide_eq_false (Ne.symm apart)

theorem owned_of_append {u : Table key}
    (h : u.rows = t.rows ++ [row]) :
      u.owned owner (owner row) = t.owned owner (owner row) ++ [row] := by
  simp [owned, h]

theorem owned_of_append_other {u : Table key} {other : ω}
    (h : u.rows = t.rows ++ [row]) (apart : other ≠ owner row) :
    u.owned owner other = t.owned owner other := by
  simp [owned, h, Ne.symm apart]

/-- A write of `t` that applies `g` to the rows of one owner and keeps every other owner's. -/
structure Rewrites (owner : ρ → ω) (o : ω) (g : List ρ → List ρ) (t u : Table key) : Prop where
  here : u.owned owner o = g (t.owned owner o)
  frame : ∀ other, other ≠ o → u.owned owner other = t.owned owner other

theorem Rewrites.refl {o : ω} : Rewrites owner o (fun rows => rows) t t :=
  ⟨rfl, fun _ _ => rfl⟩

theorem Rewrites.update {p : ρ → Bool} {f : ρ → ρ} (keep : ∀ row, key (f row) = key row)
    (same : ∀ row, owner (f row) = owner row) {o : ω}
    (selects : ∀ row ∈ t.rows, p row = true → owner row = o) :
    Rewrites owner o (List.map (fun row => if p row then f row else row)) t (t.update p f keep) :=
  ⟨owned_update same o, fun _ apart => owned_update_other same selects apart⟩

theorem Rewrites.insert [DecidableEq κ] {u : Table key} (h : t.insert row = some u) :
    Rewrites owner (owner row) (fun rows => rows ++ [row]) t u :=
  ⟨owned_of_append (insert_rows h), fun _ apart => owned_of_append_other (insert_rows h) apart⟩

end Table

end Relational
