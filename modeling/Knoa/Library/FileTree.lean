import Mathlib.Data.List.Infix

/-!
# File trees

A tree of named nodes, as the node of each place and a list that has all places with one. A
place is the list of names from the root; a link is a leaf.
-/
namespace FileTree

universe u v

inductive Node (β : Type v)
  | dir
  | file (content : β)
  | link
  deriving DecidableEq, Repr

structure Tree (ν : Type u) (β : Type v) where
  node : List ν → Option (Node β)
  places : List (List ν)
  listed : ∀ place, (node place).isSome = true → place ∈ places

namespace Tree

variable {ν : Type u} {β : Type v} [DecidableEq ν] (t : Tree ν β)

def file (place : List ν) : Option β :=
  match t.node place with
  | some (.file content) => some content
  | _ => none

def isDir (place : List ν) : Bool :=
  match t.node place with
  | some .dir => true
  | _ => false

def isLink (place : List ν) : Bool :=
  match t.node place with
  | some .link => true
  | _ => false

def taken (place : List ν) : Bool := (t.node place).isSome

/-- The places under `root`, each as seen from it; `root` itself is not among them. -/
def walk (root : List ν) : List (List ν) :=
  ((t.places.filter (fun place => t.taken place && root.isPrefixOf place)).map
    (fun place => place.drop root.length)).filter (fun place => !place.isEmpty)

def put (place : List ν) (new : Node β) : Tree ν β where
  node other := if other = place then some new else t.node other
  places := place :: t.places
  listed := by
    intro other stands
    split at stands
    · rename_i same
      exact same ▸ List.mem_cons_self
    · exact List.mem_cons_of_mem _ (t.listed other stands)

/-- The directories on the way to a place, and the one at it. -/
def mkdirs (place : List ν) : Tree ν β where
  node other := if other.isPrefixOf place && !t.taken other then some .dir else t.node other
  places := place.inits ++ t.places
  listed := by
    intro other stands
    split at stands
    · rename_i made
      rw [Bool.and_eq_true, List.isPrefixOf_iff_prefix] at made
      exact List.mem_append_left _ ((List.mem_inits other place).mpr made.1)
    · exact List.mem_append_right _ (t.listed other stands)

/-- A place and all that is under it, taken away. -/
def remove (root : List ν) : Tree ν β where
  node other := if root.isPrefixOf other then none else t.node other
  places := t.places
  listed := by
    intro other stands
    split at stands
    · cases stands
    · exact t.listed other stands

/-- What is at `source` and under it, brought to `target`. -/
def move (source target : List ν) : Tree ν β where
  node other :=
    if target.isPrefixOf other then t.node (source ++ other.drop target.length)
    else if source.isPrefixOf other then none
    else t.node other
  places := (t.places.map (fun place => target ++ place.drop source.length)) ++ t.places
  listed := by
    intro other stands
    split at stands
    · rename_i under
      obtain ⟨rest, rfl⟩ := List.isPrefixOf_iff_prefix.mp under
      rw [List.drop_left] at stands
      refine List.mem_append_left _ (List.mem_map.mpr ⟨_, t.listed _ stands, ?_⟩)
      rw [List.drop_left]
    · split at stands
      · cases stands
      · exact List.mem_append_right _ (t.listed other stands)

def empty : Tree ν β where
  node _ := none
  places := []
  listed _ stands := nomatch stands

variable {t}

omit [DecidableEq ν] in
theorem taken_of_file {place : List ν} {content : β} (h : t.file place = some content) :
    t.taken place = true := by
  unfold file at h
  unfold taken
  cases stands : t.node place with
  | none => rw [stands] at h; cases h
  | some _ => rfl

theorem mem_walk {root rest : List ν} :
    rest ∈ t.walk root ↔ rest ≠ [] ∧ t.taken (root ++ rest) = true := by
  simp only [walk, List.mem_filter, List.mem_map, Bool.and_eq_true, List.isPrefixOf_iff_prefix,
    Bool.not_eq_true', List.isEmpty_eq_false_iff]
  constructor
  · rintro ⟨⟨place, ⟨-, taken, under, rfl⟩, rfl⟩, below⟩
    rw [List.drop_left] at below ⊢
    exact ⟨below, taken⟩
  · rintro ⟨below, taken⟩
    refine ⟨⟨root ++ rest, ⟨t.listed _ taken, taken, List.prefix_append _ _⟩, ?_⟩, below⟩
    rw [List.drop_left]

theorem node_mkdirs (place other : List ν) : (t.mkdirs place).node other = t.node other ∨
      t.node other = none ∧ (t.mkdirs place).node other = some .dir := by
  by_cases made : (other.isPrefixOf place && !t.taken other) = true
  · have absent : t.node other = none := by
      simpa [taken] using (Bool.and_eq_true_iff.mp made).2
    exact Or.inr ⟨absent, if_pos made⟩
  · exact Or.inl (if_neg made)

theorem file_mkdirs (place other : List ν) : (t.mkdirs place).file other = t.file other := by
  rcases t.node_mkdirs place other with same | ⟨absent, made⟩
  · rw [file, file, same]
  · rw [file, file, absent, made]

theorem isLink_mkdirs (place other : List ν) : (t.mkdirs place).isLink other = t.isLink other := by
  rcases t.node_mkdirs place other with same | ⟨absent, made⟩
  · rw [isLink, isLink, same]
  · rw [isLink, isLink, absent, made]

theorem taken_mkdirs_of_not_prefix {place other : List ν} (h : ¬ other <+: place) :
    (t.mkdirs place).taken other = t.taken other := by
  have apart : ¬ (other.isPrefixOf place && !t.taken other) = true := by
    rw [Bool.and_eq_true, List.isPrefixOf_iff_prefix]
    exact fun both => h both.1
  exact congrArg Option.isSome (if_neg apart)

theorem node_move (source target rest : List ν) :
    (t.move source target).node (target ++ rest) = t.node (source ++ rest) := by
  have under : target.isPrefixOf (target ++ rest) = true :=
    List.isPrefixOf_iff_prefix.mpr (List.prefix_append _ _)
  simp only [move]
  rw [if_pos under, List.drop_left]

theorem file_move (source target rest : List ν) :
    (t.move source target).file (target ++ rest) = t.file (source ++ rest) := by
  unfold file
  rw [node_move]

theorem isLink_move (source target rest : List ν) :
    (t.move source target).isLink (target ++ rest) = t.isLink (source ++ rest) := by
  unfold isLink
  rw [node_move]

end Tree

end FileTree
