import Mathlib.Data.List.Induction

/-!
# Runs of text

Entries of which some carry a text of a kind and the others separate runs of them. Entries of one
run may be merged.
-/
namespace TextRuns

universe u v

variable {α : Type u} {κ : Type v} [DecidableEq κ] (text : α → Option (κ × String)) (k : κ)

/-- The texts of a kind: the runs that are over, each with the entry that ended it, and the last. -/
@[ext] structure Outline (α : Type u) where
  closed : List (String × α) := []
  current : String := ""

/-- What an entry says of a kind. -/
def piece (e : α) : String :=
  match text e with
  | some (k', s) => if k' = k then s else ""
  | none => ""

def said : List α → String
  | [] => ""
  | e :: es => piece text k e ++ said es

def note (o : Outline α) (e : α) : Outline α :=
  if (text e).isSome then { o with current := o.current ++ piece text k e }
  else { closed := o.closed ++ [(o.current, e)] }

def outline (es : List α) : Outline α := es.foldl (note text k) {}

variable {text k} {e : α} {es fs run : List α} {o : Outline α}

theorem outline_append : outline text k (es ++ fs) = fs.foldl (note text k) (outline text k es) := by
  simp [outline]

theorem outline_snoc : outline text k (es ++ [e]) = note text k (outline text k es) e := by
  simp [outline]

theorem said_append : said text k (es ++ fs) = said text k es ++ said text k fs := by
  induction es with
  | nil => simp [said]
  | cons e es ih => simp [said, ih, String.append_assoc]

theorem foldl_run (all : ∀ e ∈ run, (text e).isSome = true) :
    run.foldl (note text k) o = { o with current := o.current ++ said text k run } := by
  induction run generalizing o with
  | nil => simp [said]
  | cons e run ih =>
    rw [List.foldl_cons, ih fun e member => all e (List.mem_cons_of_mem _ member), note,
      if_pos (all e List.mem_cons_self)]
    simp [said, String.append_assoc]

theorem said_outline : said text k es =
    (outline text k es).closed.foldr (·.1 ++ ·) (outline text k es).current := by
  have snoc (closed : List (String × α)) (r s : String) :
      closed.foldr (·.1 ++ ·) (r ++ s) = closed.foldr (·.1 ++ ·) r ++ s := by
    induction closed with
    | nil => rfl
    | cons first closed ih => simp [ih, String.append_assoc]
  induction es using List.reverseRecOn with
  | nil => rfl
  | append_singleton es e ih =>
    rw [outline_snoc, said_append, ih, note]
    split
    · simp [said, snoc]
    · rename_i other
      have silent : piece text k e = "" := by
        simp only [Option.not_isSome_iff_eq_none] at other
        simp [piece, other]
      simp [said, silent, ← snoc]

theorem others_outline : es.filter
    (fun e => (text e).isNone) = (outline text k es).closed.map Prod.snd := by
  induction es using List.reverseRecOn with
  | nil => rfl
  | append_singleton es e ih =>
    rw [outline_snoc, List.filter_append, ih, note]
    cases known : text e <;> simp [known]

end TextRuns
