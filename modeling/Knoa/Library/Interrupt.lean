
/-!
# Programs that fail and are killed

A tape says what becomes of each operation of a program: it is carried out, it fails and changes
nothing, or the program is killed there. `Wp` is what holds of the end whatever is on the tape.
-/
namespace Interrupt

universe u v w

inductive Fault
  | fine
  | fails
  | killed
  deriving DecidableEq, Repr

inductive Outcome (ε : Type v) (α : Type w)
  | returned (a : α)
  | raised (e : ε)
  | killed
  deriving DecidableEq, Repr

/-- What is left of a tape that is used up is fine. -/
def drawn : List Fault → Fault
  | [] => .fine
  | fault :: _ => fault

def Prog (σ : Type u) (ε : Type v) (α : Type w) := σ → List Fault → Outcome ε α × σ × List Fault

variable {σ : Type u} {ε : Type v} {α β : Type w}

namespace Prog

def next (p : Prog σ ε α) (f : α → Prog σ ε β) : Prog σ ε β := fun s tape =>
  match p s tape with
  | (.returned a, s', rest) => f a s' rest
  | (.raised e, s', rest) => (.raised e, s', rest)
  | (.killed, s', rest) => (.killed, s', rest)

instance : Monad (Prog σ ε) where
  pure a := fun s tape => (.returned a, s, tape)
  bind := next

def raise (e : ε) : Prog σ ε α := fun s tape => (.raised e, s, tape)

def run (p : Prog σ ε α) (s : σ) (tape : List Fault) : Outcome ε α × σ :=
  ((p s tape).1, (p s tape).2.1)

def act (io : ε) (f : σ → Except ε (α × σ)) : Prog σ ε α := fun s tape =>
  match drawn tape with
  | .fine =>
    match f s with
    | .ok (a, s') => (.returned a, s', tape.tail)
    | .error e => (.raised e, s, tape.tail)
  | .fails => (.raised io, s, tape.tail)
  | .killed => (.killed, s, tape.tail)

/-- An operation that does not fail. -/
def sure (f : σ → α × σ) : Prog σ ε α := fun s tape =>
  match drawn tape with
  | .killed => (.killed, s, tape.tail)
  | _ => (.returned (f s).1, (f s).2, tape.tail)

/-- `p`, and where it raises, `clean` before the error goes on. -/
def cleaning (p : Prog σ ε α) (clean : Prog σ ε β) : Prog σ ε α := fun s tape =>
  match p s tape with
  | (.raised e, s', rest) =>
    match clean s' rest with
    | (.killed, s'', rest') => (.killed, s'', rest')
    | (_, s'', rest') => (.raised e, s'', rest')
  | ended => ended

/-- `p` for each member of a list. -/
def each {γ : Type w} (p : γ → Prog σ ε PUnit.{w + 1}) : List γ → Prog σ ε PUnit.{w + 1}
  | [] => pure ⟨⟩
  | x :: xs => p x >>= fun _ => each p xs

end Prog

open Prog

/-- Whatever is on the tape, `p` ends in `Q`. -/
def Wp (p : Prog σ ε α) (Q : Outcome ε α → σ → Prop) (s : σ) : Prop :=
  ∀ tape, Q (p.run s tape).1 (p.run s tape).2

/-- What is left to show of the program that goes on from `o`. -/
def after (f : α → Prog σ ε β) (Q : Outcome ε β → σ → Prop) (o : Outcome ε α) (s : σ) : Prop :=
  match o with
  | .returned a => Wp (f a) Q s
  | .raised e => Q (.raised e) s
  | .killed => Q .killed s

variable {Q R : Outcome ε α → σ → Prop} {s : σ}

variable {p : Prog σ ε α}

theorem wp_mono (h : Wp p Q s) (weaker : ∀ o t, Q o t → R o t) : Wp p R s :=
  fun tape => weaker _ _ (h tape)

theorem wp_pure {a : α} (h : Q (.returned a) s) : Wp (pure a) Q s := fun _ => h

theorem wp_raise {e : ε} (h : Q (.raised e) s) : Wp (raise e) Q s := fun _ => h

theorem wp_bind {p : Prog σ ε β} {f : β → Prog σ ε α} (h : Wp p (after f Q) s) :
    Wp (p >>= f) Q s := by
  intro tape
  have here := h tape
  change Q ((next p f).run s tape).1 ((next p f).run s tape).2
  unfold Prog.run at here ⊢
  unfold next
  cases ended : p s tape with
  | mk o rest =>
    obtain ⟨t, left⟩ := rest
    simp only [ended] at here ⊢
    cases o with
    | returned a => exact here left
    | raised e | killed => exact here

theorem wp_act {io : ε} {f : σ → Except ε (α × σ)}
    (done : ∀ a t, f s = .ok (a, t) → Q (.returned a) t)
    (raised : ∀ e, f s = .error e → Q (.raised e) s) (fails : Q (.raised io) s)
    (killed : Q .killed s) : Wp (act io f) Q s := by
  intro tape
  unfold Prog.run act
  cases drawn tape with
  | fine =>
    cases result : f s with
    | ok pair => exact done pair.1 pair.2 result
    | error e => exact raised e result
  | fails => exact fails
  | killed => exact killed

theorem wp_sure {f : σ → α × σ} (done : Q (.returned (f s).1) (f s).2) (killed : Q .killed s) :
    Wp (sure f) Q s := by
  intro tape
  unfold Prog.run sure
  cases drawn tape with
  | fine | fails => exact done
  | killed => exact killed

theorem wp_cleaning {clean : Prog σ ε β}
    (h : Wp p (fun o t => match o with
      | .raised e => Wp clean (fun o u => match o with
          | .killed => Q .killed u
          | _ => Q (.raised e) u) t
      | o => Q o t) s) :
    Wp (cleaning p clean) Q s := by
  intro tape
  have here := h tape
  unfold Prog.run at here
  unfold Prog.run cleaning
  cases ended : p s tape with
  | mk o rest =>
    obtain ⟨t, left⟩ := rest
    simp only [ended] at here ⊢
    cases o with
    | returned a | killed => exact here
    | raised e =>
      have cleaned := here left
      unfold Prog.run at cleaned
      cases isOver : clean t left with
      | mk o' rest' =>
        obtain ⟨u, left'⟩ := rest'
        simp only [isOver] at cleaned ⊢
        cases o' <;> exact cleaned

/-- Whatever becomes of the program, its end stands in `r` to its start. -/
def Keeps (r : σ → σ → Prop) (p : Prog σ ε α) : Prop := ∀ s, Wp p (fun _ t => r s t) s

section Keeps

variable {r : σ → σ → Prop}

theorem keeps_raise (refl : ∀ s, r s s) (e : ε) : Keeps r (raise e : Prog σ ε α) :=
  fun s => wp_raise (refl s)

theorem keeps_act (refl : ∀ s, r s s) {io : ε} {f : σ → Except ε (α × σ)}
    (done : ∀ s a t, f s = .ok (a, t) → r s t) : Keeps r (act io f) :=
  fun s => wp_act (done s) (fun _ _ => refl s) (refl s) (refl s)

theorem keeps_bind (trans : ∀ s t u, r s t → r t u → r s u) {p : Prog σ ε β}
    {f : β → Prog σ ε α} (first : Keeps r p) (second : ∀ b, Keeps r (f b)) : Keeps r (p >>= f) := by
  intro s
  apply wp_bind
  refine wp_mono (first s) ?_
  intro o t here
  cases o with
  | returned b => exact wp_mono (second b t) (fun _ u later => trans s t u here later)
  | raised e | killed => exact here

theorem keeps_cleaning (trans : ∀ s t u, r s t → r t u → r s u) {clean : Prog σ ε β}
    (first : Keeps r p) (second : Keeps r clean) : Keeps r (cleaning p clean) := by
  intro s
  apply wp_cleaning
  refine wp_mono (first s) ?_
  intro o t here
  cases o with
  | returned b | killed => exact here
  | raised e =>
    refine wp_mono (second t) ?_
    intro o u later
    cases o <;> exact trans s t u here later

theorem keeps_each (refl : ∀ s, r s s) (trans : ∀ s t u, r s t → r t u → r s u) {γ : Type w}
    {p : γ → Prog σ ε PUnit.{w + 1}} (one : ∀ x, Keeps r (p x)) (xs : List γ) :
    Keeps r (each p xs) := by
  induction xs with
  | nil => exact fun s => wp_pure (refl s)
  | cons x xs ih => exact keeps_bind trans (one x) (fun _ => ih)

end Keeps

end Interrupt
