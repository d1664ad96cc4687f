
/-!
# Loops that an exception ends

`untilStop f` runs `f` over a list and keeps the state that it has reached when a call raises.
-/
namespace Loops

universe u v w

variable {α : Type u} {σ : Type v} {ε : Type w} {f : α → σ → Option ε × σ}

def untilStop (f : α → σ → Option ε × σ) : List α → σ → Option ε × σ
  | [], s => (none, s)
  | a :: rest, s =>
    match f a s with
    | (some stop, s') => (some stop, s')
    | (none, s') => untilStop f rest s'

variable {l : List α}

theorem untilStop_rule {P : σ → Prop} (kept : ∀ a ∈ l, ∀ s, P s → P (f a s).2) {s : σ}
    (start : P s) :
    P (untilStop f l s).2 := by
  induction l generalizing s with
  | nil => exact start
  | cons a rest ih =>
    have here := kept a List.mem_cons_self s start
    have later := fun b member => kept b (List.mem_cons_of_mem a member)
    unfold untilStop
    split
    · rename_i stop s' ran
      rw [ran] at here
      exact here
    · rename_i s' ran
      rw [ran] at here
      exact ih later here

/-- The prefix rule: a loop has gone through the whole list, or it stopped at an element and has
gone through those before it. -/
theorem untilStop_prefix {P : List α → σ → Prop}
    (kept : ∀ done a s s', P done s → f a s = (none, s') → P (done ++ [a]) s') (before : List α)
    {s : σ} (start : P before s) :
    ((untilStop f l s).1 = none ∧ P (before ++ l) (untilStop f l s).2) ∨
      ∃ done a rest t stop, l = done ++ a :: rest ∧ P (before ++ done) t ∧
        f a t = (some stop, (untilStop f l s).2) ∧ (untilStop f l s).1 = some stop := by
  induction l generalizing before s with
  | nil =>
    left
    rw [List.append_nil]
    exact ⟨rfl, start⟩
  | cons a rest ih =>
    cases ran : f a s with
    | mk raised s' =>
      cases raised with
      | some stop =>
        right
        refine ⟨[], a, rest, s, stop, rfl, ?_, ?_, ?_⟩
        · rw [List.append_nil]
          exact start
        · simp only [untilStop, ran]
        · simp only [untilStop, ran]
      | none =>
        have next := kept before a s s' start ran
        have same : untilStop f (a :: rest) s = untilStop f rest s' := by
          simp only [untilStop, ran]
        rw [same]
        rcases ih (before ++ [a]) next with ⟨through, all⟩ | stopped
        · left
          rw [List.append_assoc] at all
          exact ⟨through, all⟩
        · right
          obtain ⟨done, b, later, t, stop, split, reached, raises, stops⟩ := stopped
          rw [List.append_assoc] at reached
          exact ⟨a :: done, b, later, t, stop, by rw [split, List.cons_append], reached,
            raises, stops⟩

section
variable {g : σ → α → σ}

theorem foldl_relates {R : σ → σ → Prop} (refl : ∀ s, R s s)
    (trans : ∀ {s t u}, R s t → R t u → R s u) (pass : ∀ s, ∀ a ∈ l, R s (g s a)) (s : σ) :
    R s (l.foldl g s) := by
  induction l generalizing s with
  | nil => exact refl s
  | cons a rest ih =>
    have here := pass s a List.mem_cons_self
    exact trans here (ih (fun s b member => pass s b (List.mem_cons_of_mem a member)) (g s a))

theorem foldl_each {P : α → σ → Prop} (made : ∀ s a, P a (g s a))
    (left : ∀ s a b, P a s → P a (g s b)) (l : List α) (s : σ) : ∀ a ∈ l, P a (l.foldl g s) := by
  induction l generalizing s with
  | nil =>
    intro a member
    cases member
  | cons b rest ih =>
    intro a member
    rcases List.mem_cons.mp member with rfl | later
    · have kept : ∀ (rest : List α) (t : σ), P a t → P a (rest.foldl g t) := by
        intro rest
        induction rest with
        | nil => exact fun t done => done
        | cons c rest ih => exact fun t done => ih (g t c) (left t a c done)
      exact kept rest (g s a) (made s a)
    · exact ih (g s b) a later

end

end Loops
