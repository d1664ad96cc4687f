import Mathlib.Order.Defs.PartialOrder

/-!
# Runs of a partial step function

`step s l = none` says that the call labelled `l` was refused in `s`; the run goes on
from the unchanged state.
-/
namespace Transition

universe u v

variable {σ : Type u} {ℓ : Type v} (step : σ → ℓ → Option σ)

def next (s : σ) (l : ℓ) : σ := (step s l).getD s

def final (s : σ) : List ℓ → σ
  | [] => s
  | l :: ls => final (next step s l) ls

/-- Every state of a run, the first one included. -/
def trace (s : σ) : List ℓ → List σ
  | [] => [s]
  | l :: ls => s :: trace (next step s l) ls

/-- The accepted steps of a run, each with the state it was taken from. -/
def accepted (s : σ) : List ℓ → List (σ × ℓ)
  | [] => []
  | l :: ls =>
    match step s l with
    | none => accepted s ls
    | some s' => (s, l) :: accepted s' ls

/-- Something holds all along a run. -/
def Along {α : Type u} (P : α → Prop) (run : List α) : Prop := ∀ a ∈ run, P a

variable {step}

variable {s : σ} {l : ℓ} {Inv Safe : σ → Prop} {ls : List ℓ} {Clean : σ → ℓ → Prop}
  {Allowed : ℓ → Prop} {Keeps : σ → σ → Prop}

theorem next_of_some {s' : σ} (h : step s l = some s') : next step s l = s' := by
  simp [next, h]

theorem next_of_none (h : step s l = none) : next step s l = s := by
  simp [next, h]

theorem final_append (s : σ) (before after : List ℓ) :
    final step s (before ++ after) = final step (final step s before) after := by
  induction before generalizing s with
  | nil => rfl
  | cons l rest ih => exact ih _

theorem next_invariant (kept : ∀ s l s', Inv s → step s l = some s' → Inv s') (l : ℓ) (h : Inv s) :
    Inv (next step s l) := by
  cases taken : step s l with
  | none => rwa [next_of_none taken]
  | some s' => rw [next_of_some taken]; exact kept s l s' h taken

theorem trace_invariant (kept : ∀ s l s', Inv s → step s l = some s' → Inv s') (start : Inv s)
    (ls : List ℓ) : ∀ t ∈ trace step s ls, Inv t := by
  induction ls generalizing s with
  | nil =>
    intro t member
    rw [List.mem_singleton.mp member]
    exact start
  | cons l ls ih =>
    intro t member
    rcases List.mem_cons.mp member with rfl | later
    · exact start
    · exact ih (next_invariant kept l start) t later

theorem final_invariant (kept : ∀ s l s', Inv s → step s l = some s' → Inv s') (start : Inv s)
    (ls : List ℓ) : Inv (final step s ls) := by
  induction ls generalizing s with
  | nil => exact start
  | cons l ls ih => exact ih (next_invariant kept l start)

theorem mem_trace_start (s : σ) (ls : List ℓ) : s ∈ trace step s ls := by
  cases ls <;> exact List.mem_cons_self

theorem mem_trace_final (s : σ) (ls : List ℓ) : final step s ls ∈ trace step s ls := by
  induction ls generalizing s with
  | nil => exact List.mem_cons_self
  | cons l ls ih => exact List.mem_cons_of_mem _ (ih _)

theorem mem_trace_iff {t : σ} :
    t ∈ trace step s ls ↔ ∃ pre post, ls = pre ++ post ∧ final step s pre = t := by
  induction ls generalizing s with
  | nil =>
    constructor
    · intro member
      exact ⟨[], [], rfl, (List.mem_singleton.mp member).symm⟩
    · rintro ⟨pre, post, split, rfl⟩
      obtain ⟨rfl, rfl⟩ := List.append_eq_nil_iff.mp split.symm
      exact List.mem_cons_self
  | cons l ls ih =>
    constructor
    · intro member
      rcases List.mem_cons.mp member with rfl | later
      · exact ⟨[], l :: ls, rfl, rfl⟩
      · obtain ⟨pre, post, rfl, reached⟩ := ih.mp later
        exact ⟨l :: pre, post, rfl, reached⟩
    · rintro ⟨pre, post, split, rfl⟩
      cases pre with
      | nil => exact List.mem_cons_self
      | cons l' pre =>
        rw [List.cons_append, List.cons.injEq] at split
        obtain ⟨rfl, rfl⟩ := split
        exact List.mem_cons_of_mem _ (ih.mpr ⟨pre, post, rfl, rfl⟩)

theorem accepted_cons_some {s' : σ} (h : step s l = some s') :
    accepted step s (l :: ls) = (s, l) :: accepted step s' ls := by
  simp [accepted, h]

theorem accepted_cons_none (h : step s l = none) :
    accepted step s (l :: ls) = accepted step s ls := by
  simp [accepted, h]

theorem accepted_append (s : σ) (before after : List ℓ) : accepted step s (before ++ after) =
      accepted step s before ++ accepted step (final step s before) after := by
  induction before generalizing s with
  | nil => rfl
  | cons l rest ih =>
    cases taken : step s l with
    | none => simp only [List.cons_append, accepted, final, next, taken, ih, Option.getD_none]
    | some s' => simp only [List.cons_append, accepted, final, next, taken, ih, Option.getD_some]

theorem accepted_forall_cons {Clean : σ × ℓ → Prop} {s s' : σ} {l : ℓ} {ls : List ℓ}
    (h : step s l = some s') (clean : Clean (s, l))
    (rest : ∀ taken ∈ accepted step s' ls, Clean taken) :
    ∀ taken ∈ accepted step s (l :: ls), Clean taken := by
  rw [accepted_cons_some h]
  exact List.forall_mem_cons.mpr ⟨clean, rest⟩

theorem trace_safe_of_clean
    (kept : ∀ s l s', Safe s → Clean s l → step s l = some s' → Safe s') (start : Safe s)
    (clean : ∀ taken ∈ accepted step s ls, Clean taken.1 taken.2) :
    ∀ t ∈ trace step s ls, Safe t := by
  induction ls generalizing s with
  | nil =>
    intro t member
    rw [List.mem_singleton.mp member]
    exact start
  | cons l ls ih =>
    intro t member
    rcases List.mem_cons.mp member with rfl | later
    · exact start
    · cases taken : step s l with
      | none =>
        rw [next_of_none taken] at later
        rw [accepted_cons_none taken] at clean
        exact ih start clean t later
      | some s' =>
        rw [next_of_some taken] at later
        rw [accepted_cons_some taken] at clean
        have here := clean (s, l) List.mem_cons_self
        exact ih (kept s l s' start here taken)
          (fun other member => clean other (List.mem_cons_of_mem _ member)) t later

theorem mem_accepted {taken : σ × ℓ} (h : taken ∈ accepted step s ls) : taken.2 ∈ ls := by
  induction ls generalizing s with
  | nil => cases h
  | cons l ls ih =>
    cases result : step s l with
    | none =>
      rw [accepted_cons_none result] at h
      exact List.mem_cons_of_mem _ (ih h)
    | some s' =>
      rw [accepted_cons_some result] at h
      rcases List.mem_cons.mp h with rfl | later
      · exact List.mem_cons_self
      · exact List.mem_cons_of_mem _ (ih later)

theorem mem_accepted_last {t : σ} (h : step (final step s ls) l = some t) :
    (final step s ls, l) ∈ accepted step s (ls ++ [l]) := by
  induction ls generalizing s with
  | nil =>
    change step s l = some t at h
    simp [accepted_cons_some h, final]
  | cons first ls ih =>
    have later := ih (s := next step s first) h
    cases taken : step s first with
    | none =>
      rw [next_of_none taken] at later
      rw [List.cons_append, accepted_cons_none taken]
      simpa [final, next_of_none taken] using later
    | some s' =>
      rw [next_of_some taken] at later
      rw [List.cons_append, accepted_cons_some taken]
      simpa [final, next_of_some taken] using Or.inr later

theorem accepted_mem_trace {taken : σ × ℓ} (h : taken ∈ accepted step s ls) :
    taken.1 ∈ trace step s ls ∧ ∃ s', step taken.1 taken.2 = some s' := by
  induction ls generalizing s with
  | nil => cases h
  | cons l ls ih =>
    cases result : step s l with
    | none =>
      rw [accepted_cons_none result] at h
      rw [trace, next_of_none result]
      exact ⟨List.mem_cons_of_mem _ (ih h).1, (ih h).2⟩
    | some s' =>
      rw [accepted_cons_some result] at h
      rw [trace, next_of_some result]
      rcases List.mem_cons.mp h with rfl | later
      · exact ⟨List.mem_cons_self, s', result⟩
      · exact ⟨List.mem_cons_of_mem _ (ih later).1, (ih later).2⟩

theorem accepted_of_clean {Good : σ → ℓ → Prop}
    (kept : ∀ s l s', Safe s → Clean s l → step s l = some s' → Safe s')
    (good : ∀ s l s', Safe s → Clean s l → step s l = some s' → Good s l) (start : Safe s)
    (clean : ∀ taken ∈ accepted step s ls, Clean taken.1 taken.2) :
    ∀ taken ∈ accepted step s ls, Good taken.1 taken.2 := by
  intro taken member
  obtain ⟨reached, s', result⟩ := accepted_mem_trace member
  exact good taken.1 taken.2 s' (trace_safe_of_clean kept start clean taken.1 reached)
    (clean taken member) result

theorem final_safe_of_allowed {Safe : σ → Prop} {Allowed : ℓ → Prop}
    (kept : ∀ s l s', Safe s → Allowed l → step s l = some s' → Safe s')
    {s : σ} (start : Safe s) {ls : List ℓ} (allowed : ∀ l ∈ ls, Allowed l) :
    Safe (final step s ls) :=
  trace_safe_of_clean kept start (fun _ member => allowed _ (mem_accepted member)) _
    (mem_trace_final s ls)

/-- Where one accepted step from a safe state stays safe exactly when it is
clean, a run stays safe exactly when all its accepted steps are clean. -/
theorem trace_safe_iff {Inv Safe : σ → Prop} {Allowed : ℓ → Prop} {Clean : σ → ℓ → Prop}
    (kept : ∀ s l s', Inv s → step s l = some s' → Inv s')
    (exact_step : ∀ s l s', Allowed l → Inv s → Safe s → step s l = some s' → (Safe s' ↔ Clean s l))
    {s : σ} (inv : Inv s) (safe : Safe s) {ls : List ℓ} (allowed : ∀ l ∈ ls, Allowed l) :
    (∀ t ∈ trace step s ls, Safe t) ↔ ∀ taken ∈ accepted step s ls, Clean taken.1 taken.2 := by
  induction ls generalizing s with
  | nil =>
    constructor
    · nofun
    · intro _ t member
      rw [List.mem_singleton.mp member]
      exact safe
  | cons l ls ih =>
    have later := fun other member => allowed other (List.mem_cons_of_mem l member)
    cases result : step s l with
    | none =>
      rw [accepted_cons_none result, trace, next_of_none result, ← ih inv safe later]
      simp [safe]
    | some s' =>
      have here := exact_step s l s' (allowed l List.mem_cons_self) inv safe result
      rw [accepted_cons_some result, trace, next_of_some result]
      simp only [List.mem_cons, forall_eq_or_imp, safe, true_and]
      constructor
      · intro along
        have good := along s' (mem_trace_start s' ls)
        exact ⟨here.mp good, (ih (kept s l s' inv result) good later).mp along⟩
      · rintro ⟨clean, rest⟩
        exact (ih (kept s l s' inv result) (here.mpr clean) later).mpr rest

theorem trace_safe_iff_of_clean (safe : ∀ s, Inv s → Safe s)
    (kept : ∀ s l s', Inv s → Clean s l → step s l = some s' → Inv s')
    (shows : ∀ s l s', Inv s → ¬Clean s l → step s l = some s' → ¬Safe s') (inv : Inv s) :
    (∀ t ∈ trace step s ls, Safe t) ↔ ∀ taken ∈ accepted step s ls, Clean taken.1 taken.2 := by
  constructor
  · intro along
    induction ls generalizing s with
    | nil =>
      intro taken member
      cases member
    | cons l ls ih =>
      cases result : step s l with
      | none =>
        rw [accepted_cons_none result]
        rw [trace, next_of_none result] at along
        exact ih inv fun t member => along t (List.mem_cons_of_mem _ member)
      | some s' =>
        rw [accepted_cons_some result]
        rw [trace, next_of_some result] at along
        have later := fun t member => along t (List.mem_cons_of_mem _ member)
        have clean : Clean s l := Classical.byContradiction fun unclean =>
          shows s l s' inv unclean result (later s' (mem_trace_start s' ls))
        intro taken member
        rcases List.mem_cons.mp member with rfl | rest
        · exact clean
        · exact ih (kept s l s' inv clean result) later taken rest
  · intro clean t member
    exact safe t (trace_safe_of_clean kept inv clean t member)

/-- A run along which every state keeps what the states before it had, kept between
states that are safe: exact where it is exact for a step. -/
theorem trace_pairwise_iff
    (refl : ∀ s, Keeps s s) (trans : ∀ s t u, Keeps s t → Keeps t u → Keeps s u)
    (kept : ∀ s l s', Inv s → step s l = some s' → Inv s')
    (exact_step : ∀ s l s', Inv s → Safe s → step s l = some s' →
      (Safe s' ∧ Keeps s s' ↔ Clean s l)) (inv : Inv s) (safe : Safe s) :
    ((∀ t ∈ trace step s ls, Safe t) ∧ (trace step s ls).Pairwise Keeps) ↔
      ∀ taken ∈ accepted step s ls, Clean taken.1 taken.2 := by
  have first : ∀ {s ls}, (trace step s ls).Pairwise Keeps → ∀ t ∈ trace step s ls, Keeps s t := by
    intro s ls along t member
    cases ls with
    | nil =>
      rw [List.mem_singleton.mp member]
      exact refl s
    | cons l ls =>
      rcases List.mem_cons.mp member with rfl | later
      · exact refl t
      · exact (List.pairwise_cons.mp along).1 t later
  induction ls generalizing s with
  | nil =>
    constructor
    · nofun
    · intro _
      refine ⟨?_, List.pairwise_singleton _ _⟩
      intro t member
      rw [List.mem_singleton.mp member]
      exact safe
  | cons l ls ih =>
    rw [trace, List.pairwise_cons]
    simp only [List.mem_cons, forall_eq_or_imp, safe, true_and]
    cases result : step s l with
    | none =>
      have rest := ih inv safe
      rw [accepted_cons_none result, next_of_none result]
      constructor
      · rintro ⟨along, -, pairs⟩
        exact rest.mp ⟨along, pairs⟩
      · intro clean
        obtain ⟨along, pairs⟩ := rest.mpr clean
        exact ⟨along, first pairs, pairs⟩
    | some s' =>
      have here := exact_step s l s' inv safe result
      rw [accepted_cons_some result, next_of_some result]
      simp only [List.mem_cons, forall_eq_or_imp]
      constructor
      · rintro ⟨along, keeps, pairs⟩
        have start : s' ∈ trace step s' ls := mem_trace_start s' ls
        have good := along s' start
        exact ⟨here.mp ⟨good, keeps s' start⟩, (ih (kept s l s' inv result) good).mp ⟨along, pairs⟩⟩
      · rintro ⟨clean, rest⟩
        obtain ⟨good, keeps⟩ := here.mpr clean
        obtain ⟨along, pairs⟩ := (ih (kept s l s' inv result) good).mpr rest
        exact ⟨along, fun t member => trans s s' t keeps (first pairs t member), pairs⟩

theorem trace_pairwise_of_clean
    (refl : ∀ s, Keeps s s) (trans : ∀ s t u, Keeps s t → Keeps t u → Keeps s u)
    (kept : ∀ s l s', Clean s l → step s l = some s' → Keeps s s')
    (clean : ∀ taken ∈ accepted step s ls, Clean taken.1 taken.2) :
    (trace step s ls).Pairwise Keeps := by
  let Keeping := fun s l => ∀ s', step s l = some s' → Keeps s s'
  have exact_step : ∀ s l s', True → True → step s l = some s' →
      (True ∧ Keeps s s' ↔ Keeping s l) := by
    intro s l s' _ _ taken
    simp [Keeping, taken]
  have along : (∀ t ∈ trace step s ls, True) ∧ (trace step s ls).Pairwise Keeps ↔
      ∀ taken ∈ accepted step s ls, Keeping taken.1 taken.2 :=
    trace_pairwise_iff refl trans (fun _ _ _ _ _ => trivial) exact_step trivial trivial
  exact (along.mpr (fun taken member s' => kept _ _ s' (clean taken member))).2

/-- The variant rule: where every accepted step lowers a measure, a run accepts no
more steps than the measure of the state it starts from. -/
theorem accepted_length_le {variant : σ → Nat}
    (lowers : ∀ s l s', Inv s → Allowed l → step s l = some s' → Inv s' ∧ variant s' < variant s)
    (inv : Inv s) (allowed : ∀ l ∈ ls, Allowed l) :
    (accepted step s ls).length ≤ variant s := by
  induction ls generalizing s with
  | nil => exact Nat.zero_le _
  | cons l ls ih =>
    have later := fun other member => allowed other (List.mem_cons_of_mem l member)
    cases taken : step s l with
    | none =>
      rw [accepted_cons_none taken]
      exact ih inv later
    | some s' =>
      obtain ⟨inv', lower⟩ := lowers s l s' inv (allowed l List.mem_cons_self) taken
      rw [accepted_cons_some taken, List.length_cons]
      have rest := ih inv' later
      omega

/-- The progress rule: where no accepted step raises the measure and the busy ones lower it, a run
is down to what the busy steps it accepts leave. -/
theorem variant_accepted_le {variant : σ → Nat} (busy : ℓ → Bool)
    (lowers : ∀ s l s', Inv s → step s l = some s' →
      Inv s' ∧ variant s' ≤ variant s - if busy l then 1 else 0) (inv : Inv s) (ls : List ℓ) :
    variant (final step s ls) ≤
      variant s - (accepted step s ls).countP (fun taken => busy taken.2) := by
  induction ls generalizing s with
  | nil => exact Nat.le_of_eq (Nat.sub_zero _).symm
  | cons l ls ih =>
    cases taken : step s l with
    | none =>
      rw [final, next_of_none taken, accepted_cons_none taken]
      exact ih inv
    | some s' =>
      obtain ⟨inv', lower⟩ := lowers s l s' inv taken
      have rest := ih inv'
      rw [final, next_of_some taken, accepted_cons_some taken, List.countP_cons]
      dsimp only
      omega

/-- The countdown rule: where no step raises the measure and every busy label is
accepted and lowers it, a run is down to what its busy labels leave. -/
theorem variant_final_le {variant : σ → Nat} (busy : ℓ → Bool)
    (kept : ∀ s l s', Inv s → Allowed l → step s l = some s' → Inv s' ∧ variant s' ≤ variant s)
    (lowers : ∀ s l, Inv s → Allowed l → busy l = true →
      ∃ s', step s l = some s' ∧ variant s' ≤ variant s - 1) (inv : Inv s) (allowed : ∀ l ∈ ls, Allowed l) :
    variant (final step s ls) ≤ variant s - ls.countP busy := by
  induction ls generalizing s with
  | nil => exact Nat.le_of_eq (Nat.sub_zero _).symm
  | cons l ls ih =>
    have here := allowed l List.mem_cons_self
    have later := fun other member => allowed other (List.mem_cons_of_mem l member)
    rw [final, List.countP_cons]
    by_cases counts : busy l = true
    · obtain ⟨s', taken, lower⟩ := lowers s l inv here counts
      have rest := ih (kept s l s' inv here taken).1 later
      rw [next_of_some taken, if_pos counts]
      omega
    · rw [if_neg counts]
      cases taken : step s l with
      | none =>
        rw [next_of_none taken]
        exact ih inv later
      | some s' =>
        obtain ⟨inv', bound⟩ := kept s l s' inv here taken
        have rest := ih inv' later
        rw [next_of_some taken]
        omega

section Stamped

universe w

variable {τ : Type w} [Preorder τ] (stamp : ℓ → τ)

/-- The clock rule: along labels whose stamps do not go back, a state has what every clean
step keeps at the stamp of its label. -/
theorem trace_along {Inv : σ → τ → Prop} {Clean : σ → ℓ → Prop}
    (later : ∀ s c c', Inv s c → c ≤ c' → Inv s c')
    (kept : ∀ s l s', Inv s (stamp l) → Clean s l → step s l = some s' → Inv s' (stamp l))
    {s : σ} {c : τ} (start : Inv s c) {ls : List ℓ} (bound : ∀ l ∈ ls, c ≤ stamp l)
    (ordered : (ls.map stamp).Pairwise (· ≤ ·))
    (clean : ∀ taken ∈ accepted step s ls, Clean taken.1 taken.2) :
    ∀ t ∈ trace step s ls, ∃ c', Inv t c' := by
  induction ls generalizing s c with
  | nil =>
    intro t member
    rw [List.mem_singleton.mp member]
    exact ⟨c, start⟩
  | cons l ls ih =>
    rw [List.map_cons, List.pairwise_cons] at ordered
    have ahead : ∀ l' ∈ ls, stamp l ≤ stamp l' := fun l' listed =>
      ordered.1 _ (List.mem_map_of_mem listed)
    have here := later s c (stamp l) start (bound l List.mem_cons_self)
    intro t member
    rcases List.mem_cons.mp member with rfl | rest
    · exact ⟨c, start⟩
    · cases taken : step s l with
      | none =>
        rw [next_of_none taken] at rest
        rw [accepted_cons_none taken] at clean
        exact ih here ahead ordered.2 clean t rest
      | some s' =>
        rw [next_of_some taken] at rest
        rw [accepted_cons_some taken] at clean
        have next := kept s l s' here (clean (s, l) List.mem_cons_self) taken
        exact ih next ahead ordered.2 (fun other listed =>
          clean other (List.mem_cons_of_mem _ listed)) t rest

end Stamped

section Recording

universe w

variable {ρ : Type w} (step) (note : σ → ℓ → σ → ρ → ρ)

def recording (s : σ × ρ) (l : ℓ) : Option (σ × ρ) :=
  (step s.1 l).map (fun s' => (s', note s.1 l s' s.2))

variable {step note}

theorem recording_eq_some_iff {s s' : σ × ρ} {l : ℓ} : recording step note s l = some s' ↔
      step s.1 l = some s'.1 ∧ s'.2 = note s.1 l s'.1 s.2 := by
  unfold recording
  rw [Option.map_eq_some_iff]
  constructor
  · rintro ⟨t, taken, rfl⟩
    exact ⟨taken, rfl⟩
  · rintro ⟨taken, noted⟩
    exact ⟨s'.1, taken, Prod.ext rfl noted.symm⟩

end Recording

end Transition
