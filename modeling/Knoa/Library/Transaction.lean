
/-!
# Transactions with rollback

A body reads the store and either raises or returns a value with the store it wrote.
`commit` discards the writes of one that raises.
-/
namespace Transaction

universe u v w

abbrev Body (σ : Type u) (ε : Type v) (α : Type u) := σ → Except ε (α × σ)

variable {σ : Type u} {ε : Type v} {α β : Type u}

def commit (body : Body σ ε α) (s : σ) : Except ε α × σ :=
  match body s with
  | .ok (a, s') => (.ok a, s')
  | .error e => (.error e, s)

variable {s : σ} {e : ε}

theorem commit_error {body : Body σ ε α} (h : (commit body s).1 = .error e) :
    (commit body s).2 = s := by
  unfold commit at h ⊢
  split at h
  · cases h
  · rfl

variable {a : α}

theorem commit_ok_iff {body : Body σ ε α} {s' : σ} :
    commit body s = (.ok a, s') ↔ body s = .ok (a, s') := by
  unfold commit
  constructor
  · intro h
    split at h <;> cases h
    rename_i equation
    exact equation
  · intro h
    rw [h]

/-- Attempts run one after another, each in its own transaction, until one
returns or raises an error that is not retried. -/
def retrying (again : ε → Bool) (exhausted : ε) : List (Body σ ε α) → σ → Except ε α × σ
  | [], s => (.error exhausted, s)
  | body :: rest, s =>
    match commit body s with
    | (.ok a, s') => (.ok a, s')
    | (.error e, s') => if again e then retrying again exhausted rest s' else (.error e, s')

theorem retrying_error {again : ε → Bool} {exhausted : ε} {bodies : List (Body σ ε α)}
    (h : (retrying again exhausted bodies s).1 = .error e) :
    (retrying again exhausted bodies s).2 = s := by
  induction bodies with
  | nil => rfl
  | cons body rest ih =>
    unfold retrying at h ⊢
    cases ran : commit body s with
    | mk result s' =>
      cases result with
      | ok a => simp [ran] at h
      | error e' =>
        have same : s' = s := by
          have raised : (commit body s).1 = .error e' := by rw [ran]
          have kept := commit_error raised
          rwa [ran] at kept
        subst same
        simp only [ran] at h ⊢
        split
        · rename_i retry
          rw [if_pos retry] at h
          exact ih h
        · rfl

theorem retrying_ok {again : ε → Bool} {exhausted : ε} {bodies : List (Body σ ε α)} {s' : σ}
    (h : retrying again exhausted bodies s = (.ok a, s')) :
    ∃ body ∈ bodies, body s = .ok (a, s') := by
  induction bodies with
  | nil => cases h
  | cons body rest ih =>
    unfold retrying at h
    cases ran : commit body s with
    | mk result t =>
      cases result with
      | ok b =>
        simp only [ran] at h
        cases h
        exact ⟨body, List.mem_cons_self, commit_ok_iff.mp ran⟩
      | error e =>
        have same : t = s := by
          have raised : (commit body s).1 = .error e := by rw [ran]
          have kept := commit_error raised
          rwa [ran] at kept
        subst same
        simp only [ran] at h
        split at h
        · obtain ⟨found, member, returned⟩ := ih h
          exact ⟨found, List.mem_cons_of_mem _ member, returned⟩
        · cases h

/-- A precondition that raises `e` when it does not hold. -/
def require (c : Prop) [Decidable c] (e : ε) : Except ε PUnit.{u + 1} :=
  if c then .ok ⟨⟩ else .error e

variable {c : Prop}

@[simp] theorem require_ok_iff [Decidable c] {x : PUnit.{u + 1}} : require c e = .ok x ↔ c := by
  unfold require
  split
  · rename_i holds
    exact ⟨fun _ => holds, fun _ => rfl⟩
  · rename_i fails
    exact ⟨(nomatch ·), fun h => absurd h fails⟩

/-- The value of an optional read, or the error of its absence. -/
def orRaise (o : Option α) (e : ε) : Except ε α :=
  match o with
  | some a => .ok a
  | none => .error e

@[simp] theorem orRaise_ok_iff {o : Option α} : orRaise o e = .ok a ↔ o = some a := by
  cases o with
  | none => exact ⟨(nomatch ·), (nomatch ·)⟩
  | some b => simp [orRaise]

variable {f : α → Except ε β}

@[simp] theorem ok_bind : (Except.ok a >>= f) = f a := rfl

theorem require_of [Decidable c] (h : c) : require c e = .ok PUnit.unit.{u + 1} := if_pos h

theorem require_of_not [Decidable c] (h : ¬ c) :
    (require c e : Except ε PUnit.{u + 1}) = .error e := if_neg h

theorem guarded_ok_iff [Decidable c] {a b : α} :
    (if c then .error e else .ok a : Except ε α) = .ok b ↔ b = a ∧ ¬c := by
  split
  · simp [*]
  · simp [*, eq_comm]

theorem bind_ok_iff {x : Except ε α} {b : β} :
    (x >>= f) = .ok b ↔ ∃ a, x = .ok a ∧ f a = .ok b := by
  cases x with
  | error e =>
    constructor
    · nofun
    · rintro ⟨a, h, -⟩
      cases h
  | ok a =>
    constructor
    · intro h
      exact ⟨a, rfl, h⟩
    · rintro ⟨c, h, k⟩
      cases h
      exact k

theorem of_bind {x : Except ε α} {b : β} (h : (x >>= f) = .ok b) : ∃ a, x = .ok a ∧ f a = .ok b :=
  bind_ok_iff.mp h

section
variable {γ δ κ : Type u} {x : Except ε α} {y : α → Except ε β} {z : α → β → Except ε γ}

theorem of_bind₂ {k : α → β → Except ε γ} {r : γ} (h : (x >>= fun a => y a >>= k a) = .ok r) :
    ∃ a, x = .ok a ∧ ∃ b, y a = .ok b ∧ k a b = .ok r := by
  obtain ⟨a, first, h⟩ := of_bind h
  exact ⟨a, first, of_bind h⟩

theorem of_bind₃ {k : α → β → γ → Except ε δ} {r : δ}
    (h : (x >>= fun a => y a >>= fun b => z a b >>= k a b) = .ok r) :
    ∃ a, x = .ok a ∧ ∃ b, y a = .ok b ∧ ∃ c, z a b = .ok c ∧ k a b c = .ok r := by
  obtain ⟨a, first, h⟩ := of_bind h
  exact ⟨a, first, of_bind₂ h⟩

theorem of_bind₄ {w : α → β → γ → Except ε δ} {k : α → β → γ → δ → Except ε κ} {r : κ}
    (h : (x >>= fun a => y a >>= fun b => z a b >>= fun c => w a b c >>= k a b c) = .ok r) :
    ∃ a, x = .ok a ∧ ∃ b, y a = .ok b ∧ ∃ c, z a b = .ok c ∧ ∃ d, w a b c = .ok d ∧
      k a b c d = .ok r := by
  obtain ⟨a, first, h⟩ := of_bind h
  exact ⟨a, first, of_bind₃ h⟩

end

theorem mapM_ok {xs : List α} {ys : List β} (h : xs.mapM f = .ok ys) :
    ∀ x ∈ xs, ∃ y ∈ ys, f x = .ok y := by
  induction xs generalizing ys with
  | nil =>
    intro x member
    cases member
  | cons first rest ih =>
    rw [List.mapM_cons] at h
    obtain ⟨y, read, h⟩ := of_bind h
    obtain ⟨others, later, h⟩ := of_bind h
    cases h
    intro x member
    rcases List.mem_cons.mp member with rfl | listed
    · exact ⟨y, List.mem_cons_self, read⟩
    · obtain ⟨y', present, read'⟩ := ih later x listed
      exact ⟨y', List.mem_cons_of_mem _ present, read'⟩

end Transaction
