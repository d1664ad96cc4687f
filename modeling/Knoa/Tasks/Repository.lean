import Mathlib.Data.List.DropRight
import Knoa.Tasks.Schema

/-!
# Shared reads of the repository mixins

Text normalisation and the ownership checks of `tasks/repository.py`.
-/
namespace Knoa.Tasks
open Transaction

/-- `str.isspace` on one character. -/
def isSpace (c : Char) : Bool :=
  let n := c.toNat
  (9 ≤ n && n ≤ 13) || (28 ≤ n && n ≤ 32) || n == 0x85 || n == 0xA0 || n == 0x1680 ||
    (0x2000 ≤ n && n ≤ 0x200A) || n == 0x2028 || n == 0x2029 || n == 0x202F || n == 0x205F ||
    n == 0x3000

/-- `str.strip()`. -/
def strip (text : String) : String :=
  String.ofList ((text.toList.dropWhile isSpace).reverse.dropWhile isSpace).reverse

theorem strip_strip (text : String) : strip (strip text) = strip text := by
  have trimmed : ∀ l : List Char, ((l.dropWhile isSpace).rdropWhile isSpace).dropWhile isSpace =
      (l.dropWhile isSpace).rdropWhile isSpace := by
    intro l
    rw [List.dropWhile_eq_self_iff]
    intro some_char
    have prefixed := List.rdropWhile_prefix isSpace (l.dropWhile isSpace)
    rw [List.IsPrefix.getElem prefixed some_char]
    exact List.dropWhile_get_zero_not isSpace l _
  change String.ofList ((((strip text).toList.dropWhile isSpace)).rdropWhile isSpace) = strip text
  have chars : (strip text).toList = (text.toList.dropWhile isSpace).rdropWhile isSpace :=
    String.toList_ofList
  rw [chars, trimmed, List.rdropWhile_idempotent]
  rfl

/-- `text[:n]`. -/
def takeChars (text : String) (n : Nat) : String := String.ofList (text.toList.take n)

/-- The check that the repositories share, each with an error of its own. -/
def stripped {ε : Type} (error : String → ε) (value label : String) (limit : Nat) :
    Except ε String :=
  if strip value = "" ∨ limit < (strip value).length then
    .error (error s!"{label} must contain 1-{limit} characters")
  else .ok (strip value)

theorem stripped_ok_iff {ε : Type} {error : String → ε} {value label : String} {limit : Nat}
    {text : String} :
    stripped error value label limit = .ok text ↔
      text = strip value ∧ strip value ≠ "" ∧ (strip value).length ≤ limit := by
  rw [stripped, guarded_ok_iff, not_or, Nat.not_lt]

theorem stripped_error {ε : Type} {error : String → ε} {value label : String} {limit : Nat} {e : ε}
    (h : stripped error value label limit = .error e) : ∃ message, e = error message := by
  unfold stripped at h
  split at h <;> cases h
  exact ⟨_, rfl⟩

/-- A text its own normalisation leaves as it is. -/
def IsIdentifier (text : String) (limit : Nat) : Prop :=
  strip text = text ∧ text ≠ "" ∧ text.length ≤ limit

instance (text : String) (limit : Nat) : Decidable (IsIdentifier text limit) := by
  unfold IsIdentifier
  infer_instance

theorem IsIdentifier.stripped {ε : Type} {error : String → ε} {text : String} {limit : Nat}
    (h : IsIdentifier text limit) (label : String) :
    stripped error text label limit = .ok text := by
  rw [stripped_ok_iff, h.1]
  exact ⟨rfl, h.2⟩

def normalizeIdentifier (value label : String) (limit : Nat) : Except TaskError String :=
  stripped .value value label limit

theorem normalizeIdentifier_ok_iff {value label : String} {limit : Nat} {text : String} :
    normalizeIdentifier value label limit = .ok text ↔
      text = strip value ∧ strip value ≠ "" ∧ (strip value).length ≤ limit :=
  stripped_ok_iff

theorem normalizeIdentifier_ok {value label : String} {limit : Nat} {text : String}
    (h : normalizeIdentifier value label limit = .ok text) : text = strip value :=
  (normalizeIdentifier_ok_iff.mp h).1

def ownedSession (s : Store) (scope : RuntimeScope) : Except TaskError SessionRow :=
  orRaise ((s.sessions.lookup scope.sessionHandle).filter
    (fun row => row.principalId == scope.principalId)) (.notFound "Session not found")

def ownedTask (s : Store) (principalId taskId : String) : Except TaskError TaskRow :=
  orRaise ((s.tasks.lookup taskId).filter (fun row => row.principalId == principalId))
    (.notFound "Task not found")

def ownedApproval (s : Store) (principalId approvalId : String) : Except TaskError ApprovalRow :=
  orRaise ((s.approvals.lookup approvalId).filter (fun row => row.principalId == principalId))
    (.notFound "Approval not found")

variable {s : Store}

theorem ownedSession_ok_iff {scope : RuntimeScope} {row : SessionRow} :
    ownedSession s scope = .ok row ↔
      s.sessions.lookup scope.sessionHandle = some row ∧ row.principalId = scope.principalId := by
  rw [ownedSession, orRaise_ok_iff, Option.filter_eq_some_iff]
  simp

theorem ownedTask_ok_iff {principalId taskId : String} {row : TaskRow} :
    ownedTask s principalId taskId = .ok row ↔
      s.tasks.lookup taskId = some row ∧ row.principalId = principalId := by
  rw [ownedTask, orRaise_ok_iff, Option.filter_eq_some_iff]
  simp

theorem ownedApproval_ok_iff {principalId approvalId : String} {row : ApprovalRow} :
    ownedApproval s principalId approvalId = .ok row ↔
      s.approvals.lookup approvalId = some row ∧ row.principalId = principalId := by
  rw [ownedApproval, orRaise_ok_iff, Option.filter_eq_some_iff]
  simp

end Knoa.Tasks
