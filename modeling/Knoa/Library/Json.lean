import Mathlib.Data.List.Sort
import Mathlib.Data.List.Nodup
import Mathlib.Order.Basic
import Mathlib.Data.String.Basic

/-!
# JSON values and their text

A document, the order of its keys and the writers that put it into text. A double stands under
a text that denotes it.
-/

inductive Json
  | null
  | bool (b : Bool)
  | int (n : Int)
  | float (text : List Char)
  | str (s : String)
  | arr (items : List Json)
  | obj (fields : List (String × Json))

namespace Json

mutual
/-- No object of the document has one key twice. -/
def Keyed : Json → Prop
  | arr items => KeyedItems items
  | obj fields => (fields.map Prod.fst).Nodup ∧ KeyedFields fields
  | _ => True
def KeyedItems : List Json → Prop
  | [] => True
  | item :: items => Keyed item ∧ KeyedItems items
def KeyedFields : List (String × Json) → Prop
  | [] => True
  | (_, value) :: fields => Keyed value ∧ KeyedFields fields
end

theorem keyedFields_iff {fields : List (String × Json)} :
    KeyedFields fields ↔ ∀ field ∈ fields, Keyed field.2 := by
  induction fields with
  | nil => simp [KeyedFields]
  | cons field fields ih => simp [KeyedFields, ih]

def keyLe (a b : String × Json) : Prop := a.1 ≤ b.1

instance (a b : String × Json) : Decidable (keyLe a b) := inferInstanceAs (Decidable (a.1 ≤ b.1))

instance : Std.Total keyLe := ⟨fun a b => le_total a.1 b.1⟩

instance : IsTrans (String × Json) keyLe := ⟨fun _ _ _ => le_trans⟩

mutual
/-- Every object with its keys in the order of their code points. -/
def sorted : Json → Json
  | arr items => arr (sortedItems items)
  | obj fields => obj ((sortedFields fields).insertionSort keyLe)
  | other => other
def sortedItems : List Json → List Json
  | [] => []
  | item :: items => sorted item :: sortedItems items
def sortedFields : List (String × Json) → List (String × Json)
  | [] => []
  | (key, value) :: fields => (key, sorted value) :: sortedFields fields
end

/-- How a writer spells a string and where it puts blanks. -/
structure Layout where
  quote : String → List Char
  newline : Nat → List Char := fun _ => []
  gap : List Char := []

def intText : Int → List Char
  | .ofNat n => Nat.toDigits 10 n
  | .negSucc n => '-' :: Nat.toDigits 10 (n + 1)

section Render
variable (layout : Layout)

mutual
/-- The text of a value that stands `depth` levels deep. -/
def render (depth : Nat) : Json → List Char
  | null => "null".toList
  | bool true => "true".toList
  | bool false => "false".toList
  | int n => intText n
  | float text => text
  | str s => layout.quote s
  | arr [] => "[]".toList
  | arr (item :: items) =>
    '[' :: (layout.newline (depth + 1) ++ render (depth + 1) item ++ renderItems depth items)
  | obj [] => "\x7b\x7d".toList
  | obj ((key, value) :: fields) =>
    '\x7b' :: (layout.newline (depth + 1) ++ layout.quote key ++ ':' :: layout.gap ++
      render (depth + 1) value ++ renderFields depth fields)
def renderItems (depth : Nat) : List Json → List Char
  | [] => layout.newline depth ++ [']']
  | item :: items =>
    ',' :: (layout.newline (depth + 1) ++ render (depth + 1) item ++ renderItems depth items)
def renderFields (depth : Nat) : List (String × Json) → List Char
  | [] => layout.newline depth ++ ['\x7d']
  | (key, value) :: fields =>
    ',' :: (layout.newline (depth + 1) ++ layout.quote key ++ ':' :: layout.gap ++
      render (depth + 1) value ++ renderFields depth fields)
end

end Render

/-- One of the sixteen digits, in lower case. -/
def hexDigit (n : Nat) : Char := Nat.digitChar (n % 16)

def hex4 (n : Nat) : List Char :=
  [hexDigit (n / 4096), hexDigit (n / 256), hexDigit (n / 16), hexDigit n]

/-- The escape of a character outside of the plain ones: a pair of surrogates beyond the basic
plane. -/
def unicodeEscape (c : Char) : List Char :=
  if c.toNat < 0x10000 then '\\' :: 'u' :: hex4 c.toNat
  else
    '\\' :: 'u' :: hex4 (0xD800 + (c.toNat - 0x10000) / 0x400) ++
      '\\' :: 'u' :: hex4 (0xDC00 + (c.toNat - 0x10000) % 0x400)

/-- A character inside of a string; `ascii` escapes everything beyond ASCII. -/
def escape (ascii : Bool) (c : Char) : List Char :=
  match c with
  | '"' => ['\\', '"']
  | '\\' => ['\\', '\\']
  | '\n' => ['\\', 'n']
  | '\r' => ['\\', 'r']
  | '\t' => ['\\', 't']
  | '\x0c' => ['\\', 'f']
  | '\x08' => ['\\', 'b']
  | c => if c.toNat < 0x20 ∨ ascii = true ∧ 0x7f ≤ c.toNat then unicodeEscape c else [c]

def quoted (ascii : Bool) (s : String) : List Char :=
  '"' :: (s.toList.flatMap (escape ascii) ++ ['"'])

/-- No blank anywhere. -/
def compact (ascii : Bool) : Layout where
  quote := quoted ascii

/-- A line for every item, `width` blanks for every level. -/
def indented (ascii : Bool) (width : Nat) : Layout where
  quote := quoted ascii
  newline depth := '\n' :: List.replicate (width * depth) ' '
  gap := [' ']

def dumps (layout : Layout) (value : Json) : List Char := render layout 0 value

end Json
