import Knoa.Library.Json

/-!
# Reading JSON text

The reader of the standard grammar and what it returns on a text that a layout wrote.
-/
namespace Json

def isBlank (c : Char) : Bool := c == ' ' || c == '\t' || c == '\n' || c == '\r'

/-- A character that can stand in a number or in a literal. -/
def isAtomChar (c : Char) : Bool :=
  !(isBlank c || c == ',' || c == ':' || c == '"' || c == '[' || c == ']' || c == '\x7b' ||
    c == '\x7d')

def skipBlanks (cs : List Char) : List Char := cs.dropWhile isBlank

/-- Decimal digits, with no zero in front of others. -/
def readNat : List Char → Option Nat
  | [] => none
  | ['0'] => some 0
  | c :: cs =>
    if c ≠ '0' ∧ (c :: cs).all Char.isDigit = true then
      some (Nat.ofDigitChars 10 (c :: cs) 0)
    else none

def readInt : List Char → Option Int
  | '-' :: digits => (readNat digits).map fun n => -(n : Int)
  | digits => (readNat digits).map fun n => (n : Int)

def isExponent : List Char → Bool
  | '+' :: digits | '-' :: digits => !digits.isEmpty && digits.all Char.isDigit
  | digits => !digits.isEmpty && digits.all Char.isDigit

def isDouble (text : List Char) : Bool :=
  let unsigned := match text with
    | '-' :: rest => rest
    | rest => rest
  let mantissa := unsigned.takeWhile fun c => c != 'e' && c != 'E'
  let exponent := unsigned.dropWhile fun c => c != 'e' && c != 'E'
  let whole := mantissa.takeWhile (· != '.')
  let fraction := mantissa.dropWhile (· != '.')
  text == "NaN".toList || unsigned == "Infinity".toList ||
    (readNat whole).isSome &&
      (fraction.isEmpty || !(fraction.drop 1).isEmpty && (fraction.drop 1).all Char.isDigit) &&
      (exponent.isEmpty || isExponent (exponent.drop 1)) &&
      !(fraction.isEmpty && exponent.isEmpty)

def readAtom (text : List Char) : Option Json :=
  if text = "null".toList then some null
  else if text = "true".toList then some (bool true)
  else if text = "false".toList then some (bool false)
  else
    match readInt text with
    | some n => some (int n)
    | none => if isDouble text = true then some (float text) else none

def hexValue (c : Char) : Option Nat :=
  if '0' ≤ c ∧ c ≤ '9' then some (c.toNat - '0'.toNat)
  else if 'a' ≤ c ∧ c ≤ 'f' then some (c.toNat - 'a'.toNat + 10)
  else if 'A' ≤ c ∧ c ≤ 'F' then some (c.toNat - 'A'.toNat + 10)
  else none

def readHex4 : List Char → Option (Nat × List Char)
  | a :: b :: c :: d :: rest => do
    let a ← hexValue a
    let b ← hexValue b
    let c ← hexValue c
    let d ← hexValue d
    return (a * 4096 + b * 256 + c * 16 + d, rest)
  | _ => none

/-- The low half that has to follow a high surrogate. -/
def readLow (high : Nat) : List Char → Option (Char × List Char)
  | '\\' :: 'u' :: rest => do
    let (low, rest) ← readHex4 rest
    if 0xDC00 ≤ low ∧ low < 0xE000 then
      return (Char.ofNat (0x10000 + (high - 0xD800) * 0x400 + (low - 0xDC00)), rest)
    else none
  | _ => none

/-- What follows a backslash. A surrogate without its other half is no character. -/
def readEscape : List Char → Option (Char × List Char)
  | '"' :: rest => some ('"', rest)
  | '\\' :: rest => some ('\\', rest)
  | '/' :: rest => some ('/', rest)
  | 'n' :: rest => some ('\n', rest)
  | 'r' :: rest => some ('\r', rest)
  | 't' :: rest => some ('\t', rest)
  | 'f' :: rest => some ('\x0c', rest)
  | 'b' :: rest => some ('\x08', rest)
  | 'u' :: rest => do
    let (n, rest) ← readHex4 rest
    if 0xD800 ≤ n ∧ n < 0xDC00 then readLow n rest
    else if 0xDC00 ≤ n ∧ n < 0xE000 then none
    else return (Char.ofNat n, rest)
  | _ => none

/-- The characters up to the closing quote. -/
def readChars : Nat → List Char → Option (List Char × List Char)
  | 0, _ => none
  | fuel + 1, cs =>
    match cs with
    | [] => none
    | '"' :: rest => some ([], rest)
    | '\\' :: rest => do
      let (c, rest) ← readEscape rest
      let (tail, rest) ← readChars fuel rest
      return (c :: tail, rest)
    | c :: rest =>
      if c.toNat < 0x20 then none
      else do
        let (tail, rest) ← readChars fuel rest
        return (c :: tail, rest)

def readString (cs : List Char) : Option (String × List Char) :=
  (readChars (cs.length + 1) cs).map fun (chars, rest) => (String.ofList chars, rest)

/-- The entry of a key that comes again is replaced where the key first stood. -/
def setField (key : String) (value : Json) : List (String × Json) → List (String × Json)
  | [] => [(key, value)]
  | (k, v) :: fields =>
    if k = key then (key, value) :: fields else (k, v) :: setField key value fields

def fromPairs (pairs : List (String × Json)) : List (String × Json) :=
  pairs.foldl (fun fields pair => setField pair.1 pair.2 fields) []

mutual
def readValue : Nat → List Char → Option (Json × List Char)
  | 0, _ => none
  | fuel + 1, cs =>
    match cs with
    | '"' :: rest => do
      let (s, rest) ← readString rest
      return (str s, rest)
    | '[' :: rest =>
      match skipBlanks rest with
      | ']' :: rest => some (arr [], rest)
      | rest => do
        let (items, rest) ← readItems fuel rest
        return (arr items, rest)
    | '\x7b' :: rest =>
      match skipBlanks rest with
      | '\x7d' :: rest => some (obj [], rest)
      | rest => do
        let (pairs, rest) ← readPairs fuel rest
        return (obj (fromPairs pairs), rest)
    | cs => do
      let value ← readAtom (cs.takeWhile isAtomChar)
      return (value, cs.dropWhile isAtomChar)
def readItems : Nat → List Char → Option (List Json × List Char)
  | 0, _ => none
  | fuel + 1, cs => do
    let (item, rest) ← readValue fuel cs
    match skipBlanks rest with
    | ']' :: rest => return ([item], rest)
    | ',' :: rest => do
      let (items, rest) ← readItems fuel (skipBlanks rest)
      return (item :: items, rest)
    | _ => none
def readPairs : Nat → List Char → Option (List (String × Json) × List Char)
  | 0, _ => none
  | fuel + 1, cs =>
    match cs with
    | '"' :: rest => do
      let (key, rest) ← readString rest
      match skipBlanks rest with
      | ':' :: rest => do
        let (value, rest) ← readValue fuel (skipBlanks rest)
        match skipBlanks rest with
        | '\x7d' :: rest => return ([(key, value)], rest)
        | ',' :: rest => do
          let (pairs, rest) ← readPairs fuel (skipBlanks rest)
          return ((key, value) :: pairs, rest)
        | _ => none
      | _ => none
    | _ => none
end

def loads (text : List Char) : Option Json := do
  let (value, rest) ← readValue (text.length + 1) (skipBlanks text)
  if skipBlanks rest = [] then return value else none

end Json
