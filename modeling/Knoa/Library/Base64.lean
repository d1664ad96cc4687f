import Mathlib.Data.List.Basic

/-!
# Base64

The encoding with the alphabet that is safe in URLs, and the lenient decoder: it passes over
characters outside of the alphabet and stops at the padding.
-/
namespace Base64

def digit (n : Nat) : Char :=
  if n < 26 then Char.ofNat ('A'.toNat + n)
  else if n < 52 then Char.ofNat ('a'.toNat + (n - 26))
  else if n < 62 then Char.ofNat ('0'.toNat + (n - 52))
  else if n = 62 then '-'
  else '_'

/-- The decoder knows the digits of both alphabets. -/
def digitValue (c : Char) : Option Nat :=
  if 'A' ≤ c ∧ c ≤ 'Z' then some (c.toNat - 'A'.toNat)
  else if 'a' ≤ c ∧ c ≤ 'z' then some (c.toNat - 'a'.toNat + 26)
  else if '0' ≤ c ∧ c ≤ '9' then some (c.toNat - '0'.toNat + 52)
  else if c = '-' ∨ c = '+' then some 62
  else if c = '_' ∨ c = '/' then some 63
  else none

/-- Three bytes become four digits; the last group is padded. -/
def encode : List UInt8 → List Char
  | [] => []
  | [a] => [digit (a.toNat / 4), digit (a.toNat % 4 * 16), '=', '=']
  | [a, b] =>
    [digit (a.toNat / 4), digit (a.toNat % 4 * 16 + b.toNat / 16), digit (b.toNat % 16 * 4), '=']
  | a :: b :: c :: rest =>
    digit (a.toNat / 4) :: digit (a.toNat % 4 * 16 + b.toNat / 16) ::
      digit (b.toNat % 16 * 4 + c.toNat / 64) :: digit (c.toNat % 64) :: encode rest

/-- The decoder inside of a group: how many digits the group has, the padding seen since the last
digit, and the bits that are left of it. -/
def scan (quad pads left : Nat) : List Char → Option (List UInt8)
  | [] => if quad = 0 then some [] else none
  | c :: cs =>
    if c = '=' then
      if quad < 2 then scan quad pads left cs
      else if 4 ≤ quad + (pads + 1) then some []
      else scan quad (pads + 1) left cs
    else
      match digitValue c with
      | none => scan quad pads left cs
      | some v =>
        match quad with
        | 0 => scan 1 0 v cs
        | 1 => (scan 2 0 (v % 16) cs).map (UInt8.ofNat (left * 4 + v / 16) :: ·)
        | 2 => (scan 3 0 (v % 4) cs).map (UInt8.ofNat (left * 16 + v / 4) :: ·)
        | _ => (scan 0 0 0 cs).map (UInt8.ofNat (left * 64 + v) :: ·)

def decode (cs : List Char) : Option (List UInt8) :=
  if cs.all fun c => decide (c.toNat < 128) then scan 0 0 0 cs else none

theorem digit_fin : ∀ n : Fin 64, digitValue (digit n) = some n.val ∧ digit n ≠ '=' ∧
    (digit n).toNat < 128 := by
  decide

variable {n : Nat}

theorem digitValue_digit (bound : n < 64) : digitValue (digit n) = some n :=
  (digit_fin ⟨n, bound⟩).1

theorem digit_ne_pad (bound : n < 64) : digit n ≠ '=' := (digit_fin ⟨n, bound⟩).2.1

theorem digit_ascii (bound : n < 64) : (digit n).toNat < 128 := (digit_fin ⟨n, bound⟩).2.2

section Scan
variable {n left : Nat} {cs : List Char}

theorem scan_first (bound : n < 64) (pads : Nat) :
    scan 0 pads left (digit n :: cs) = scan 1 0 n cs := by
  simp only [scan, digit_ne_pad bound, digitValue_digit bound, if_false]

theorem scan_second (bound : n < 64) : scan 1 0 left (digit n :: cs) =
    (scan 2 0 (n % 16) cs).map (UInt8.ofNat (left * 4 + n / 16) :: ·) := by
  simp only [scan, digit_ne_pad bound, digitValue_digit bound, if_false]

theorem scan_third (bound : n < 64) : scan 2 0 left (digit n :: cs) =
    (scan 3 0 (n % 4) cs).map (UInt8.ofNat (left * 16 + n / 4) :: ·) := by
  simp only [scan, digit_ne_pad bound, digitValue_digit bound, if_false]

theorem scan_fourth (bound : n < 64) : scan 3 0 left (digit n :: cs) =
    (scan 0 0 0 cs).map (UInt8.ofNat (left * 64 + n) :: ·) := by
  simp only [scan, digit_ne_pad bound, digitValue_digit bound, if_false]

theorem scan_pads : scan 2 0 left ['=', '='] = some [] := rfl

theorem scan_pad : scan 3 0 left ['='] = some [] := rfl

end Scan

theorem ofNat_of_eq {a : UInt8} (same : n = a.toNat) : UInt8.ofNat n = a := by
  rw [same, UInt8.ofNat_toNat]

theorem scan_encode (bytes : List UInt8) : scan 0 0 0 (encode bytes) = some bytes := by
  induction bytes using encode.induct with
  | case1 => rfl
  | case2 a =>
    have small := a.toNat_lt
    rw [encode, scan_first (by omega), scan_second (by omega), scan_pads]
    rw [Option.map_some, ofNat_of_eq (a := a) (by omega)]
  | case3 a b =>
    have smallA := a.toNat_lt
    have smallB := b.toNat_lt
    rw [encode, scan_first (by omega), scan_second (by omega), scan_third (by omega), scan_pad]
    rw [Option.map_some, Option.map_some]
    rw [ofNat_of_eq (a := a) (by omega), ofNat_of_eq (a := b) (by omega)]
  | case4 a b c rest ih =>
    have smallA := a.toNat_lt
    have smallB := b.toNat_lt
    have smallC := c.toNat_lt
    rw [encode, scan_first (by omega), scan_second (by omega), scan_third (by omega),
      scan_fourth (by omega), ih]
    rw [Option.map_some, Option.map_some, Option.map_some]
    rw [ofNat_of_eq (a := a) (by omega), ofNat_of_eq (a := b) (by omega),
      ofNat_of_eq (a := c) (by omega)]

theorem encode_padded (bytes : List UInt8) : ∃ digits : List Char,
    encode bytes = digits ++ List.replicate ((4 - digits.length % 4) % 4) '=' ∧
      ∀ c ∈ digits, c ≠ '=' ∧ c.toNat < 128 := by
  induction bytes using encode.induct with
  | case1 => exact ⟨[], rfl, by simp⟩
  | case2 a =>
    have small := a.toNat_lt
    refine ⟨[digit (a.toNat / 4), digit (a.toNat % 4 * 16)], rfl, ?_⟩
    simp only [List.forall_mem_cons]
    exact ⟨⟨digit_ne_pad (by omega), digit_ascii (by omega)⟩,
      ⟨digit_ne_pad (by omega), digit_ascii (by omega)⟩, by simp⟩
  | case3 a b =>
    have smallA := a.toNat_lt
    have smallB := b.toNat_lt
    refine ⟨[digit (a.toNat / 4), digit (a.toNat % 4 * 16 + b.toNat / 16),
      digit (b.toNat % 16 * 4)], rfl, ?_⟩
    simp only [List.forall_mem_cons]
    exact ⟨⟨digit_ne_pad (by omega), digit_ascii (by omega)⟩,
      ⟨digit_ne_pad (by omega), digit_ascii (by omega)⟩,
      ⟨digit_ne_pad (by omega), digit_ascii (by omega)⟩, by simp⟩
  | case4 a b c rest ih =>
    have smallA := a.toNat_lt
    have smallB := b.toNat_lt
    have smallC := c.toNat_lt
    obtain ⟨digits, text, plain⟩ := ih
    refine ⟨digit (a.toNat / 4) :: digit (a.toNat % 4 * 16 + b.toNat / 16) ::
      digit (b.toNat % 16 * 4 + c.toNat / 64) :: digit (c.toNat % 64) :: digits, ?_, ?_⟩
    · have length : (4 - (digits.length + 1 + 1 + 1 + 1) % 4) % 4 =
          (4 - digits.length % 4) % 4 := by omega
      rw [encode, text]
      simp only [List.length_cons, length, List.cons_append]
    · simp only [List.forall_mem_cons]
      exact ⟨⟨digit_ne_pad (by omega), digit_ascii (by omega)⟩,
        ⟨digit_ne_pad (by omega), digit_ascii (by omega)⟩,
        ⟨digit_ne_pad (by omega), digit_ascii (by omega)⟩,
        ⟨digit_ne_pad (by omega), digit_ascii (by omega)⟩, plain⟩

theorem decode_encode (bytes : List UInt8) : decode (encode bytes) = some bytes := by
  obtain ⟨digits, text, plain⟩ := encode_padded bytes
  have ascii : (encode bytes).all (fun c => decide (c.toNat < 128)) = true := by
    rw [text, List.all_append, Bool.and_eq_true, List.all_eq_true, List.all_eq_true]
    constructor
    · exact fun c member => decide_eq_true (plain c member).2
    · intro c member
      rw [List.eq_of_mem_replicate member]
      rfl
  rw [decode, if_pos ascii, scan_encode]

end Base64
