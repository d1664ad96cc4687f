import Knoa.Library.JsonRead
import Mathlib.Data.List.TakeWhile

/-!
# A written document is read back

Escapes, numbers and literals first, then values by the recursion of the writer.
-/
namespace Json

theorem hexValue_hexDigit (n : Nat) : hexValue (hexDigit n) = some (n % 16) := by
  have all : ∀ k < 16, hexValue (Nat.digitChar k) = some k := by decide
  exact all (n % 16) (Nat.mod_lt n (by decide))

theorem readHex4_hex4 {n : Nat} (small : n < 0x10000) (rest : List Char) :
    readHex4 (hex4 n ++ rest) = some (n, rest) := by
  have whole : n / 4096 % 16 * 4096 + n / 256 % 16 * 256 + n / 16 % 16 * 16 + n % 16 = n := by
    omega
  simp [hex4, readHex4, hexValue_hexDigit, whole]

theorem readLow_hex4 {high low : Nat} (atLeast : 0xDC00 ≤ low) (below : low < 0xE000)
    (rest : List Char) : readLow high ('\\' :: 'u' :: (hex4 low ++ rest)) =
      some (Char.ofNat (0x10000 + (high - 0xD800) * 0x400 + (low - 0xDC00)), rest) := by
  have small : low < 0x10000 := by omega
  simp [readLow, readHex4_hex4 small, atLeast, below]

theorem not_surrogate (c : Char) : c.toNat < 0xD800 ∨ 0xE000 ≤ c.toNat := by
  rcases c.valid with below | above
  · exact .inl below
  · exact .inr above.1

theorem toNat_lt (c : Char) : c.toNat < 0x110000 := by
  rcases c.valid with below | above
  · exact lt_trans below (by decide)
  · exact above.2

variable {c : Char} {rest text : List Char}

theorem readEscape_basic (basic : c.toNat < 0x10000) (rest : List Char) :
    readEscape ('u' :: (hex4 c.toNat ++ rest)) = some (c, rest) := by
  have scalar := not_surrogate c
  have high : ¬(0xD800 ≤ c.toNat ∧ c.toNat < 0xDC00) := by omega
  have low : ¬(0xDC00 ≤ c.toNat ∧ c.toNat < 0xE000) := by omega
  rw [readEscape, readHex4_hex4 basic]
  simp only [Option.bind_eq_bind, Option.bind_some]
  rw [if_neg high, if_neg low, Char.ofNat_toNat]
  rfl

theorem readEscape_surrogates {high low : Nat} (isHigh : 0xD800 ≤ high ∧ high < 0xDC00)
    (atLeast : 0xDC00 ≤ low) (below : low < 0xE000) (rest : List Char) :
    readEscape ('u' :: (hex4 high ++ '\\' :: 'u' :: (hex4 low ++ rest))) =
      some (Char.ofNat (0x10000 + (high - 0xD800) * 0x400 + (low - 0xDC00)), rest) := by
  have small : high < 0x10000 := by omega
  rw [readEscape, readHex4_hex4 small]
  simp only [Option.bind_eq_bind, Option.bind_some]
  rw [if_pos isHigh]
  exact readLow_hex4 atLeast below rest

theorem pair_back {n : Nat} (beyond : 0x10000 ≤ n) :
    0x10000 + (0xD800 + (n - 0x10000) / 0x400 - 0xD800) * 0x400 +
      (0xDC00 + (n - 0x10000) % 0x400 - 0xDC00) = n := by
  omega

theorem readEscape_pair (beyond : 0x10000 ≤ c.toNat) (rest : List Char) :
    readEscape ('u' :: (hex4 (0xD800 + (c.toNat - 0x10000) / 0x400) ++
      '\\' :: 'u' :: (hex4 (0xDC00 + (c.toNat - 0x10000) % 0x400) ++ rest))) =
      some (c, rest) := by
  have bound := toNat_lt c
  rw [readEscape_surrogates (by omega) (by omega) (by omega), pair_back beyond, Char.ofNat_toNat]

/-- What a reader of characters does with the next one at the front. -/
def withChar (c : Char) (read : Option (List Char × List Char)) :
    Option (List Char × List Char) :=
  read.bind fun result => some (c :: result.1, result.2)

theorem readChars_escaped {body : List Char} (fuel : Nat)
    (reads : readEscape body = some (c, rest)) :
    readChars (fuel + 1) ('\\' :: body) = withChar c (readChars fuel rest) := by
  rw [readChars]
  simp only [reads, Option.bind_eq_bind, Option.bind_some]
  rfl

theorem readChars_plain (fuel : Nat) (rest : List Char) (noQuote : c ≠ '"')
    (noBackslash : c ≠ '\\') (visible : ¬c.toNat < 0x20) :
    readChars (fuel + 1) (c :: rest) = withChar c (readChars fuel rest) := by
  rw [readChars]
  · simp only [if_neg visible]
    rfl
  · exact noQuote
  · exact noBackslash

theorem readChars_escape (ascii : Bool) (c : Char) (fuel : Nat) (rest : List Char) :
    readChars (fuel + 1) (escape ascii c ++ rest) = withChar c (readChars fuel rest) := by
  unfold escape
  split
  case h_8 other noQuote noBackslash _ _ _ _ _ =>
    split
    next hidden =>
      unfold unicodeEscape
      split
      next basic => exact readChars_escaped fuel (readEscape_basic basic rest)
      next beyond => exact readChars_escaped fuel (readEscape_pair (not_lt.mp beyond) rest)
    next plain =>
      have visible : ¬c.toNat < 0x20 := fun control => plain (.inl control)
      exact readChars_plain fuel rest noQuote noBackslash visible
  all_goals exact readChars_escaped fuel rfl

theorem readChars_escapes (ascii : Bool) (rest : List Char) :
    ∀ (chars : List Char) (fuel : Nat), chars.length < fuel →
      readChars fuel (chars.flatMap (escape ascii) ++ '"' :: rest) = some (chars, rest) := by
  intro chars
  induction chars with
  | nil =>
    intro fuel enough
    obtain ⟨fuel, rfl⟩ := Nat.exists_eq_succ_of_ne_zero (Nat.ne_of_gt enough)
    rfl
  | cons c chars ih =>
    intro fuel enough
    obtain ⟨fuel, rfl⟩ := Nat.exists_eq_succ_of_ne_zero (Nat.ne_of_gt (Nat.zero_lt_of_lt enough))
    rw [List.flatMap_cons, List.append_assoc, readChars_escape,
      ih fuel (Nat.lt_of_succ_lt_succ enough)]
    rfl

theorem length_escape_pos (ascii : Bool) (c : Char) : 0 < (escape ascii c).length := by
  unfold escape
  split
  case h_8 =>
    split
    · unfold unicodeEscape
      split <;> simp
    · simp
  all_goals simp

theorem length_le_escapes (ascii : Bool) (chars : List Char) :
    chars.length ≤ (chars.flatMap (escape ascii)).length := by
  induction chars with
  | nil => simp
  | cons c chars ih =>
    have one := length_escape_pos ascii c
    rw [List.flatMap_cons, List.length_append, List.length_cons]
    omega

structure Layout.Legible (layout : Layout) : Prop where
  quote : ∀ s, ∃ body, layout.quote s = '"' :: body ∧
    ∀ rest, readString (body ++ rest) = some (s, rest)
  newline : ∀ depth, ∀ c ∈ layout.newline depth, isBlank c = true
  gap : ∀ c ∈ layout.gap, isBlank c = true

theorem readString_quoted (ascii : Bool) (s : String) : ∃ body, quoted ascii s = '"' :: body ∧
      ∀ rest, readString (body ++ rest) = some (s, rest) := by
  refine ⟨_, rfl, fun rest => ?_⟩
  have enough : s.toList.length <
      (s.toList.flatMap (escape ascii) ++ ['"'] ++ rest).length + 1 := by
    have := length_le_escapes ascii s.toList
    simp only [List.length_append]
    omega
  rw [readString, List.append_assoc, List.singleton_append]
  rw [List.append_assoc, List.singleton_append] at enough
  rw [readChars_escapes ascii rest s.toList _ enough]
  simp

theorem legible_compact (ascii : Bool) : (compact ascii).Legible :=
  ⟨readString_quoted ascii, by simp [compact], by simp [compact]⟩

theorem toDigits_cases (n : Nat) : Nat.toDigits 10 n = ['0'] ∧ n = 0 ∨
    ∃ c cs, Nat.toDigits 10 n = c :: cs ∧ c ≠ '0' := by
  induction n using Nat.strongRecOn with
  | ind n ih =>
    by_cases small : n < 10
    · rw [Nat.toDigits_of_lt_base small]
      have all : ∀ k < 10, [Nat.digitChar k] = ['0'] ∧ k = 0 ∨ Nat.digitChar k ≠ '0' := by
        decide
      rcases all n small with zero | other
      · exact .inl zero
      · exact .inr ⟨_, [], rfl, other⟩
    · rw [Nat.toDigits_of_base_le (by decide) (not_lt.mp small)]
      rcases ih (n / 10) (by omega) with ⟨_, none⟩ | ⟨c, cs, front, other⟩
      · omega
      · exact .inr ⟨c, _, by rw [front, List.cons_append], other⟩

theorem readNat_toDigits (n : Nat) : readNat (Nat.toDigits 10 n) = some n := by
  have back := @Nat.ofDigitChars_ten_toDigits n
  have digits : (Nat.toDigits 10 n).all Char.isDigit = true :=
    List.all_eq_true.mpr fun c => Nat.isDigit_of_mem_toDigits (by decide) (by decide)
  rcases toDigits_cases n with ⟨zero, rfl⟩ | ⟨c, cs, front, other⟩
  · rw [zero]
    rfl
  · rw [front] at back digits ⊢
    rw [readNat]
    · rw [if_pos ⟨other, digits⟩, back]
    · rintro rfl
      exact fun _ => other rfl

theorem readInt_intText (n : Int) : readInt (intText n) = some n := by
  cases n with
  | ofNat n =>
    have noMinus : ∀ digits, Nat.toDigits 10 n ≠ '-' :: digits := by
      intro digits same
      have digit := @Nat.isDigit_of_mem_toDigits 10 n '-' (by decide) (by decide)
        (by rw [same]; exact List.mem_cons_self)
      exact absurd digit (by decide)
    rw [intText, readInt]
    · rw [readNat_toDigits]
      rfl
    · exact noMinus
  | negSucc n =>
    rw [intText, readInt, readNat_toDigits]
    rfl

theorem readAtom_intText (n : Int) : readAtom (intText n) = some (int n) := by
  have reads := readInt_intText n
  have notWord : ∀ word : List Char, readInt word = none → intText n ≠ word := by
    rintro word unread rfl
    rw [reads] at unread
    cases unread
  rw [readAtom, if_neg (notWord _ (by decide)), if_neg (notWord _ (by decide)),
    if_neg (notWord _ (by decide)), reads]

theorem atomChar_of_isDigit (digit : c.isDigit = true) : isAtomChar c = true := by
  have notDigit : ∀ d : Char, d.isDigit = false → c ≠ d := by
    rintro d other rfl
    rw [digit] at other
    cases other
  simp [isAtomChar, isBlank, notDigit ' ' rfl, notDigit '\t' rfl, notDigit '\n' rfl,
    notDigit '\r' rfl, notDigit ',' rfl, notDigit ':' rfl, notDigit '"' rfl, notDigit '[' rfl,
    notDigit ']' rfl, notDigit '\x7b' rfl, notDigit '\x7d' rfl]

theorem atomChar_of_mem_intText {n : Int} (member : c ∈ intText n) : isAtomChar c = true := by
  cases n with
  | ofNat n =>
    exact atomChar_of_isDigit (Nat.isDigit_of_mem_toDigits (by decide) (by decide) member)
  | negSucc n =>
    rcases List.mem_cons.mp member with rfl | digit
    · rfl
    · exact atomChar_of_isDigit (Nat.isDigit_of_mem_toDigits (by decide) (by decide) digit)

theorem intText_ne_nil (n : Int) : intText n ≠ [] := by
  cases n with
  | ofNat n => exact Nat.toDigits_ne_nil
  | negSucc n => exact List.cons_ne_nil _ _

/-- A text begins with nothing that could continue a number or a literal. -/
def Ends : List Char → Prop
  | [] => True
  | c :: _ => isAtomChar c = false

theorem takeWhile_atom (atom : ∀ c ∈ text, isAtomChar c = true)
    (ends : Ends rest) : (text ++ rest).takeWhile isAtomChar = text := by
  rw [List.takeWhile_append_of_pos atom]
  cases rest with
  | nil => simp
  | cons c rest => rw [List.takeWhile_cons_of_neg (by simpa [Ends] using ends), List.append_nil]

theorem dropWhile_atom (atom : ∀ c ∈ text, isAtomChar c = true)
    (ends : Ends rest) : (text ++ rest).dropWhile isAtomChar = rest := by
  rw [List.dropWhile_append_of_pos atom]
  cases rest with
  | nil => rfl
  | cons c rest => rw [List.dropWhile_cons_of_neg (by simpa [Ends] using ends)]

theorem ends_append {blanks : List Char} (blank : ∀ c ∈ blanks, isBlank c = true)
    {rest : List Char} (ends : Ends rest) : Ends (blanks ++ rest) := by
  cases blanks with
  | nil => exact ends
  | cons c blanks =>
    have first := blank c List.mem_cons_self
    simp [Ends, isAtomChar, first]

theorem skipBlanks_append {blanks : List Char} (blank : ∀ c ∈ blanks, isBlank c = true)
    {c : Char} (solid : isBlank c = false) (rest : List Char) :
    skipBlanks (blanks ++ c :: rest) = c :: rest := by
  rw [skipBlanks, List.dropWhile_append_of_pos blank]
  exact List.dropWhile_cons_of_neg (by simp [solid])

theorem readValue_atom {value : Json} (fuel : Nat) (full : text ≠ [])
    (atom : ∀ c ∈ text, isAtomChar c = true) (reads : readAtom text = some value)
    (ends : Ends rest) : readValue (fuel + 1) (text ++ rest) = some (value, rest) := by
  have first := takeWhile_atom atom ends
  have last := dropWhile_atom atom ends
  obtain ⟨c, cs, rfl⟩ := List.exists_cons_of_ne_nil full
  have front := atom c List.mem_cons_self
  have other : ∀ d : Char, isAtomChar d = false → c ≠ d := by
    rintro d special rfl
    rw [front] at special
    cases special
  rw [List.cons_append] at first last ⊢
  rw [readValue]
  · rw [first, last, reads]
    rfl
  · intro tail same
    exact other '"' rfl (List.cons.inj same).1
  · intro tail same
    exact other '[' rfl (List.cons.inj same).1
  · intro tail same
    exact other '\x7b' rfl (List.cons.inj same).1

mutual
/-- Every double of the document stands under a text that reads as one. -/
def Readable : Json → Prop
  | float text => readAtom text = some (float text) ∧ ∀ c ∈ text, isAtomChar c = true
  | arr items => ReadableItems items
  | obj fields => ReadableFields fields
  | _ => True
def ReadableItems : List Json → Prop
  | [] => True
  | item :: items => Readable item ∧ ReadableItems items
def ReadableFields : List (String × Json) → Prop
  | [] => True
  | (_, value) :: fields => Readable value ∧ ReadableFields fields
end

theorem readableFields_iff {fields : List (String × Json)} :
    ReadableFields fields ↔ ∀ field ∈ fields, Readable field.2 := by
  induction fields with
  | nil => simp [ReadableFields]
  | cons field fields ih => simp [ReadableFields, ih]

mutual
/-- How deep the reader calls itself on a value. -/
def cost : Json → Nat
  | arr items => 1 + costItems items
  | obj fields => 1 + costFields fields
  | _ => 1
def costItems : List Json → Nat
  | [] => 0
  | item :: items => 1 + max (cost item) (costItems items)
def costFields : List (String × Json) → Nat
  | [] => 0
  | (_, value) :: fields => 1 + max (cost value) (costFields fields)
end

theorem setField_fresh {key : String} (value : Json) {fields : List (String × Json)}
    (fresh : key ∉ fields.map Prod.fst) : setField key value fields = fields ++ [(key, value)] := by
  induction fields with
  | nil => rfl
  | cons field fields ih =>
    obtain ⟨k, v⟩ := field
    simp only [List.map_cons, List.mem_cons, not_or] at fresh
    rw [setField, if_neg (Ne.symm fresh.1), ih fresh.2, List.cons_append]

theorem foldl_setField (pairs : List (String × Json)) : ∀ fields : List (String × Json),
    ((fields ++ pairs).map Prod.fst).Nodup →
      pairs.foldl (fun fields pair => setField pair.1 pair.2 fields) fields = fields ++ pairs := by
  induction pairs with
  | nil => intro fields _; rw [List.append_nil]; rfl
  | cons pair pairs ih =>
    intro fields unique
    have fresh : pair.1 ∉ fields.map Prod.fst := by
      rw [List.map_append, List.map_cons] at unique
      intro member
      exact (List.nodup_append.mp unique).2.2 _ member _ List.mem_cons_self rfl
    rw [List.foldl_cons, setField_fresh pair.2 fresh, ih (fields ++ [(pair.1, pair.2)])]
    · rw [List.append_assoc, List.singleton_append]
    · rw [List.append_assoc, List.singleton_append]
      exact unique

theorem fromPairs_unique {pairs : List (String × Json)} (unique : (pairs.map Prod.fst).Nodup) :
    fromPairs pairs = pairs :=
  foldl_setField pairs [] unique

section RoundTrip
variable {layout : Layout}

theorem ends_renderItems (legible : layout.Legible) (depth : Nat) (items : List Json)
    (rest : List Char) : Ends (renderItems layout depth items ++ rest) := by
  cases items with
  | nil =>
    rw [renderItems, List.append_assoc]
    exact ends_append (legible.newline depth) rfl
  | cons item items => rfl

theorem ends_renderFields (legible : layout.Legible) (depth : Nat)
    (fields : List (String × Json)) (rest : List Char) :
    Ends (renderFields layout depth fields ++ rest) := by
  cases fields with
  | nil =>
    rw [renderFields, List.append_assoc]
    exact ends_append (legible.newline depth) rfl
  | cons field fields => rfl

theorem render_front (legible : layout.Legible) (depth : Nat) (value : Json)
    (readable : Readable value) :
    ∃ c cs, render layout depth value = c :: cs ∧ isBlank c = false ∧ c ≠ ']' := by
  have ofAtom : ∀ text : List Char, text ≠ [] → (∀ c ∈ text, isAtomChar c = true) →
      ∃ c cs, text = c :: cs ∧ isBlank c = false ∧ c ≠ ']' := by
    intro text full atom
    obtain ⟨c, cs, rfl⟩ := List.exists_cons_of_ne_nil full
    have front := atom c List.mem_cons_self
    simp only [isAtomChar, Bool.not_eq_true', Bool.or_eq_false_iff] at front
    refine ⟨c, cs, rfl, front.1.1.1.1.1.1.1, ?_⟩
    simpa using front.1.1.2
  cases value with
  | null => exact ⟨_, _, rfl, rfl, by decide⟩
  | bool b => cases b <;> exact ⟨_, _, rfl, rfl, by decide⟩
  | int n => exact ofAtom _ (intText_ne_nil n) fun c => atomChar_of_mem_intText
  | float text =>
    refine ofAtom text ?_ readable.2
    rintro rfl
    have unread : readAtom [] = none := rfl
    rw [Readable, unread] at readable
    cases readable.1
  | str s =>
    obtain ⟨body, spelled, _⟩ := legible.quote s
    rw [render, spelled]
    exact ⟨_, _, rfl, rfl, by decide⟩
  | arr items => cases items <;> exact ⟨_, _, rfl, rfl, by decide⟩
  | obj fields => cases fields <;> exact ⟨_, _, rfl, rfl, by decide⟩

variable {fuel : Nat} {rest blanks after : List Char}

theorem readItems_last {cs : List Char} {item : Json}
    (first : readValue fuel cs = some (item, blanks ++ ']' :: rest))
    (blank : ∀ c ∈ blanks, isBlank c = true) : readItems (fuel + 1) cs = some ([item], rest) := by
  have closes := @skipBlanks_append blanks blank ']' rfl rest
  rw [readItems, first]
  simp only [Option.bind_eq_bind, Option.bind_some, closes]
  rfl

theorem readItems_more {cs : List Char} {item : Json}
    {items : List Json} (first : readValue fuel cs = some (item, ',' :: after))
    (others : readItems fuel (skipBlanks after) = some (items, rest)) :
    readItems (fuel + 1) cs = some (item :: items, rest) := by
  have comma : skipBlanks (',' :: after) = ',' :: after := rfl
  rw [readItems, first]
  simp only [Option.bind_eq_bind, Option.bind_some, comma, others]
  rfl

theorem readPairs_last {body : List Char} {key : String}
    {value : Json} (named : readString body = some (key, ':' :: after))
    (first : readValue fuel (skipBlanks after) = some (value, blanks ++ '\x7d' :: rest))
    (blank : ∀ c ∈ blanks, isBlank c = true) :
    readPairs (fuel + 1) ('"' :: body) = some ([(key, value)], rest) := by
  have closes := @skipBlanks_append blanks blank '\x7d' rfl rest
  have colon : skipBlanks (':' :: after) = ':' :: after := rfl
  rw [readPairs, named]
  simp only [Option.bind_eq_bind, Option.bind_some, colon, first, closes]
  rfl

theorem readPairs_more {body others : List Char} {key : String}
    {value : Json} {pairs : List (String × Json)}
    (named : readString body = some (key, ':' :: after))
    (first : readValue fuel (skipBlanks after) = some (value, ',' :: others))
    (further : readPairs fuel (skipBlanks others) = some (pairs, rest)) :
    readPairs (fuel + 1) ('"' :: body) = some ((key, value) :: pairs, rest) := by
  have comma : skipBlanks (',' :: others) = ',' :: others := rfl
  have colon : skipBlanks (':' :: after) = ':' :: after := rfl
  rw [readPairs, named]
  simp only [Option.bind_eq_bind, Option.bind_some, colon, first, comma, further]
  rfl

theorem readValue_arr {text : List Char} {items : List Json}
    (opens : ∀ tail, skipBlanks text ≠ ']' :: tail)
    (reads : readItems fuel (skipBlanks text) = some (items, rest)) :
    readValue (fuel + 1) ('[' :: text) = some (arr items, rest) := by
  rw [readValue]
  split
  next tail closed => exact absurd closed (opens tail)
  next =>
    rw [reads]
    rfl

theorem readValue_obj {text : List Char} {pairs : List (String × Json)}
    (opens : ∀ tail, skipBlanks text ≠ '\x7d' :: tail)
    (reads : readPairs fuel (skipBlanks text) = some (pairs, rest)) :
    readValue (fuel + 1) ('\x7b' :: text) = some (obj (fromPairs pairs), rest) := by
  rw [readValue]
  split
  next tail closed => exact absurd closed (opens tail)
  next =>
    rw [reads]
    rfl

theorem skipBlanks_render (legible : layout.Legible) {blanks : List Char}
    (blank : ∀ c ∈ blanks, isBlank c = true) (depth : Nat) {value : Json}
    (readable : Readable value) (rest : List Char) :
    skipBlanks (blanks ++ (render layout depth value ++ rest)) =
      render layout depth value ++ rest := by
  obtain ⟨c, cs, front, solid, _⟩ := render_front legible depth value readable
  rw [front, List.cons_append, skipBlanks_append blank solid]

theorem skipBlanks_quote (legible : layout.Legible)
    (blank : ∀ c ∈ blanks, isBlank c = true) (key : String) (rest : List Char) :
    skipBlanks (blanks ++ (layout.quote key ++ rest)) = layout.quote key ++ rest := by
  obtain ⟨body, spelled, _⟩ := legible.quote key
  rw [spelled, List.cons_append, skipBlanks_append blank rfl]

mutual
/-- The reader takes a value back from the front of any text that can follow it. -/
theorem readValue_render (legible : layout.Legible) :
    ∀ (value : Json) (depth fuel : Nat) (rest : List Char), Keyed value → Readable value →
      cost value ≤ fuel → Ends rest →
      readValue fuel (render layout depth value ++ rest) = some (value, rest)
  | value, _, 0, _, _, _, enough, _ => by
    cases value <;> simp [cost] at enough
  | null, _, fuel + 1, rest, _, _, _, ends =>
    readValue_atom fuel (show "null".toList ≠ [] by decide)
      (List.all_eq_true.mp (show "null".toList.all isAtomChar = true by decide)) rfl ends
  | bool true, _, fuel + 1, rest, _, _, _, ends =>
    readValue_atom fuel (show "true".toList ≠ [] by decide)
      (List.all_eq_true.mp (show "true".toList.all isAtomChar = true by decide)) rfl ends
  | bool false, _, fuel + 1, rest, _, _, _, ends =>
    readValue_atom fuel (show "false".toList ≠ [] by decide)
      (List.all_eq_true.mp (show "false".toList.all isAtomChar = true by decide)) rfl ends
  | int n, _, fuel + 1, rest, _, _, _, ends =>
    readValue_atom fuel (intText_ne_nil n) (fun _ => atomChar_of_mem_intText)
      (readAtom_intText n) ends
  | float text, _, fuel + 1, rest, _, readable, _, ends => by
    refine readValue_atom fuel ?_ readable.2 readable.1 ends
    rintro rfl
    have unread : readAtom [] = none := rfl
    rw [Readable, unread] at readable
    cases readable.1
  | str s, _, fuel + 1, rest, _, _, _, _ => by
    obtain ⟨body, spelled, reads⟩ := legible.quote s
    rw [render, spelled, List.cons_append, readValue]
    simp only [reads]
    rfl
  | arr [], _, fuel + 1, rest, _, _, _, _ | obj [], _, fuel + 1, rest, _, _, _, _ => rfl
  | arr (item :: items), depth, fuel + 1, rest, keyed, readable, enough, _ => by
    have below : costItems (item :: items) ≤ fuel := by
      rw [cost] at enough
      omega
    have reads := readItems_render legible item items depth fuel rest keyed readable below
    have skipped := skipBlanks_render legible (legible.newline (depth + 1)) (depth + 1)
      readable.1 (renderItems layout depth items ++ rest)
    simp only [render, List.cons_append, List.append_assoc]
    refine readValue_arr ?_ ?_
    · intro tail closed
      obtain ⟨c, cs, front, _, opens⟩ := render_front legible (depth + 1) item readable.1
      rw [skipped, front] at closed
      exact opens (List.cons.inj closed).1
    · rw [skipped]
      exact reads
  | obj ((key, value) :: fields), depth, fuel + 1, rest, keyed, readable, enough, _ => by
    have below : costFields ((key, value) :: fields) ≤ fuel := by
      rw [cost] at enough
      omega
    have reads := readPairs_render legible key value fields depth fuel rest keyed.2 readable below
    have skipped := skipBlanks_quote legible (legible.newline (depth + 1)) key
      (':' :: (layout.gap ++ (render layout (depth + 1) value ++
        (renderFields layout depth fields ++ rest))))
    simp only [render, List.cons_append, List.append_assoc]
    rw [← fromPairs_unique keyed.1]
    refine readValue_obj ?_ ?_
    · intro tail closed
      obtain ⟨body, spelled, _⟩ := legible.quote key
      rw [skipped, spelled] at closed
      exact absurd (List.cons.inj closed).1 (by decide)
    · rw [skipped]
      exact reads
theorem readItems_render (legible : layout.Legible) :
    ∀ (item : Json) (items : List Json) (depth fuel : Nat) (rest : List Char),
      KeyedItems (item :: items) → ReadableItems (item :: items) →
      costItems (item :: items) ≤ fuel →
      readItems fuel (render layout (depth + 1) item ++ (renderItems layout depth items ++ rest)) =
        some (item :: items, rest)
  | item, items, _, 0, _, _, _, enough => by
    rw [costItems] at enough
    omega
  | item, [], depth, fuel + 1, rest, keyed, readable, enough => by
    rw [costItems] at enough
    have first := readValue_render legible item (depth + 1) fuel _ keyed.1 readable.1 (by omega)
      (ends_renderItems legible depth [] rest)
    rw [renderItems, List.append_assoc] at first ⊢
    exact readItems_last first (legible.newline depth)
  | item, next :: items, depth, fuel + 1, rest, keyed, readable, enough => by
    rw [costItems] at enough
    have first := readValue_render legible item (depth + 1) fuel _ keyed.1 readable.1 (by omega)
      (ends_renderItems legible depth (next :: items) rest)
    have others := readItems_render legible next items depth fuel rest keyed.2 readable.2 (by omega)
    simp only [renderItems, List.cons_append, List.append_assoc] at first ⊢
    refine readItems_more first ?_
    rw [skipBlanks_render legible (legible.newline (depth + 1)) (depth + 1) readable.2.1]
    exact others
theorem readPairs_render (legible : layout.Legible) :
    ∀ (key : String) (value : Json) (fields : List (String × Json)) (depth fuel : Nat)
      (rest : List Char), KeyedFields ((key, value) :: fields) →
      ReadableFields ((key, value) :: fields) → costFields ((key, value) :: fields) ≤ fuel →
      readPairs fuel (layout.quote key ++ ':' :: (layout.gap ++ (render layout (depth + 1) value ++
        (renderFields layout depth fields ++ rest)))) = some ((key, value) :: fields, rest)
  | key, value, fields, _, 0, _, _, _, enough => by
    rw [costFields] at enough
    omega
  | key, value, [], depth, fuel + 1, rest, keyed, readable, enough => by
    rw [costFields] at enough
    obtain ⟨body, spelled, named⟩ := legible.quote key
    have first := readValue_render legible value (depth + 1) fuel _ keyed.1 readable.1 (by omega)
      (ends_renderFields legible depth [] rest)
    rw [← skipBlanks_render legible legible.gap (depth + 1) readable.1] at first
    rw [spelled, List.cons_append]
    rw [renderFields, List.append_assoc] at first ⊢
    exact readPairs_last (named _) first (legible.newline depth)
  | key, value, (next, other) :: fields, depth, fuel + 1, rest, keyed, readable, enough => by
    rw [costFields] at enough
    obtain ⟨body, spelled, named⟩ := legible.quote key
    have first := readValue_render legible value (depth + 1) fuel _ keyed.1 readable.1 (by omega)
      (ends_renderFields legible depth ((next, other) :: fields) rest)
    have further := readPairs_render legible next other fields depth fuel rest keyed.2 readable.2
      (by omega)
    rw [← skipBlanks_render legible legible.gap (depth + 1) readable.1] at first
    rw [spelled, List.cons_append]
    simp only [renderFields, List.cons_append, List.append_assoc] at first ⊢
    refine readPairs_more (named _) first ?_
    rw [skipBlanks_quote legible (legible.newline (depth + 1))]
    exact further
end

mutual
theorem cost_le_length (legible : layout.Legible) : ∀ (value : Json) (depth : Nat),
    Readable value → cost value ≤ (render layout depth value).length
  | null, _, _ => show 1 ≤ "null".toList.length by decide
  | bool true, _, _ => show 1 ≤ "true".toList.length by decide
  | bool false, _, _ => show 1 ≤ "false".toList.length by decide
  | int n, _, _ => List.length_pos_iff.mpr (intText_ne_nil n)
  | float text, depth, readable => by
    obtain ⟨c, cs, front, _⟩ := render_front legible depth (float text) readable
    rw [front]
    exact Nat.succ_pos _
  | str s, depth, readable => by
    obtain ⟨c, cs, front, _⟩ := render_front legible depth (str s) readable
    rw [front]
    exact Nat.succ_pos _
  | arr [], _, _ => show 1 ≤ "[]".toList.length by decide
  | arr (item :: items), depth, readable => by
    have first := cost_le_length legible item (depth + 1) readable.1
    have others := costItems_lt_length legible items depth readable.2
    simp only [cost, costItems, render, List.length_cons, List.length_append]
    omega
  | obj [], _, _ => show 1 ≤ "\x7b\x7d".toList.length by decide
  | obj ((key, value) :: fields), depth, readable => by
    have first := cost_le_length legible value (depth + 1) readable.1
    have others := costFields_lt_length legible fields depth readable.2
    simp only [cost, costFields, render, List.length_cons, List.length_append]
    omega
theorem costItems_lt_length (legible : layout.Legible) : ∀ (items : List Json) (depth : Nat),
    ReadableItems items → costItems items < (renderItems layout depth items).length
  | [], depth, _ => by
    simp [costItems, renderItems]
  | item :: items, depth, readable => by
    have first := cost_le_length legible item (depth + 1) readable.1
    have others := costItems_lt_length legible items depth readable.2
    simp only [costItems, renderItems, List.length_cons, List.length_append]
    omega
theorem costFields_lt_length (legible : layout.Legible) :
    ∀ (fields : List (String × Json)) (depth : Nat), ReadableFields fields →
      costFields fields < (renderFields layout depth fields).length
  | [], depth, _ => by
    simp [costFields, renderFields]
  | (key, value) :: fields, depth, readable => by
    have first := cost_le_length legible value (depth + 1) readable.1
    have others := costFields_lt_length legible fields depth readable.2
    simp only [costFields, renderFields, List.length_cons, List.length_append]
    omega
end

theorem loads_dumps (legible : layout.Legible) {value : Json} (keyed : Keyed value)
    (readable : Readable value) {blanks : List Char} (blank : ∀ c ∈ blanks, isBlank c = true) :
    loads (dumps layout value ++ blanks) = some value := by
  have enough : cost value ≤ (dumps layout value ++ blanks).length + 1 := by
    have := cost_le_length legible value 0 readable
    rw [List.length_append, dumps]
    omega
  have ends : Ends blanks := by
    have := @ends_append blanks blank [] trivial
    rwa [List.append_nil] at this
  have skipped := @skipBlanks_render layout legible [] (by simp) 0 value readable blanks
  have left : skipBlanks blanks = [] := by
    rw [skipBlanks, List.dropWhile_eq_nil_iff]
    exact blank
  rw [List.nil_append] at skipped
  rw [loads, dumps, skipped]
  rw [dumps] at enough
  rw [readValue_render legible value 0 _ blanks keyed readable enough ends]
  simp only [Option.bind_eq_bind, Option.bind_some, left]
  rfl

end RoundTrip
end Json
