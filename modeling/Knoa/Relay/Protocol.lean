import Knoa.Library.Base64
import Mathlib.Data.List.DropRight

/-!
# The encoding of bytes in relay messages

Base64 without its padding.
-/
namespace Knoa.Relay

def encodeBase64url (bytes : List UInt8) : List Char := (Base64.encode bytes).rdropWhile (· == '=')

def decodeBase64url (text : List Char) : Option (List UInt8) :=
  Base64.decode (text ++ List.replicate ((4 - text.length % 4) % 4) '=')

theorem rdropWhile_padding {digits : List Char} (plain : ∀ c ∈ digits, c ≠ '=') (n : Nat) :
    (digits ++ List.replicate n '=').rdropWhile (· == '=') = digits := by
  induction n with
  | zero =>
    rw [List.replicate_zero, List.append_nil, List.rdropWhile_eq_self_iff]
    intro nonempty last
    exact plain _ (List.getLast_mem nonempty) (eq_of_beq last)
  | succ n ih =>
    rw [List.replicate_succ', ← List.append_assoc, List.rdropWhile_concat_pos _ _ _ (by rfl)]
    exact ih

theorem decodeBase64url_encode (bytes : List UInt8) :
    decodeBase64url (encodeBase64url bytes) = some bytes := by
  obtain ⟨digits, text, plain⟩ := Base64.encode_padded bytes
  have stripped : encodeBase64url bytes = digits := by
    rw [encodeBase64url, text]
    exact rdropWhile_padding (fun c member => (plain c member).1) _
  rw [decodeBase64url, stripped, ← text]
  exact Base64.decode_encode bytes

end Knoa.Relay
