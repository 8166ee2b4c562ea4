/-!
# Byte strings

Message bodies, keys and ciphertexts are plain lists of bytes. This file holds
what the rest of the library says about them without knowing a format:
hexadecimal text, little-endian words, and UTF-8 text as bytes.

- `ofHex? (toHex bs)` is `bs`: hexadecimal text loses nothing
  (`ofHexDigits?_hexDigits`).
- `word32 (ofWord32 w)` is `w`: four bytes hold a 32-bit word.
-/

namespace MeshWatch

/-- A byte string, first byte first. -/
abbrev Bytes := List UInt8

/-! ## Hexadecimal digits -/

namespace Hex

/-- The lower-case digit of a value below sixteen. -/
def digit (n : Nat) : Char :=
  if n < 10 then Char.ofNat (48 + n) else Char.ofNat (87 + n)

/-- The value of a hexadecimal digit of either case. -/
def value? (c : Char) : Option Nat :=
  if '0' ≤ c ∧ c ≤ '9' then some (c.toNat - 48)
  else if 'a' ≤ c ∧ c ≤ 'f' then some (c.toNat - 87)
  else if 'A' ≤ c ∧ c ≤ 'F' then some (c.toNat - 55)
  else none

/-- Every value below sixteen is read back from its digit. -/
theorem value?_digit (n : Fin 16) : value? (digit n) = some n.val := by
  revert n; decide

/-- The `width` low hexadecimal digits of `n`, leading zeros kept. -/
def fixed : (width : Nat) → (n : Nat) → List Char
  | 0, _ => []
  | w + 1, n => fixed w (n / 16) ++ [digit (n % 16)]

/-- A fixed-width number has exactly its width. -/
@[simp] theorem length_fixed (w n : Nat) : (fixed w n).length = w := by
  induction w generalizing n with
  | zero => rfl
  | succ w ih => simp [fixed, ih]

end Hex

namespace Bytes

/-- Two digits per byte, high half first. -/
def hexDigits (bs : Bytes) : List Char :=
  bs.flatMap fun b => [Hex.digit (b.toNat / 16), Hex.digit (b.toNat % 16)]

/-- Lower-case hexadecimal text of a byte string. -/
def toHex (bs : Bytes) : String := String.ofList (hexDigits bs)

/-- Reads digits in pairs; an odd digit or a foreign character refuses the text. -/
def ofHexDigits? : List Char → Option Bytes
  | [] => some []
  | [_] => none
  | h :: l :: rest => do
    let hi ← Hex.value? h
    let lo ← Hex.value? l
    let bs ← ofHexDigits? rest
    return UInt8.ofNat (16 * hi + lo) :: bs

/-- Bytes named by hexadecimal text of either case. -/
def ofHex? (s : String) : Option Bytes := ofHexDigits? s.toList

theorem ofHexDigits?_hexDigits (bs : Bytes) : ofHexDigits? (hexDigits bs) = some bs := by
  induction bs with
  | nil => rfl
  | cons b bs ih =>
    have hb : b.toNat < 256 := b.toNat_lt
    have hi := Hex.value?_digit ⟨b.toNat / 16, by omega⟩
    have lo := Hex.value?_digit ⟨b.toNat % 16, by omega⟩
    have join : 16 * (b.toNat / 16) + b.toNat % 16 = b.toNat := by omega
    simp only [hexDigits, List.flatMap_cons, List.cons_append, List.nil_append] at ih ⊢
    simp only [ofHexDigits?, hi, lo, ih, join, Option.bind_eq_bind, Option.bind_some,
      UInt8.ofNat_toNat, Option.pure_def]

/-! ## Words -/

/-- The four bytes of a word, lowest first. -/
def ofWord32 (w : UInt32) : Bytes :=
  [w.toUInt8, (w >>> 8).toUInt8, (w >>> 16).toUInt8, (w >>> 24).toUInt8]

/-- The word held by four bytes, lowest first. -/
def word32 (a b c d : UInt8) : UInt32 :=
  a.toUInt32 ||| (b.toUInt32 <<< 8) ||| (c.toUInt32 <<< 16) ||| (d.toUInt32 <<< 24)

/-- The exclusive or of all bytes. -/
def xorAll (bs : Bytes) : UInt8 := bs.foldl (· ^^^ ·) 0

/-! ## Text as bytes -/

/-- The UTF-8 bytes of a text. -/
def ofText (s : String) : Bytes := s.toByteArray.data.toList

/-- The text that a byte string encodes, when it is well-formed UTF-8. -/
def toText? (bs : Bytes) : Option String := String.fromUTF8? ⟨bs.toArray⟩

/-- White space among single bytes: tab, line feed, form feed, carriage return, space. -/
def isAsciiBlank (b : UInt8) : Bool :=
  b == 9 || b == 10 || b == 12 || b == 13 || b == 32

end Bytes

end MeshWatch
