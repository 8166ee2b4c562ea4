import MeshWatch.Decimal.Shortest

/-!
# How a decimal is laid out

Where a number's digits go relative to the decimal point is decided by one record
per width: between two positions of the point the number is written positionally,
always with a digit after the point, and outside of them with an exponent that
has neither a plus sign nor leading zeros.
-/

namespace MeshWatch.Decimal

/-- The range of positional notation, as positions of the point after the first
digit: `least < point ≤ greatest`. -/
structure Layout where
  least : Int
  greatest : Int
deriving DecidableEq, Repr

/-- Numbers of 32 bits are positional from 0.000001 up to 13 digits. -/
def Layout.single : Layout := ⟨-6, 13⟩

/-- Numbers of 64 bits are positional from 0.00001 up to 16 digits. -/
def Layout.double : Layout := ⟨-5, 16⟩

/-- A run of zeros. -/
def zeros (n : Nat) : List Char := List.replicate n '0'

/-- The digits of a number in decimal. -/
def digitChars (n : Nat) : List Char := Nat.toDigits 10 n

/-- An integer in decimal, with a minus sign when it is negative. -/
def integerChars (n : Int) : List Char :=
  if n < 0 then '-' :: digitChars n.natAbs else digitChars n.natAbs

/-- The text of a non-negative number. -/
def Layout.text (l : Layout) (d : Digits) : List Char :=
  let ds := digitChars d.significand
  let point : Int := ds.length + d.exponent
  if d.significand = 0 then ['0', '.', '0']
  else if 0 ≤ d.exponent ∧ point ≤ l.greatest then
    ds ++ zeros d.exponent.toNat ++ ['.', '0']
  else if 0 < point ∧ point ≤ l.greatest then
    ds.take point.toNat ++ '.' :: ds.drop point.toNat
  else if l.least < point ∧ point ≤ 0 then
    '0' :: '.' :: zeros (-point).toNat ++ ds
  else
    let head := ds.take 1
    let tail := ds.drop 1
    let fraction := if tail.isEmpty then [] else '.' :: tail
    head ++ fraction ++ 'e' :: integerChars (point - 1)

/-- The text of a value, `none` for an infinity and for NaN, which have none. -/
def Layout.write? (l : Layout) (f : Ieee.Format) : Ieee.Value → Option (List Char)
  | .nan => none
  | .infinite _ => none
  | .finite negative m q =>
    let body := l.text (shortest f m q)
    some (if negative then '-' :: body else body)

/-- The shortest text of a 32-bit float. -/
def ofSingle? (x : Float32) : Option (List Char) :=
  Layout.single.write? Ieee.single (Ieee.ofSingle x)

/-- The shortest text of a 64-bit float. -/
def ofDouble? (x : Float) : Option (List Char) :=
  Layout.double.write? Ieee.double (Ieee.ofDouble x)

end MeshWatch.Decimal
