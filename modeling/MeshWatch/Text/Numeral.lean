import MeshWatch.Bytes

/-!
# Numerals

Reading of unsigned numbers in a given base, and fixed-width hexadecimal. A
number is an optional plus sign and one or more digits; it is refused when it
exceeds its bound, so no value ever wraps.

- `readBelow?_lt`: a number that is read lies below its bound.
-/

namespace MeshWatch.Text

/-- The value of a digit in a base up to sixteen. -/
def digitBelow? (base : Nat) (c : Char) : Option Nat :=
  match Hex.value? c with
  | some v => if v < base then some v else none
  | none => none

/-- The value of a digit sequence that continues the number `acc`. -/
def digitsFrom? (base acc : Nat) : List Char → Option Nat
  | [] => some acc
  | c :: cs =>
    match digitBelow? base c with
    | some v => digitsFrom? base (acc * base + v) cs
    | none => none

/-- The value of a non-empty digit sequence. -/
def digits? (base : Nat) : List Char → Option Nat
  | [] => none
  | cs => digitsFrom? base 0 cs

/-- A digit sequence without its optional plus sign. -/
def unsigned : List Char → List Char
  | '+' :: cs => cs
  | cs => cs

/-- An unsigned number below `bound` in the given base. -/
def readBelow? (base bound : Nat) (cs : List Char) : Option Nat :=
  match digits? base (unsigned cs) with
  | some n => if n < bound then some n else none
  | none => none

theorem readBelow?_lt {base bound n : Nat} {cs : List Char}
    (h : readBelow? base bound cs = some n) : n < bound := by
  unfold readBelow? at h
  split at h
  · split at h
    · next hlt => simp only [Option.some.injEq] at h; omega
    · simp at h
  · simp at h

/-- A 32-bit number in the given base. -/
def readWord? (base : Nat) (cs : List Char) : Option UInt32 :=
  (readBelow? base UInt32.size cs).map UInt32.ofNat

/-- A decimal 32-bit number. -/
def decimalWord? (s : String) : Option UInt32 := readWord? 10 s.toList

/-- A number in decimal, padded with zeros on the left to a least width. -/
def padded (width n : Nat) : String :=
  let ds := Nat.toDigits 10 n
  String.ofList (List.replicate (width - ds.length) '0' ++ ds)

end MeshWatch.Text
