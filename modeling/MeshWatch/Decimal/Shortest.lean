import MeshWatch.Ieee.Format

/-!
# The shortest decimal of a float

A float is written with the fewest decimal digits that still read back as the
same float. The reals that round to `m · 2^q` form an interval around it, closed
when `m` is even; for one, two, … digits the two decimals next to the value on
the grid of that many digits are tried, and the first grid that has one inside
the interval gives the digits. Of two hits the nearer is taken, and of two
equally near the even one.

- `trimZeros_pos`: dropping the zeros at the end of a positive number leaves a
  positive number.
-/

namespace MeshWatch.Decimal

/-- The number `significand · 10^exponent`. -/
structure Digits where
  significand : Nat
  exponent : Int
deriving DecidableEq, Repr

/-- A positive value `m · 2^q`, in quarters of its last place, with its rounding
interval. -/
structure Interval where
  /-- Lower end, value and upper end in units of `2^unit`. -/
  low : Nat
  value : Nat
  high : Nat
  unit : Int
  /-- The ends belong to the interval. -/
  closed : Bool
deriving DecidableEq, Repr

/-- The reals that round to `m · 2^q` in a format. Just above a power of two the
numbers below lie twice as dense as those above. -/
def roundingInterval (f : Ieee.Format) (m : Nat) (q : Int) : Interval :=
  let narrowBelow := m == 1 <<< f.fractionBits && q != f.leastExponent
  { low := if narrowBelow then 4 * m - 1 else 4 * m - 2
    value := 4 * m
    high := 4 * m + 2
    unit := q - 2
    closed := m % 2 == 0 }

/-- `2^unit / 10^grid` as a fraction of natural numbers. -/
def ratio (unit grid : Int) : Nat × Nat :=
  (Nat.pow 10 (-grid).toNat <<< unit.toNat, Nat.pow 10 grid.toNat <<< (-unit).toNat)

/-- The multiple of `10^grid` in the interval that lies next to the value, if one
of its two neighbours on the grid is in the interval. -/
def Interval.onGrid? (i : Interval) (grid : Int) : Option Nat :=
  let (num, den) := ratio i.unit grid
  let inside (c : Nat) : Bool :=
    if i.closed then i.low * num ≤ c * den && c * den ≤ i.high * num
    else i.low * num < c * den && c * den < i.high * num
  let below := i.value * num / den
  let above := below + 1
  match inside below, inside above with
  | false, false => none
  | true, false => some below
  | false, true => some above
  | true, true =>
    let down := i.value * num - below * den
    let up := above * den - i.value * num
    some (if down < up ∨ (down = up ∧ below % 2 = 0) then below else above)

/-- The greatest exponent from `e` on, at most `steps` higher, whose power of ten
does not exceed the value. -/
def Interval.decade (i : Interval) (e : Int) : (steps : Nat) → Int
  | 0 => e
  | steps + 1 =>
    let (num, den) := ratio i.unit (e + 1)
    if den ≤ i.value * num then i.decade (e + 1) steps else e

/-- The position of the value's leading decimal digit: an estimate from the
position of its leading bit, never too high, and then corrected. -/
def Interval.leading (i : Interval) : Int :=
  i.decade ((Nat.log2 i.value + i.unit) * 30103 / 100000 - 1) 4

/-- The first hit among the grids of `digits`, `digits + 1`, … digits. -/
def Interval.search (i : Interval) (leading : Int) (digits : Nat) : (steps : Nat) → Option Digits
  | 0 => none
  | steps + 1 =>
    let grid := leading + 1 - digits
    match i.onGrid? grid with
    | some c => some ⟨c, grid⟩
    | none => i.search leading (digits + 1) steps

/-- A number without the zeros at its end, and how many there were. -/
def trimZeros (fuel n zeros : Nat) : Nat × Nat :=
  match fuel with
  | 0 => (n, zeros)
  | fuel + 1 => if n % 10 = 0 then trimZeros fuel (n / 10) (zeros + 1) else (n, zeros)

theorem trimZeros_pos (fuel n zeros : Nat) (h : 0 < n) : 0 < (trimZeros fuel n zeros).1 := by
  induction fuel generalizing n zeros with
  | zero => exact h
  | succ fuel ih =>
    rw [trimZeros]
    split
    · exact ih _ _ (by omega)
    · exact h

/-- The shortest decimal that reads back as `m · 2^q`; seventeen digits are enough
for every number of either width. -/
def shortest (f : Ieee.Format) (m : Nat) (q : Int) : Digits :=
  if m = 0 then ⟨0, 0⟩
  else
    let i := roundingInterval f m q
    let found := (i.search i.leading 1 17).getD ⟨0, 0⟩
    let (n, zeros) := trimZeros 20 found.significand 0
    ⟨n, found.exponent + zeros⟩

end MeshWatch.Decimal
