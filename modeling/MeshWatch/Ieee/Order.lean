import MeshWatch.Ieee.Format

/-!
# Comparing and limiting floats

Limits leave NaN alone, as comparisons with it fail. The total order ranks floats
by sign and magnitude bits, so that negative zero comes before zero.

- `clamp_of_lt`: below the range the lower limit is taken.
-/

namespace MeshWatch.Ieee

/-- The nearest number of the range, or NaN itself. -/
def clamp (low high x : Float32) : Float32 :=
  let x := if x < low then low else x
  if high < x then high else x

theorem clamp_of_lt {low high x : Float32} (h : x < low) (hr : ¬ high < low) :
    clamp low high x = low := by
  simp [clamp, h, hr]

/-- The greater of a limit and a number; the limit for NaN. -/
def atLeast (low x : Float32) : Float32 := if low < x then x else low

/-- Within a closed range. -/
def inRange (low high x : Float32) : Bool := low ≤ x && x ≤ high

/-- The rank of a float in the total order. -/
def rank (x : Float32) : Int :=
  let bits := x.toBits.toNat
  if bits < 0x80000000 then bits else -((bits - 0x80000000 : Nat) : Int) - 1

/-- The sum of floats from the left. It starts at negative zero, which changes no number
it is added to. -/
def sum (xs : List Float32) : Float32 := xs.foldl (· + ·) (-0.0)

/-- The mean of floats; zero of none. -/
def mean (xs : List Float32) : Float32 :=
  if xs.isEmpty then 0 else sum xs / Float32.ofNat xs.length

end MeshWatch.Ieee
