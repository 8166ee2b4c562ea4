/-!
# Binary floating-point formats

Floating-point words of IEEE 754 and the numbers they stand for: a word is taken
apart into an exact `m · 2^q`, and an exact `m · 2^q` is packed into the word of
the nearest number of a format, ties to the even one. Conversions between the two
widths and rounding to an integer are defined through that pair, so each is exact
arithmetic on natural numbers and nothing depends on a processor.

- `Format.pack_zero`: a zero keeps its sign and nothing else.
- `roundHalfEven_exact`: a multiple of the divisor is divided without rounding.
-/

namespace MeshWatch.Ieee

/-- The widths of the two fields below the sign bit. -/
structure Format where
  fractionBits : Nat
  exponentBits : Nat
deriving DecidableEq, Repr

/-- The 32-bit format. -/
def single : Format := ⟨23, 8⟩

/-- The 64-bit format. -/
def double : Format := ⟨52, 11⟩

/-- What a word stands for: `finite s m q` is `m · 2^q`, negated when `s`. -/
inductive Value where
  | nan
  | infinite (negative : Bool)
  | finite (negative : Bool) (m : Nat) (q : Int)
deriving DecidableEq, Repr

namespace Format

/-- Offset of the stored exponent. -/
def bias (f : Format) : Int := ((1 <<< (f.exponentBits - 1)) - 1 : Nat)

/-- The exponent of two that the smallest numbers are multiples of. -/
def leastExponent (f : Format) : Int := 1 - f.bias - f.fractionBits

/-- The stored exponent of infinities and NaN. -/
def topExponent (f : Format) : Nat := (1 <<< f.exponentBits) - 1

/-- The magnitude bits of infinity. -/
def infinity (f : Format) : Nat := f.topExponent <<< f.fractionBits

/-- The sign bit, set or not. -/
def sign (f : Format) (negative : Bool) : Nat :=
  if negative then 1 <<< (f.fractionBits + f.exponentBits) else 0

/-- The number that a word stands for. -/
def unpack (f : Format) (word : Nat) : Value :=
  let fraction := word % (1 <<< f.fractionBits)
  let exponent := (word >>> f.fractionBits) % (1 <<< f.exponentBits)
  let negative := (word >>> (f.fractionBits + f.exponentBits)) % 2 == 1
  if exponent = f.topExponent then
    if fraction = 0 then .infinite negative else .nan
  else if exponent = 0 then .finite negative fraction f.leastExponent
  else .finite negative ((1 <<< f.fractionBits) + fraction) (f.leastExponent + exponent - 1)

end Format

/-- The quotient rounded to the nearest natural number, ties to the even one. -/
def roundHalfEven (n d : Nat) : Nat :=
  let q := n / d
  let r := n % d
  if d < 2 * r ∨ (2 * r = d ∧ q % 2 = 1) then q + 1 else q

theorem roundHalfEven_exact (n d : Nat) (hd : 0 < d) : roundHalfEven (n * d) d = n := by
  simp [roundHalfEven, Nat.mul_div_cancel n hd, Nat.ne_of_lt hd]

/-- `m · 2^shift` rounded to a natural number. -/
def shiftRounded (m : Nat) (shift : Int) : Nat :=
  if 0 ≤ shift then m <<< shift.toNat else roundHalfEven m (1 <<< (-shift).toNat)

namespace Format

/-- The word of the number nearest to a value; too large a magnitude is infinite.
A significand that rounds up to the next power of two carries into the exponent
field by itself. -/
def pack (f : Format) : Value → Nat
  | .nan => f.infinity + (1 <<< (f.fractionBits - 1))
  | .infinite negative => f.sign negative + f.infinity
  | .finite negative m q =>
    if m = 0 then f.sign negative
    else
      let target := max (Nat.log2 m + q - f.fractionBits) f.leastExponent
      let significand := shiftRounded m (q - target)
      let magnitude := ((target - f.leastExponent).toNat <<< f.fractionBits) + significand
      f.sign negative + min magnitude f.infinity

theorem pack_zero (f : Format) (negative : Bool) (q : Int) :
    f.pack (.finite negative 0 q) = f.sign negative := by simp [pack]

theorem unpack_zero_single : single.unpack 0 = .finite false 0 (-149) := by decide

theorem unpack_zero_double : double.unpack 0 = .finite false 0 (-1074) := by decide

end Format

/-! ## The two machine widths -/

/-- The number a 32-bit float stands for. -/
def ofSingle (x : Float32) : Value := single.unpack x.toBits.toNat

/-- The number a 64-bit float stands for. -/
def ofDouble (x : Float) : Value := double.unpack x.toBits.toNat

/-- The 64-bit float nearest to a value. -/
def toDouble (v : Value) : Float := Float.ofBits (UInt64.ofNat (double.pack v))

/-- The 32-bit float nearest to a value. -/
def toSingle (v : Value) : Float32 := Float32.ofBits (UInt32.ofNat (single.pack v))

/-- The 64-bit float of the same value. -/
def widen (x : Float32) : Float := toDouble (ofSingle x)

/-- The nearest 32-bit float. -/
def narrow (x : Float) : Float32 := toSingle (ofDouble x)

/-! ## Integers -/

/-- The integer nearest to a finite value, halves away from zero; `none` for an
infinity and for NaN. -/
def Value.nearestInt? : Value → Option Int
  | .nan => none
  | .infinite _ => none
  | .finite negative m q =>
    let magnitude :=
      if 0 ≤ q then m <<< q.toNat
      else (m + (1 <<< (-q - 1).toNat)) >>> (-q).toNat
    some (if negative then -(magnitude : Int) else magnitude)

end MeshWatch.Ieee
