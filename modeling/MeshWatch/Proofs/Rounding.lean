import Mathlib.Algebra.Order.Field.Power
import Mathlib.Algebra.Order.Field.Rat
import Mathlib.Data.Int.Log
import Mathlib.Data.Rat.Floor
import Mathlib.Data.Sign.Basic
import Mathlib.Tactic.GCongr
import Mathlib.Tactic.Linarith
import Mathlib.Tactic.NormNum
import Mathlib.Tactic.Positivity
import Mathlib.Tactic.Ring

/-!
# Rounding to the 32-bit format

Arithmetic on floats is exact arithmetic followed by a rounding. That is told here once for
all operations, of rational numbers: the nearest number of the format is taken, and of two
equally near ones that with the even mantissa. So the result depends on nothing but the exact
one and keeps its order, and whatever is computed of floats step by step keeps it, too.

- `nearest`: the rounding of a rational number. `abs_nearest_sub_le`: none is nearer.
- `nearest_mono`: order is kept. `nearest_of_representable`: numbers of the format are, too.
- `RoundsTo`: a result that is the rounding of an exact number.
- `roundsTo_roundWithAccuracy`: what the model does to all of its results.
- `roundsTo_add`, `roundsTo_sub`, `roundsTo_mul`, `roundsTo_div`: operations.
-/

namespace MeshWatch.Ieee

open Float.Model
open Float.Model.UnpackedFloat

variable {a b c q x : ℚ} {m : Nat} {e : Int}

/-! ## The nearest whole number -/

/-- The nearest whole number, and the even one of two. -/
def halfEven (x : ℚ) : Nat :=
  if x < ⌊x⌋₊ + 1 / 2 then ⌊x⌋₊
  else if ⌊x⌋₊ + 1 / 2 < x then ⌊x⌋₊ + 1
  else ⌊x⌋₊ + ⌊x⌋₊ % 2

theorem floor_le_halfEven (x : ℚ) : ⌊x⌋₊ ≤ halfEven x := by
  unfold halfEven
  split_ifs <;> omega

theorem halfEven_le_floor_succ (x : ℚ) : halfEven x ≤ ⌊x⌋₊ + 1 := by
  unfold halfEven
  split_ifs <;> omega

/-- It is no further away than the next whole numbers on both sides. -/
theorem abs_halfEven_sub_le_fract (hx : 0 ≤ x) :
    |(halfEven x : ℚ) - x| ≤ x - ⌊x⌋₊ ∧ |(halfEven x : ℚ) - x| ≤ ⌊x⌋₊ + 1 - x := by
  have hlow := Nat.floor_le hx
  have hhigh := Nat.lt_floor_add_one x
  unfold halfEven
  split_ifs with h h'
  · rw [abs_of_nonpos (by linarith)]
    constructor <;> linarith
  · rw [Nat.cast_add_one, abs_of_nonneg (by linarith)]
    constructor <;> linarith
  · have hhalf : x = ⌊x⌋₊ + 1 / 2 := by linarith
    have hbit : ((⌊x⌋₊ % 2 : Nat) : ℚ) = 0 ∨ ((⌊x⌋₊ % 2 : Nat) : ℚ) = 1 := by
      rcases Nat.mod_two_eq_zero_or_one ⌊x⌋₊ with h0 | h1
      · exact Or.inl (by rw [h0, Nat.cast_zero])
      · exact Or.inr (by rw [h1, Nat.cast_one])
    rw [Nat.cast_add, abs_le, abs_le]
    rcases hbit with h0 | h1
    · rw [h0]
      constructor <;> constructor <;> linarith
    · rw [h1]
      constructor <;> constructor <;> linarith

/-- No whole number is nearer. -/
theorem abs_halfEven_sub_le (hx : 0 ≤ x) (n : Int) : |(halfEven x : ℚ) - x| ≤ |n - x| := by
  obtain ⟨hbelow, habove⟩ := abs_halfEven_sub_le_fract hx
  obtain hn | hn := le_or_gt n ⌊x⌋₊
  · have hn' : (n : ℚ) ≤ ⌊x⌋₊ := by exact_mod_cast hn
    have hdist := neg_le_abs ((n : ℚ) - x)
    linarith
  · have hn' : (⌊x⌋₊ : ℚ) + 1 ≤ n := by exact_mod_cast hn
    have hdist := le_abs_self ((n : ℚ) - x)
    linarith

/-! ## The nearest number of the format -/

/-- A number that the 32-bit format has. -/
def Representable (b : ℚ) : Prop :=
  ∃ m : Nat, ∃ e : Int, m < 2 ^ 24 ∧ -149 ≤ e ∧ b = m * 2 ^ e

theorem representable_natCast {n : Nat} (h : n < 2 ^ 24) : Representable n :=
  ⟨n, 0, h, by decide, by simp⟩

theorem two_zpow_add_natCast (e : Int) (k : Nat) : (2 : ℚ) ^ (e + k) = 2 ^ k * 2 ^ e := by
  rw [zpow_add₀ two_ne_zero, zpow_natCast, mul_comm]

/-- The place of the last bit of a number: it has 24 of them, or as many as there are. -/
def lastPlace (q : ℚ) : Int := max (Int.log 2 |q| - 23) (-149)

/-- The number of the format that is nearest to a number, whatever its size. -/
def nearest (q : ℚ) : ℚ :=
  SignType.sign q * (halfEven (|q| / 2 ^ lastPlace q) * 2 ^ lastPlace q)

theorem nearest_of_pos (hq : 0 < q) :
    nearest q = halfEven (q / 2 ^ lastPlace q) * 2 ^ lastPlace q := by
  rw [nearest, sign_pos hq, SignType.coe_one, one_mul, abs_of_pos hq]

theorem nearest_zero : nearest 0 = 0 := by simp [nearest]

theorem nearest_neg (q : ℚ) : nearest (-q) = -nearest q := by
  unfold nearest lastPlace
  rw [abs_neg, Left.sign_neg, SignType.coe_neg, neg_mul]

theorem nearest_nonneg (hq : 0 ≤ q) : 0 ≤ nearest q := by
  obtain rfl | hpos := hq.eq_or_lt
  · exact nearest_zero.ge
  · rw [nearest_of_pos hpos]
    positivity

/-- What is shown of positive numbers and their nearest ones holds of the opposite ones. -/
theorem nearest_cases {P : ℚ → ℚ → Prop} (hzero : P 0 0) (hpos : ∀ q > 0, P q (nearest q))
    (hneg : ∀ q r, P q r → P (-q) (-r)) (q : ℚ) : P q (nearest q) := by
  obtain hlt | rfl | hgt := lt_trichotomy q 0
  · have h := hneg _ _ (hpos (-q) (neg_pos.2 hlt))
    rwa [nearest_neg, neg_neg, neg_neg] at h
  · rwa [nearest_zero]
  · exact hpos q hgt

/-- Numbers have 24 bits at most down to their last place. -/
theorem abs_lt_two_zpow (q : ℚ) : |q| < 2 ^ (lastPlace q + 24) := by
  have hlog := Int.lt_zpow_succ_log_self (b := 2) (by decide) |q|
  refine hlog.trans_le (zpow_le_zpow_right₀ one_le_two ?_)
  have := le_max_left (Int.log 2 |q| - 23) (-149)
  unfold lastPlace
  omega

/-- If the place is not the lowest one, they have no less. -/
theorem two_zpow_le_abs (hq : q ≠ 0) (h : -149 < lastPlace q) : 2 ^ (lastPlace q + 23) ≤ |q| := by
  have hlog := Int.zpow_log_le_self (b := 2) (by decide) (abs_pos.2 hq)
  refine le_trans (zpow_le_zpow_right₀ one_le_two ?_) hlog
  unfold lastPlace at h ⊢
  omega

theorem halfEven_le_two_pow (q : ℚ) : halfEven (|q| / 2 ^ lastPlace q) ≤ 2 ^ 24 := by
  have hpos : (0 : ℚ) < 2 ^ lastPlace q := by positivity
  refine (halfEven_le_floor_succ _).trans ?_
  rw [Nat.add_one_le_iff, Nat.floor_lt (by positivity), div_lt_iff₀ hpos]
  refine (abs_lt_two_zpow q).trans_eq ?_
  rw [zpow_add₀ two_ne_zero, mul_comm]
  norm_num

theorem representable_nearest (q : ℚ) : Representable |nearest q| := by
  refine nearest_cases (P := fun _ r => Representable |r|) ?_ (fun q hq => ?_) (fun _ r h => ?_) q
  · exact ⟨0, 0, by decide, by decide, by simp⟩
  · have hle := halfEven_le_two_pow q
    have hplace : -149 ≤ lastPlace q := le_max_right _ _
    rw [abs_of_nonneg (nearest_nonneg hq.le), nearest_of_pos hq]
    rw [abs_of_pos hq] at hle
    obtain heq | hlt := hle.eq_or_lt
    · refine ⟨2 ^ 23, lastPlace q + 1, by decide, by omega, ?_⟩
      rw [heq, zpow_add₀ two_ne_zero]
      norm_num
      ring
    · exact ⟨_, lastPlace q, hlt, hplace, rfl⟩
  · rwa [abs_neg]

/-- Numbers of the format go down to the last place of a number, or lie below all that have
24 bits there. -/
theorem Representable.cases (hb : Representable b) (t : Int) :
    (∃ n : Nat, b = n * 2 ^ t) ∨ (-149 < t ∧ b < 2 ^ (t + 23)) := by
  obtain ⟨m, e, hm, he, rfl⟩ := hb
  obtain hle | hlt := le_or_gt t e
  · obtain ⟨k, rfl⟩ := Int.le.dest hle
    refine Or.inl ⟨m * 2 ^ k, ?_⟩
    rw [two_zpow_add_natCast, Nat.cast_mul, Nat.cast_pow, Nat.cast_ofNat, mul_assoc]
  · refine Or.inr ⟨by omega, ?_⟩
    have hm' : (m : ℚ) < 2 ^ (24 : Int) := by exact_mod_cast hm
    calc (m : ℚ) * 2 ^ e < 2 ^ (24 : Int) * 2 ^ e := by gcongr
      _ = 2 ^ (24 + e) := (zpow_add₀ two_ne_zero ..).symm
      _ ≤ 2 ^ (t + 23) := zpow_le_zpow_right₀ one_le_two (by omega)

theorem abs_nearest_sub_le_of_pos (hq : 0 < q) {s : ℚ} (hs : Representable |s|) :
    |nearest q - q| ≤ |s - q| := by
  set t := lastPlace q
  have hplace : (0 : ℚ) < 2 ^ t := by positivity
  have hx : q / 2 ^ t * 2 ^ t = q := div_mul_cancel₀ q hplace.ne'
  -- multiples of the last place are no nearer
  have hwhole : ∀ n : Int, |nearest q - q| ≤ |n * 2 ^ t - q| := by
    intro n
    have hn := abs_halfEven_sub_le (show 0 ≤ q / 2 ^ t by positivity) n
    have hscaled := mul_le_mul_of_nonneg_right hn hplace.le
    rw [← abs_of_pos hplace, ← abs_mul, ← abs_mul, abs_of_pos hplace, sub_mul, sub_mul, hx]
      at hscaled
    rwa [nearest_of_pos hq]
  rcases hs.cases t with ⟨n, hn⟩ | ⟨ht, hlow⟩
  · rcases abs_choice s with he | he
    · rw [he] at hn
      rw [hn]
      exact_mod_cast hwhole n
    · have hneg := hwhole (-n)
      rw [Int.cast_neg, Int.cast_natCast, neg_mul, ← hn, he, neg_neg] at hneg
      exact hneg
  · -- others lie below all multiples that have 24 bits
    have hfull := two_zpow_le_abs hq.ne' ht
    have hnear := hwhole (2 ^ 23)
    have hpow : ((2 ^ 23 : Int) : ℚ) * 2 ^ t = 2 ^ (t + 23) := by
      rw [Int.cast_pow, Int.cast_ofNat]
      exact (two_zpow_add_natCast t 23).symm
    rw [abs_of_pos hq] at hfull
    have hfar : |(2 : ℚ) ^ (t + 23) - q| = q - 2 ^ (t + 23) := by
      rw [abs_sub_comm]
      exact abs_of_nonneg (sub_nonneg.2 hfull)
    rw [hpow, hfar] at hnear
    have hs := le_abs_self s
    have hdist := neg_le_abs (s - q)
    linarith

/-- **No number of the format is nearer.** -/
theorem abs_nearest_sub_le (q : ℚ) {s : ℚ} (hs : Representable |s|) :
    |nearest q - q| ≤ |s - q| := by
  refine nearest_cases (P := fun q r => ∀ s, Representable |s| → |r - q| ≤ |s - q|) ?_
    (fun q hq s hs => abs_nearest_sub_le_of_pos hq hs) (fun q r h s hs => ?_) q s hs
  · intro s _
    rw [sub_zero, sub_zero, abs_zero]
    exact abs_nonneg s
  · have hopp := h (-s) (by rwa [abs_neg])
    rwa [show -r - -q = -(r - q) by ring, abs_neg, show s - -q = -(-s - q) by ring, abs_neg]

theorem nearest_of_representable (h : Representable |q|) : nearest q = q := by
  have hself := abs_nearest_sub_le q h
  rw [sub_self, abs_zero] at hself
  exact sub_eq_zero.1 (abs_nonpos_iff.1 hself)

/-- **Order is kept.** -/
theorem nearest_mono (h : a ≤ b) : nearest a ≤ nearest b := by
  obtain rfl | hlt := h.eq_or_lt
  · exact le_rfl
  · -- each is nearer to its own number than the other one, and the numbers lie in order
    have ha := abs_nearest_sub_le a (representable_nearest b)
    have hb := abs_nearest_sub_le b (representable_nearest a)
    by_contra hgt
    rw [not_le] at hgt
    have hup := le_abs_self (nearest a - a)
    have hdown := neg_le_abs (nearest b - b)
    rcases abs_cases (nearest b - a) with ⟨he, -⟩ | ⟨he, -⟩ <;>
      rcases abs_cases (nearest a - b) with ⟨he', -⟩ | ⟨he', -⟩ <;> linarith

/-- A bound that is of the format is one of the rounding, too. -/
theorem abs_nearest_le (hb : Representable b) (h : |q| ≤ b) : |nearest q| ≤ b := by
  have hself : nearest b = b := by
    refine nearest_of_representable ?_
    rwa [abs_of_nonneg ((abs_nonneg q).trans h)]
  rw [abs_le] at h ⊢
  rw [← hself, ← nearest_neg]
  exact ⟨nearest_mono h.1, nearest_mono h.2⟩

/-! ## What the model rounds -/

theorem mantissa_ofMantissaAndAccuracy (m : Nat) (acc : Accuracy) :
    (ExtendedMantissa.ofMantissaAndAccuracy m acc).mantissa = m := by
  unfold ExtendedMantissa.ofMantissaAndAccuracy
  split <;> rfl

theorem mantissa_shiftRight (em : ExtendedMantissa) (n : Nat) :
    (em >>> n).mantissa = em.mantissa / 2 ^ n := by
  induction n with
  | zero => exact (Nat.div_one _).symm
  | succ n ih =>
    show (em >>> n).mantissa / 2 = _
    rw [ih, Nat.div_div_eq_div_mul, Nat.pow_succ]

/-- The mantissa and the two bits behind it stand for a number, of which they tell enough. -/
def Reads (em : ExtendedMantissa) (x : ℚ) : Prop :=
  match em.roundBit, em.stickyBit with
  | false, false => x = em.mantissa
  | false, true => em.mantissa < x ∧ x < em.mantissa + 1 / 2
  | true, false => x = em.mantissa + 1 / 2
  | true, true => em.mantissa + 1 / 2 < x ∧ x < em.mantissa + 1

variable {em : ExtendedMantissa} {acc : Accuracy} {s : Sign}

theorem Reads.bounds (h : Reads em x) : em.mantissa ≤ x ∧ x < em.mantissa + 1 := by
  obtain ⟨m, r, t⟩ := em
  cases r <;> cases t <;> simp only [Reads] at h ⊢ <;> constructor <;> linarith

theorem Reads.floor (h : Reads em x) : ⌊x⌋₊ = em.mantissa := by
  obtain ⟨hle, hlt⟩ := h.bounds
  exact (Nat.floor_eq_iff (le_trans (Nat.cast_nonneg _) hle)).2 ⟨hle, hlt⟩

/-- The bits are enough to round by. -/
theorem Reads.roundedMantissa (h : Reads em x) : em.roundedMantissa = halfEven x := by
  rw [halfEven, h.floor]
  obtain ⟨m, r, t⟩ := em
  cases r <;> cases t <;>
    simp only [Reads, ExtendedMantissa.roundedMantissa, ExtendedMantissa.accuracy,
      Accuracy.roundToNearestEven] at h ⊢
  · rw [if_pos (by linarith)]
  · rw [if_pos (by linarith)]
  · rw [if_neg (by linarith), if_neg (by linarith)]
  · rw [if_neg (by linarith), if_pos (by linarith)]

theorem Reads.shiftRightOne (h : Reads em x) : Reads em.shiftRightOne (x / 2) := by
  obtain ⟨m, r, t⟩ := em
  obtain ⟨n, rfl | rfl⟩ := Nat.even_or_odd' m
  · have hhalf : 2 * n / 2 = n := by omega
    have hbit : (2 * n % 2 != 0) = false := by simp
    cases r <;> cases t <;>
      simp only [Reads, ExtendedMantissa.shiftRightOne, hhalf, hbit, Bool.or_false, Bool.or_true,
        Nat.cast_mul, Nat.cast_ofNat] at h ⊢
    · linarith
    · constructor <;> linarith
    · constructor <;> linarith
    · constructor <;> linarith
  · have hhalf : (2 * n + 1) / 2 = n := by omega
    have hbit : ((2 * n + 1) % 2 != 0) = true := by simp
    cases r <;> cases t <;>
      simp only [Reads, ExtendedMantissa.shiftRightOne, hhalf, hbit, Bool.or_false, Bool.or_true,
        Nat.cast_add, Nat.cast_mul, Nat.cast_ofNat, Nat.cast_one] at h ⊢
    · linarith
    · constructor <;> linarith
    · constructor <;> linarith
    · constructor <;> linarith

theorem Reads.shiftRight (h : Reads em x) (n : Nat) : Reads (em >>> n) (x / 2 ^ n) := by
  induction n with
  | zero => rwa [pow_zero, div_one]
  | succ n ih =>
    rw [pow_succ, ← div_div]
    exact ih.shiftRightOne

theorem reads_exact (m : Nat) : Reads (.ofMantissaAndAccuracy m .exact) m := rfl

/-- The quotient of whole numbers, with the accuracy that its remainder tells. -/
theorem reads_quotient (n : Nat) {d : Nat} (hd : 0 < d) :
    Reads (.ofMantissaAndAccuracy (n / d) (accuracyOfFraction (n % d) d)) (n / d) := by
  have hd' : (0 : ℚ) < d := by exact_mod_cast hd
  have hsum : (n : ℚ) / d = (n / d : Nat) + (n % d : Nat) / d := by
    rw [div_eq_iff hd'.ne', add_mul, div_mul_cancel₀ _ hd'.ne']
    exact_mod_cast (Nat.div_add_mod' n d).symm
  have hlt : ((n % d : Nat) : ℚ) < d := by exact_mod_cast Nat.mod_lt n hd
  rw [hsum]
  generalize n / d = k at *
  generalize n % d = r at *
  unfold accuracyOfFraction
  split
  · next h0 =>
    rw [h0, Nat.cast_zero, zero_div, add_zero]
    exact reads_exact k
  · next h0 =>
    have hpos : (0 : ℚ) < r := by exact_mod_cast Nat.pos_of_ne_zero h0
    have hfrac : 0 < (r : ℚ) / d := by positivity
    have hone : (r : ℚ) / d < 1 := (div_lt_one hd').2 hlt
    rcases h : compare (2 * r) d with _ | _ | _
    · have hless : 2 * (r : ℚ) < d := by exact_mod_cast Nat.compare_eq_lt.1 h
      have hhalf : (r : ℚ) / d < 1 / 2 := by
        rw [div_lt_div_iff₀ hd' two_pos]
        linarith
      show (k : ℚ) < k + r / d ∧ (k : ℚ) + r / d < k + 1 / 2
      constructor <;> linarith
    · have heq : 2 * (r : ℚ) = d := by exact_mod_cast Nat.compare_eq_eq.1 h
      have hhalf : (r : ℚ) / d = 1 / 2 := by
        rw [div_eq_div_iff hd'.ne' two_ne_zero]
        linarith
      show (k : ℚ) + r / d = k + 1 / 2
      rw [hhalf]
    · have hmore : (d : ℚ) < 2 * r := by exact_mod_cast Nat.compare_eq_gt.1 h
      have hhalf : 1 / 2 < (r : ℚ) / d := by
        rw [div_lt_div_iff₀ two_pos hd']
        linarith
      show (k : ℚ) + 1 / 2 < k + r / d ∧ (k : ℚ) + r / d < k + 1
      constructor <;> linarith

/-! ## Values -/

/-- A number with a sign. -/
def signed (s : Sign) (q : ℚ) : ℚ :=
  match s with
  | .positive => q
  | .negative => -q

/-- The number that a float stands for. -/
def worth : UnpackedFloat → ℚ
  | .finite s m e _ => signed s (m * 2 ^ e)
  | _ => 0

/-- Taken apart as words are: with all bits of the mantissa, or at the lowest place. -/
def Canonical : UnpackedFloat → Prop
  | .finite _ m e _ => m < 2 ^ 24 ∧ -149 ≤ e ∧ (2 ^ 23 ≤ m ∨ e = -149)
  | _ => True

/-- A result that is the rounding of an exact number. -/
structure RoundsTo (u : UnpackedFloat) (q : ℚ) : Prop where
  worth_eq : worth u = nearest q
  canonical : Canonical u
  isFinite : u.isFinite = true

theorem nearest_signed (s : Sign) (q : ℚ) : nearest (signed s q) = signed s (nearest q) := by
  cases s with
  | positive => rfl
  | negative => exact nearest_neg q

/-- There are enough bits in front of the last place. -/
def Full (m : Nat) (e : Int) : Prop := 2 ^ 23 ≤ m ∨ e ≤ -149

theorem targetExponent_eq (m : Nat) (e : Int) :
    Format.binary32.targetExponent (totalExponent m e) = max (m.log2 + e - 23) (-149) := by
  have hdef : Format.binary32.targetExponent (totalExponent m e)
      = max (m.log2 + 1 + e - 24) (-149) := rfl
  rw [hdef]
  omega

theorem Full.le_targetExponent (h : Full m e) :
    e ≤ Format.binary32.targetExponent (totalExponent m e) := by
  rw [targetExponent_eq]
  rcases h with hm | he
  · have hlog : 23 ≤ m.log2 := (Nat.le_log2 (by omega)).2 hm
    omega
  · omega

/-- The model finds the last place by the bits of the mantissa. -/
theorem lastPlace_eq (hm : (m : ℚ) ≤ x) (hm' : x < m + 1) (hx : 0 < x) (h : Full m e) :
    lastPlace (x * 2 ^ e) = Format.binary32.targetExponent (totalExponent m e) := by
  have hpos : 0 < x * 2 ^ e := by positivity
  rw [targetExponent_eq, lastPlace, abs_of_pos hpos]
  by_cases h0 : m = 0
  · -- less than one at the lowest place
    subst h0
    have he : e ≤ -149 := by
      rcases h with h | h
      · cases h
      · exact h
    have hlog : Int.log 2 (x * 2 ^ e) < e := by
      rw [← Int.lt_zpow_iff_log_lt (by decide) hpos]
      have hone : x < 1 := by simpa using hm'
      exact mul_lt_of_lt_one_left (by positivity) hone
    rw [Nat.log2_zero]
    omega
  · have hlow : (2 : ℚ) ^ (m.log2 + e : Int) ≤ x * 2 ^ e := by
      rw [zpow_add₀ two_ne_zero, zpow_natCast]
      gcongr
      refine le_trans ?_ hm
      exact_mod_cast Nat.log2_self_le h0
    have hhigh : x * 2 ^ e < (2 : ℚ) ^ (m.log2 + 1 + e : Int) := by
      rw [zpow_add₀ two_ne_zero]
      gcongr
      refine hm'.trans_le ?_
      exact_mod_cast Nat.lt_log2_self
    have hlog : Int.log 2 (x * 2 ^ e) = m.log2 + e := by
      have h₁ : (m.log2 + e : Int) ≤ Int.log 2 (x * 2 ^ e) :=
        (Int.zpow_le_iff_le_log (by decide) hpos).1 (by exact_mod_cast hlow)
      have h₂ : Int.log 2 (x * 2 ^ e) < m.log2 + 1 + e :=
        (Int.lt_zpow_iff_log_lt (by decide) hpos).1 (by exact_mod_cast hhigh)
      omega
    rw [hlog]

theorem worth_finite (s : Sign) (m : Nat) (e : Int) (hm : 0 < m) :
    worth (.finite s m e hm) = signed s (m * 2 ^ e) := rfl

theorem signed_zero (s : Sign) : signed s 0 = 0 := by
  cases s with
  | positive => rfl
  | negative => exact neg_zero

/-- The model shifts once to cut off what is too much, and rounds. The mantissa may have got one
bit more by that. -/
theorem cut_mantissa (hx : Reads (.ofMantissaAndAccuracy m acc) x) (hx0 : 0 < x) (h : Full m e) :
    ∃ r t, (shiftToTargetExponent .binary32 m e acc).1.roundedMantissa = r ∧
      (shiftToTargetExponent .binary32 m e acc).2 = t ∧ nearest (x * 2 ^ e) = r * 2 ^ t ∧
      r ≤ 2 ^ 24 ∧ -149 ≤ t ∧ (2 ^ 23 ≤ r ∨ t = -149) := by
  have hbounds := hx.bounds
  rw [mantissa_ofMantissaAndAccuracy] at hbounds
  have hplace := lastPlace_eq hbounds.1 hbounds.2 hx0 h
  have hle := h.le_targetExponent
  have hlow : -149 ≤ Format.binary32.targetExponent (totalExponent m e) := by
    rw [targetExponent_eq]
    exact le_max_right _ _
  have hpos : 0 < x * 2 ^ e := by positivity
  have hsize := halfEven_le_two_pow (x * 2 ^ e)
  have hbits := two_zpow_le_abs hpos.ne'
  have hnear := nearest_of_pos hpos
  unfold shiftToTargetExponent shiftToExponent
  rw [abs_of_pos hpos] at hsize hbits
  rw [hplace] at hnear hsize hbits
  generalize Format.binary32.targetExponent (totalExponent m e) = t at *
  obtain ⟨k, rfl⟩ := Int.le.dest hle
  have hscale : x * 2 ^ e / 2 ^ (e + k) = x / 2 ^ k := by
    rw [two_zpow_add_natCast, mul_div_mul_right _ _ (by positivity : (2 : ℚ) ^ e ≠ 0)]
  have hk : (e + k - e).toNat = k := by omega
  rw [hscale] at hnear hsize
  dsimp only
  rw [hk]
  refine ⟨_, _, (hx.shiftRight k).roundedMantissa, rfl, hnear, hsize, hlow, ?_⟩
  obtain heq | hgt := hlow.eq_or_lt
  · exact Or.inr heq.symm
  · refine Or.inl (le_trans (Nat.le_floor ?_) (floor_le_halfEven _))
    rw [← hscale, le_div_iff₀ (by positivity)]
    refine le_of_eq_of_le ?_ (hbits hgt)
    rw [Nat.cast_pow, Nat.cast_ofNat]
    exact (two_zpow_add_natCast (e + k) 23).symm

/-- It shifts once more, and the bit goes to the exponent. Nothing is lost then. -/
theorem settled_mantissa {r : Nat} {t : Int} (hr : r ≤ 2 ^ 24) (ht : -149 ≤ t)
    (hc : 2 ^ 23 ≤ r ∨ t = -149) :
    ∃ m e, (shiftToTargetExponent .binary32 r t .exact).1.mantissa = m ∧
      (shiftToTargetExponent .binary32 r t .exact).2 = e ∧ (m * 2 ^ e : ℚ) = r * 2 ^ t ∧
      m < 2 ^ 24 ∧ -149 ≤ e ∧ (2 ^ 23 ≤ m ∨ e = -149) := by
  unfold shiftToTargetExponent shiftToExponent
  rw [targetExponent_eq]
  dsimp only
  generalize hk : (max (r.log2 + t - 23) (-149) - t).toNat = k
  have hmant : (ExtendedMantissa.ofMantissaAndAccuracy r .exact >>> k).mantissa = r / 2 ^ k :=
    mantissa_shiftRight _ k
  obtain rfl | hlt := hr.eq_or_lt
  · rw [Nat.log2_two_pow] at hk
    obtain rfl : k = 1 := by omega
    refine ⟨2 ^ 23, t + 1, hmant, rfl, ?_, by decide, by omega, Or.inl le_rfl⟩
    rw [zpow_add_one₀ two_ne_zero]
    norm_num
    ring
  · have hlog : r.log2 ≤ 23 := by
      by_cases h0 : r = 0
      · rw [h0, Nat.log2_zero]
        decide
      · exact Nat.le_of_lt_succ ((Nat.log2_lt h0).2 hlt)
    obtain rfl : k = 0 := by omega
    exact ⟨r, t, hmant.trans (Nat.div_one r), add_zero t, rfl, hlt, ht, hc⟩

theorem roundsTo_of_mantissa (hq : signed s (m * 2 ^ e) = nearest q) (hm : m < 2 ^ 24)
    (he : -149 ≤ e) (hc : 2 ^ 23 ≤ m ∨ e = -149) :
    RoundsTo (if h : m = 0 then .zero s else .finite s m e (Nat.pos_of_ne_zero h)) q := by
  by_cases h0 : m = 0
  · rw [dif_pos h0]
    rw [h0, Nat.cast_zero, zero_mul, signed_zero] at hq
    exact ⟨hq, trivial, rfl⟩
  · rw [dif_neg h0]
    exact ⟨hq, ⟨hm, he, hc⟩, rfl⟩

/-- **Rounding.** The model rounds a number of which enough bits are known to the nearest one
of the format. -/
theorem roundsTo_roundWithAccuracy (s : Sign) (hx : Reads (.ofMantissaAndAccuracy m acc) x)
    (hx0 : 0 < x) (h : Full m e) :
    RoundsTo (roundWithAccuracy .binary32 s m e acc) (signed s (x * 2 ^ e)) := by
  obtain ⟨r, t, hr, ht, hnear, hsize, hlow, hfull⟩ := cut_mantissa hx hx0 h
  obtain ⟨m', e', hm', he', hvalue, hlt, hlow', hfull'⟩ := settled_mantissa hsize hlow hfull
  unfold roundWithAccuracy
  dsimp only
  rw [hr, ht, hm', he']
  refine roundsTo_of_mantissa ?_ hlt hlow' hfull'
  rw [nearest_signed, hnear, hvalue]

theorem roundsTo_round (s : Sign) (hm : 0 < m) (e : Int) :
    RoundsTo (UnpackedFloat.round .binary32 s m e) (signed s (m * 2 ^ e)) := by
  unfold UnpackedFloat.round decreaseExponent
  dsimp only
  rw [targetExponent_eq]
  generalize hk : (e - max (m.log2 + e - 23 : Int) (-149)).toNat = k
  have hpos : 0 < m <<< k := by
    rw [Nat.shiftLeft_eq]
    positivity
  have hfull : Full (m <<< k) (e - k) := by
    by_cases hlow : e - k ≤ -149
    · exact Or.inr hlow
    · -- there are 24 bits then, as many as were wanted
      have hbits : 23 ≤ m.log2 + k := by omega
      refine Or.inl ?_
      calc 2 ^ 23 ≤ 2 ^ (m.log2 + k) := Nat.pow_le_pow_right (by decide) hbits
        _ ≤ m <<< k := by
          rw [Nat.shiftLeft_eq, pow_add]
          exact Nat.mul_le_mul_right _ (Nat.log2_self_le hm.ne')
  have hvalue : ((m <<< k : Nat) : ℚ) * 2 ^ (e - k) = m * 2 ^ e := by
    rw [Nat.shiftLeft_eq, Nat.cast_mul, mul_assoc, Nat.cast_pow, Nat.cast_ofNat,
      ← two_zpow_add_natCast, sub_add_cancel]
  rw [← hvalue]
  exact roundsTo_roundWithAccuracy s (reads_exact _) (by exact_mod_cast hpos) hfull

theorem RoundsTo.zero (s : Sign) : RoundsTo (.zero s) 0 := ⟨nearest_zero.symm, trivial, rfl⟩

theorem roundsTo_normalize (n : Int) (e : Int) (s : Sign) :
    RoundsTo (UnpackedFloat.normalize .binary32 n e s) (n * 2 ^ e) := by
  unfold UnpackedFloat.normalize
  split
  · next hn =>
    have hlt := Int.compare_eq_lt.1 hn
    have hround := roundsTo_round .negative (show 0 < (-n).toNat by omega) e
    have hvalue : signed .negative (((-n).toNat : ℚ) * 2 ^ e) = n * 2 ^ e := by
      have habs : (((-n).toNat : Nat) : ℚ) = -n := by
        exact_mod_cast Int.toNat_of_nonneg (by omega : 0 ≤ -n)
      rw [signed, habs, neg_mul, neg_neg]
    rwa [hvalue] at hround
  · next hn =>
    rw [Int.compare_eq_eq.1 hn, Int.cast_zero, zero_mul]
    exact .zero s
  · next hn =>
    have hgt := Int.compare_eq_gt.1 hn
    have hround := roundsTo_round .positive (show 0 < n.toNat by omega) e
    have hvalue : signed .positive ((n.toNat : ℚ) * 2 ^ e) = n * 2 ^ e := by
      have habs : ((n.toNat : Nat) : ℚ) = n := by
        exact_mod_cast Int.toNat_of_nonneg (by omega : 0 ≤ n)
      rw [signed, habs]
    rwa [hvalue] at hround

/-! ## Operations on numbers taken apart -/

variable {u v : UnpackedFloat}

/-- A number of the format is its own rounding. -/
theorem Canonical.roundsTo (h : Canonical u) (hu : u.isFinite = true) : RoundsTo u (worth u) := by
  refine ⟨?_, h, hu⟩
  cases u with
  | finite s m e hm =>
    obtain ⟨hlt, he, -⟩ := h
    rw [worth_finite, nearest_signed, nearest_of_representable]
    rw [abs_of_nonneg (by positivity)]
    exact ⟨m, e, hlt, he, rfl⟩
  | _ => exact nearest_zero.symm

theorem RoundsTo.neg (h : RoundsTo u q) : RoundsTo u.neg (-q) := by
  obtain ⟨hworth, hcanonical, hfin⟩ := h
  cases u with
  | zero s =>
    refine ⟨?_, trivial, rfl⟩
    rw [nearest_neg, ← hworth]
    exact neg_zero.symm
  | finite s m e hm =>
    refine ⟨?_, hcanonical, rfl⟩
    rw [nearest_neg, ← hworth]
    cases s with
    | positive => rfl
    | negative => exact (neg_neg _).symm
  | _ => cases hfin

theorem worth_zero (s : Sign) : worth (.zero s) = 0 := rfl

/-- Brought to a lower exponent a number is the same. -/
theorem decreaseExponent_value (m : Nat) {e e' : Int} (h : e' ≤ e) :
    ((decreaseExponent m e e').1 : ℚ) * 2 ^ e' = m * 2 ^ e := by
  obtain ⟨k, rfl⟩ := Int.le.dest h
  have hk : (e' + k - e').toNat = k := by omega
  rw [decreaseExponent, hk, Nat.shiftLeft_eq, two_zpow_add_natCast]
  push_cast
  ring

theorem cast_apply (s : Sign) (n : Nat) : ((s.apply (n : Int) : Int) : ℚ) = signed s n := by
  cases s with
  | positive => rfl
  | negative => exact Int.cast_neg _

theorem signed_mul (s : Sign) (a b : ℚ) : signed s (a * b) = signed s a * b := by
  cases s with
  | positive => rfl
  | negative => exact (neg_mul a b).symm

/-- Brought to a lower exponent, a number has the same worth. -/
theorem worth_decreaseExponent (s : Sign) (m : Nat) {e t : Int} (h : t ≤ e) :
    ((s.apply ((decreaseExponent m e t).1 : Int) : Int) : ℚ) * 2 ^ t = signed s (m * 2 ^ e) := by
  rw [cast_apply, ← signed_mul, decreaseExponent_value m h]

theorem roundsTo_add (hu : u.isFinite = true) (hv : v.isFinite = true) (cu : Canonical u)
    (cv : Canonical v) : RoundsTo (UnpackedFloat.add .binary32 u v) (worth u + worth v) := by
  cases u with
  | zero s =>
    cases v with
    | zero s' =>
      show RoundsTo (if s == s' then .zero s else .zero .positive) (0 + 0)
      rw [add_zero]
      split <;> exact .zero _
    | finite s' m' e' hm' =>
      rw [worth_zero, zero_add]
      exact cv.roundsTo hv
    | _ => cases hv
  | finite s m e hm =>
    cases v with
    | zero s' =>
      rw [worth_zero, add_zero]
      exact cu.roundsTo hu
    | finite s' m' e' hm' =>
      have hsum := roundsTo_normalize (s.apply ((decreaseExponent m e (min e e')).1 : Int)
        + s'.apply ((decreaseExponent m' e' (min e e')).1 : Int)) (min e e') .positive
      rw [Int.cast_add, add_mul, worth_decreaseExponent s m (min_le_left ..),
        worth_decreaseExponent s' m' (min_le_right ..)] at hsum
      exact hsum
    | _ => cases hv
  | _ => cases hu

theorem roundsTo_sub (hu : u.isFinite = true) (hv : v.isFinite = true) (cu : Canonical u)
    (cv : Canonical v) : RoundsTo (UnpackedFloat.sub .binary32 u v) (worth u - worth v) := by
  cases u with
  | zero s =>
    cases v with
    | zero s' =>
      show RoundsTo (if s == -s' then .zero s else .zero .positive) (0 - 0)
      rw [sub_zero]
      split <;> exact .zero _
    | finite s' m' e' hm' =>
      rw [worth_zero, zero_sub]
      exact (cv.roundsTo hv).neg
    | _ => cases hv
  | finite s m e hm =>
    cases v with
    | zero s' =>
      rw [worth_zero, sub_zero]
      exact cu.roundsTo hu
    | finite s' m' e' hm' =>
      have hdiff := roundsTo_normalize (s.apply ((decreaseExponent m e (min e e')).1 : Int)
        - s'.apply ((decreaseExponent m' e' (min e e')).1 : Int)) (min e e') .positive
      rw [Int.cast_sub, sub_mul, worth_decreaseExponent s m (min_le_left ..),
        worth_decreaseExponent s' m' (min_le_right ..)] at hdiff
      exact hdiff
    | _ => cases hv
  | _ => cases hu

theorem signed_mul_signed (s s' : Sign) (a b : ℚ) :
    signed (s * s') (a * b) = signed s a * signed s' b := by
  cases s with
  | positive =>
    cases s' with
    | positive => rfl
    | negative => exact (mul_neg a b).symm
  | negative =>
    cases s' with
    | positive => exact (neg_mul a b).symm
    | negative => exact (neg_mul_neg a b).symm

theorem roundsTo_mul (hu : u.isFinite = true) (hv : v.isFinite = true) (cu : Canonical u)
    (cv : Canonical v) : RoundsTo (UnpackedFloat.mul .binary32 u v) (worth u * worth v) := by
  cases u with
  | zero s =>
    rw [worth_zero, zero_mul]
    cases v with
    | zero | finite => exact .zero _
    | _ => cases hv
  | finite s m e hm =>
    cases v with
    | zero s' =>
      rw [worth_zero, mul_zero]
      exact .zero _
    | finite s' m' e' hm' =>
      have hfull : Full (m * m') (e + e') := by
        obtain ⟨-, -, hc | rfl⟩ := cu
        · exact Or.inl (hc.trans (Nat.le_mul_of_pos_right m hm'))
        · obtain ⟨-, -, hc | rfl⟩ := cv
          · exact Or.inl (hc.trans (Nat.le_mul_of_pos_left m' hm))
          · exact Or.inr (by decide)
      have hpos : (0 : ℚ) < (m * m' : Nat) := by exact_mod_cast Nat.mul_pos hm hm'
      have hprod := roundsTo_roundWithAccuracy (s * s') (reads_exact (m * m')) hpos hfull
      rw [Nat.cast_mul, zpow_add₀ two_ne_zero, mul_mul_mul_comm, signed_mul_signed] at hprod
      exact hprod
    | _ => cases hv
  | _ => cases hu

theorem signed_div_signed (s s' : Sign) (a b : ℚ) :
    signed (s / s') (a / b) = signed s a / signed s' b := by
  cases s with
  | positive =>
    cases s' with
    | positive => rfl
    | negative => exact (div_neg a).symm
  | negative =>
    cases s' with
    | positive => exact (neg_div b a).symm
    | negative => exact (neg_div_neg_eq a b).symm

/-- The quotient gets as many bits as rounding needs. -/
theorem full_quotient {m₁ m₂ : Nat} {e₁ e₂ t : Int} (h₁ : 0 < m₁) (h₂ : 0 < m₂)
    (ht : t = min (e₁ - e₂) (Format.binary32.targetExponent
      (totalExponent m₁ e₁ - totalExponent m₂ e₂))) :
    Full (m₁ <<< (e₁ - e₂ - t).toNat / m₂) t := by
  have hdef : Format.binary32.targetExponent (totalExponent m₁ e₁ - totalExponent m₂ e₂)
      = max (m₁.log2 + 1 + e₁ - (m₂.log2 + 1 + e₂) - 24) (-149) := rfl
  rw [hdef] at ht
  by_cases hlow : t ≤ -149
  · exact Or.inr hlow
  · refine Or.inl ((Nat.le_div_iff_mul_le h₂).2 ?_)
    generalize hk : (e₁ - e₂ - t).toNat = k
    have hbits : 23 + (m₂.log2 + 1) ≤ m₁.log2 + k := by omega
    calc 2 ^ 23 * m₂ ≤ 2 ^ 23 * 2 ^ (m₂.log2 + 1) :=
          Nat.mul_le_mul_left _ (Nat.lt_log2_self).le
      _ = 2 ^ (23 + (m₂.log2 + 1)) := (pow_add ..).symm
      _ ≤ 2 ^ (m₁.log2 + k) := Nat.pow_le_pow_right (by decide) hbits
      _ ≤ m₁ <<< k := by
        rw [Nat.shiftLeft_eq, pow_add]
        exact Nat.mul_le_mul_right _ (Nat.log2_self_le h₁.ne')

theorem roundsTo_div {s' : Sign} {m' : Nat} {e' : Int} {hm' : 0 < m'} (hu : u.isFinite = true) :
    RoundsTo (UnpackedFloat.div .binary32 u (.finite s' m' e' hm'))
      (worth u / worth (.finite s' m' e' hm')) := by
  cases u with
  | zero s =>
    rw [worth_zero, zero_div]
    exact .zero _
  | finite s m e hm =>
    unfold UnpackedFloat.div divCore
    dsimp only
    generalize ht : min (e - e') (Format.binary32.targetExponent
      (totalExponent m e - totalExponent m' e')) = t
    have hfull := full_quotient hm hm' ht.symm
    obtain ⟨k, hk⟩ := Int.le.dest (show t ≤ e - e' by rw [← ht]; exact min_le_left ..)
    have hke : (e - e' - t).toNat = k := by omega
    rw [hke] at hfull ⊢
    have hquot : ((m <<< k : Nat) : ℚ) / m' * 2 ^ t = m * 2 ^ e / (m' * 2 ^ e') := by
      rw [Nat.shiftLeft_eq, Nat.cast_mul, Nat.cast_pow, Nat.cast_ofNat, div_mul_eq_mul_div,
        mul_assoc, ← two_zpow_add_natCast, hk, zpow_sub₀ two_ne_zero, mul_div_assoc', div_div,
        mul_comm (2 ^ e' : ℚ)]
    have hpos : (0 : ℚ) < ((m <<< k : Nat) : ℚ) / m' := by
      have hm₀ : 0 < m <<< k := by
        rw [Nat.shiftLeft_eq]
        positivity
      have h₁ : (0 : ℚ) < (m <<< k : Nat) := by exact_mod_cast hm₀
      have h₂ : (0 : ℚ) < m' := by exact_mod_cast hm'
      positivity
    have hround := roundsTo_roundWithAccuracy (s / s') (reads_quotient (m <<< k) hm') hpos hfull
    rw [hquot, signed_div_signed] at hround
    exact hround
  | _ => cases hu

end MeshWatch.Ieee
