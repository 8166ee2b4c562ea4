import MeshWatch.Ieee.Order
import MeshWatch.Proofs.Rounding
import MeshWatch.Proofs.Widening

/-!
# The values of floats

A finite 32-bit float stands for a rational number. As long as results stay far below the
greatest one, each operation on floats is that on rational numbers with a rounding behind it,
and a bound of the exact result is one of the float if it is of the format. Comparisons, limits
and the rounding to whole numbers are told of the same values.

- `unpack_pack`: a number of the format is kept when it becomes a word.
- `Within`: a finite float and a bound. `Within.add`, `Within.sub`, `Within.mul`, `Within.div`,
  `within_ofNat`: what the operations give, and within which bound.
- `lt_iff_value_lt`, `le_iff_value_le`: comparisons. `value_clamp`, `within_clamp`,
  `value_atLeast`: limits.
- `nearestInt?_ofSingle`: the nearest whole number.
- `within_sum`, `within_mean`: no mean of moderate numbers is ever infinite.
- `value_mean_nonneg`: no mean of numbers from zero on is below it.
-/

namespace MeshWatch.Ieee

open Float.Model
open Float.Model.UnpackedFloat

variable {a b c q : ℚ} {m : Nat} {e : Int} {s : Sign} {u v : UnpackedFloat}

/-! ## Words -/

theorem toNat_mantissa (f : BitVec 23) : (1#1 ++ f).toNat = 2 ^ 23 + f.toNat := by
  rw [BitVec.toNat_append, ← Nat.shiftLeft_add_eq_or_of_lt f.isLt]
  rfl

theorem sign_packComponents (s : Sign) (exponent : BitVec 8) (mantissa : BitVec 23) :
    Sign.ofBitVec (@unpackSign .binary32 (packComponents .binary32 s exponent mantissa)) = s := by
  unfold unpackSign packComponents BitVec.extractLsb
  rw [BitVec.extractLsb'_append_eq_of_le (by decide),
    BitVec.extractLsb'_append_eq_of_le (by decide)]
  cases s <;> rfl

theorem unpack_pack_normal {s : Sign} {hm : 0 < m} (hlow : 2 ^ 23 ≤ m) (hhigh : m < 2 ^ 24)
    (he : -149 ≤ e) (he' : e < 100) :
    UnpackedFloat.unpack .binary32 (UnpackedFloat.pack .binary32 (.finite s m e hm))
      = .finite s m e hm := by
  obtain ⟨n, hn⟩ : ∃ n : Nat, n = (e + 127 + 23).toNat := ⟨_, rfl⟩
  have hlog : m.log2 = 23 := (Nat.log2_eq_iff hm.ne').2 ⟨hlow, hhigh⟩
  have hpack : UnpackedFloat.pack .binary32 (.finite s m e hm)
      = packComponents .binary32 s (BitVec.ofNat 8 n) (BitVec.ofNat 23 m) := by
    have hfits : ¬ 2 ^ 8 ≤ (e + 127 + 23).toNat + 1 := by omega
    rw [hn]
    exact (if_neg hfits).trans (if_pos (by rw [hlog]; rfl))
  have hexp : (BitVec.ofNat 8 n).toNat = n := by
    rw [BitVec.toNat_ofNat, Nat.mod_eq_of_lt (by omega)]
  have htop : BitVec.ofNat 8 n ≠ -1#8 := by
    rw [Ne, ← BitVec.toNat_inj, hexp]
    show n ≠ 255
    omega
  have hzero : BitVec.ofNat 8 n ≠ 0#8 := by
    rw [Ne, ← BitVec.toNat_inj, hexp]
    show n ≠ 0
    omega
  rw [hpack]
  unfold UnpackedFloat.unpack
  dsimp only
  rw [unpackExponent_packComponents, if_neg htop, if_neg hzero]
  congr 1
  · exact sign_packComponents ..
  · -- the leading bit is stored nowhere
    rw [unpackMantissa_packComponents, toNat_mantissa, BitVec.toNat_ofNat]
    omega
  · show ((BitVec.ofNat 8 n).toNat : Int) - 150 = e
    rw [hexp]
    omega

theorem unpack_pack_subnormal {s : Sign} {hm : 0 < m} (hhigh : m < 2 ^ 23) :
    UnpackedFloat.unpack .binary32 (UnpackedFloat.pack .binary32 (.finite s m (-149) hm))
      = .finite s m (-149) hm := by
  have hlog : ¬ m.log2 + 1 = 24 := by
    have := (Nat.log2_lt hm.ne').2 hhigh
    omega
  have hpack : UnpackedFloat.pack .binary32 (.finite s m (-149) hm)
      = packComponents .binary32 s 0#8 (BitVec.ofNat 23 m) := if_neg hlog
  have hmant : (BitVec.ofNat 23 m).toNat = m := by
    rw [BitVec.toNat_ofNat, Nat.mod_eq_of_lt hhigh]
  have hnonzero : BitVec.ofNat 23 m ≠ 0#23 := by
    rw [Ne, ← BitVec.toNat_inj, hmant]
    show m ≠ 0
    omega
  rw [hpack]
  unfold UnpackedFloat.unpack
  dsimp only
  rw [unpackExponent_packComponents, if_neg (by decide), if_pos rfl, dif_neg]
  · congr 1
    · exact sign_packComponents ..
    · rw [unpackMantissa_packComponents, hmant]
  · rwa [unpackMantissa_packComponents]

/-- **A number of the format is kept** when it becomes a word. -/
theorem unpack_pack (h : Canonical u) (hu : u.isFinite = true) (hb : |worth u| < 2 ^ 100) :
    UnpackedFloat.unpack .binary32 (UnpackedFloat.pack .binary32 u) = u := by
  cases u with
  | zero s => cases s <;> rfl
  | finite s m e hm =>
    obtain ⟨hlt, he, hc⟩ := h
    by_cases hlow : 2 ^ 23 ≤ m
    · refine unpack_pack_normal hlow hlt he ?_
      have habs : |worth (.finite s m e hm)| = m * 2 ^ e := by
        have hnonneg : (0 : ℚ) ≤ m * 2 ^ e := by positivity
        cases s with
        | positive => exact abs_of_nonneg hnonneg
        | negative => exact (abs_neg _).trans (abs_of_nonneg hnonneg)
      have hone : (1 : ℚ) ≤ m := by exact_mod_cast hm
      have hpow : (2 : ℚ) ^ e < 2 ^ (100 : Int) := by
        refine lt_of_le_of_lt ?_ hb
        rw [habs]
        exact le_mul_of_one_le_left (by positivity) hone
      exact (zpow_lt_zpow_iff_right₀ one_lt_two).1 hpow
    · obtain rfl : e = -149 := hc.resolve_left hlow
      exact unpack_pack_subnormal (not_le.1 hlow)
  | _ => cases hu

theorem canonical_unpack (w : BitVec 32) : Canonical (UnpackedFloat.unpack .binary32 w) := by
  have hlt : (@unpackMantissa .binary32 w).toNat < 2 ^ 23 := (@unpackMantissa .binary32 w).isLt
  unfold UnpackedFloat.unpack
  dsimp only
  by_cases htop : @unpackExponent .binary32 w = -1#8
  · rw [if_pos htop]
    split <;> exact trivial
  · rw [if_neg htop]
    by_cases hzero : @unpackExponent .binary32 w = 0#8
    · rw [if_pos hzero]
      split
      · exact trivial
      · refine ⟨?_, ?_, Or.inr ?_⟩
        · exact hlt.trans (by decide)
        · rw [hzero]
          decide
        · rw [hzero]
          rfl
    · rw [if_neg hzero]
      have hpos : 0 < (@unpackExponent .binary32 w).toNat := by
        rw [Nat.pos_iff_ne_zero, Ne, ← BitVec.toNat_zero (w := 8), BitVec.toNat_inj]
        exact hzero
      refine ⟨?_, ?_, Or.inl ?_⟩
      · rw [toNat_mantissa]
        omega
      · show -149 ≤ ((@unpackExponent .binary32 w).toNat : Int) - 150
        omega
      · rw [toNat_mantissa]
        omega

/-! ## Floats -/

/-- The number that a finite float stands for. -/
def value (x : Float32) : ℚ := worth x.toModel.unpack

variable {x y : Float32}

theorem canonical (x : Float32) : Canonical x.toModel.unpack := canonical_unpack _

theorem abs_signed (s : Sign) (q : ℚ) : |signed s q| = |q| := by
  cases s with
  | positive => rfl
  | negative => exact abs_neg q

theorem value_eq {hm : 0 < m} (hx : x.toModel.unpack = .finite s m e hm) :
    value x = signed s (m * 2 ^ e) := by rw [value, hx, worth_finite]

/-- A 32-bit float that is finite, and at most so far from zero. -/
structure Within (b : ℚ) (x : Float32) : Prop where
  isFinite : x.isFinite = true
  abs_value_le : |value x| ≤ b

theorem Within.mono (h : Within a x) (hab : a ≤ b) : Within b x :=
  ⟨h.isFinite, h.abs_value_le.trans hab⟩

theorem within_zero (h : 0 ≤ b) : Within b 0 := ⟨rfl, abs_zero.trans_le h⟩

theorem within_of_unpack {hm : 0 < m} (hx : x.toModel.unpack = .finite s m e hm)
    (h : m * (2 : ℚ) ^ e ≤ b) : Within b x := by
  constructor
  · show x.toModel.unpack.isFinite = true
    rw [hx]
    rfl
  · rw [value_eq hx, abs_signed, abs_of_nonneg (by positivity)]
    exact h

/-- A bound at which rounding stops, and that is small enough for the format. -/
structure Bound (c : ℚ) : Prop where
  representable : Representable c
  one_le : 1 ≤ c
  lt : c < 2 ^ 100

theorem bound_natCast {n : Nat} (h1 : 1 ≤ n) (h : n < 2 ^ 24) : Bound n where
  representable := representable_natCast h
  one_le := by exact_mod_cast h1
  lt := by
    have hn : (n : ℚ) < 2 ^ 24 := by exact_mod_cast h
    exact hn.trans (by norm_num)

theorem bound_two_pow {k : Nat} (h : k < 100) : Bound (2 ^ k) where
  representable := ⟨1, k, by decide, by omega, by rw [zpow_natCast, Nat.cast_one, one_mul]⟩
  one_le := one_le_pow₀ one_le_two
  lt := pow_lt_pow_right₀ one_lt_two h

/-! ## Operations -/

/-- **A result becomes a float** that stands for the rounding of the exact number. -/
theorem RoundsTo.pack (h : RoundsTo u q) (hc : Bound c) (hq : |q| ≤ c) :
    Within c (.ofModel (.pack u)) ∧ value (.ofModel (.pack u)) = nearest q := by
  have hle : |worth u| ≤ c := by
    rw [h.worth_eq]
    exact abs_nearest_le hc.representable hq
  have hkept := unpack_pack h.canonical h.isFinite (hle.trans_lt hc.lt)
  have hvalue : value (.ofModel (.pack u)) = worth u := congrArg worth hkept
  refine ⟨⟨?_, ?_⟩, ?_⟩
  · exact (congrArg UnpackedFloat.isFinite hkept).trans h.isFinite
  · rwa [hvalue]
  · rw [hvalue, h.worth_eq]

theorem Within.add (hx : Within a x) (hy : Within b y) (hc : Bound c) (h : a + b ≤ c) :
    Within c (x + y) ∧ value (x + y) = nearest (value x + value y) := by
  refine (roundsTo_add hx.isFinite hy.isFinite (canonical x) (canonical y)).pack hc ?_
  exact (abs_add_le _ _).trans ((add_le_add hx.abs_value_le hy.abs_value_le).trans h)

theorem Within.sub (hx : Within a x) (hy : Within b y) (hc : Bound c) (h : a + b ≤ c) :
    Within c (x - y) ∧ value (x - y) = nearest (value x - value y) := by
  refine (roundsTo_sub hx.isFinite hy.isFinite (canonical x) (canonical y)).pack hc ?_
  exact (abs_sub _ _).trans ((add_le_add hx.abs_value_le hy.abs_value_le).trans h)

theorem Within.mul (hx : Within a x) (hy : Within b y) (hc : Bound c) (h : a * b ≤ c) :
    Within c (x * y) ∧ value (x * y) = nearest (value x * value y) := by
  refine (roundsTo_mul hx.isFinite hy.isFinite (canonical x) (canonical y)).pack hc ?_
  have ha := (abs_nonneg _).trans hx.abs_value_le
  refine le_trans ?_ h
  show |value x * value y| ≤ a * b
  rw [abs_mul]
  exact mul_le_mul hx.abs_value_le hy.abs_value_le (abs_nonneg _) ha

theorem Within.neg (h : Within b x) (hb : Bound b) : Within b (-x) := by
  have hneg := ((canonical x).roundsTo h.isFinite).neg
  exact (hneg.pack hb ((abs_neg _).trans_le h.abs_value_le)).1

theorem unpack_of_value_ne_zero (hx : x.isFinite = true) (h : value x ≠ 0) :
    ∃ s m e, ∃ hm : 0 < m, x.toModel.unpack = .finite s m e hm := by
  change x.toModel.unpack.isFinite = true at hx
  unfold value at h
  cases hu : x.toModel.unpack with
  | zero s =>
    rw [hu] at h
    exact absurd rfl h
  | finite s m e hm => exact ⟨s, m, e, hm, rfl⟩
  | _ =>
    rw [hu] at hx
    cases hx

/-- The divisor must not come close to zero. -/
theorem Within.div (hx : Within a x) (hy : y.isFinite = true) (hb : 0 < b) (hby : b ≤ value y)
    (hc : Bound c) (h : a ≤ c * b) :
    Within c (x / y) ∧ value (x / y) = nearest (value x / value y) := by
  have hpos : 0 < value y := hb.trans_le hby
  obtain ⟨s, m, e, hm, hu⟩ := unpack_of_value_ne_zero hy hpos.ne'
  have hdiv : RoundsTo (UnpackedFloat.div .binary32 x.toModel.unpack y.toModel.unpack)
      (value x / value y) := by
    rw [value, value, hu]
    exact roundsTo_div hx.isFinite
  refine hdiv.pack hc ?_
  rw [abs_div, abs_of_pos hpos, div_le_iff₀ hpos]
  calc |value x| ≤ a := hx.abs_value_le
    _ ≤ c * b := h
    _ ≤ c * value y := by
      have hc₀ := zero_le_one.trans hc.one_le
      gcongr

/-! ## Counts -/

theorem roundsTo_ofScientific (n : Nat) :
    RoundsTo (UnpackedFloat.ofScientific .binary32 n 0) n := by
  unfold UnpackedFloat.ofScientific
  split
  · next h0 =>
    rw [h0, Nat.cast_zero]
    exact .zero _
  · next h0 =>
    have hexp : ¬ (0 : Int) < -((2 ^ 8 : Int) + n.log2) := by omega
    rw [if_neg (by decide), if_neg hexp, if_pos (le_refl 0)]
    have hpos : 0 < n <<< 24 * 10 ^ (0 : Int).toNat := by
      rw [Nat.shiftLeft_eq]
      positivity
    have hfull : Full (n <<< 24 * 10 ^ (0 : Int).toNat) (-24 + 0) := by
      refine Or.inl ?_
      rw [Nat.shiftLeft_eq]
      show 2 ^ 23 ≤ n * 2 ^ 24 * 1
      omega
    have hround := roundsTo_roundWithAccuracy (.positive * .positive)
      (reads_exact (n <<< 24 * 10 ^ (0 : Int).toNat)) (by exact_mod_cast hpos) hfull
    have hvalue : signed (.positive * .positive)
        (((n <<< 24 * 10 ^ (0 : Int).toNat : Nat) : ℚ) * 2 ^ (-24 + 0 : Int)) = n := by
      show ((n <<< 24 * 1 : Nat) : ℚ) * 2 ^ (-24 : Int) = n
      rw [mul_one, Nat.shiftLeft_eq, Nat.cast_mul, Nat.cast_pow, Nat.cast_ofNat, mul_assoc]
      norm_num
    rw [hvalue] at hround
    exact hround

/-- Whole numbers become the nearest floats. -/
theorem within_ofNat {n : Nat} (h : n ≤ b) (hb : Bound b) :
    Within b (Float32.ofNat n) ∧ value (Float32.ofNat n) = nearest n := by
  have habs : |(n : ℚ)| ≤ b := by rwa [Nat.abs_cast]
  show Within b (Float32.ofScientific n false 0) ∧ value (Float32.ofScientific n false 0) = _
  unfold Float32.ofScientific
  split
  · next hsmall =>
    -- a short number is made of a word, and then scaled by one
    have hmod : n.toUInt64.toNat = n := by
      show n % 2 ^ 64 = n
      omega
    have hexact : ((n.toUInt64.toNat : Int) : ℚ) * 2 ^ (0 : Int) = n := by
      rw [hmod, zpow_zero, mul_one, Int.cast_natCast]
    have hround := roundsTo_normalize n.toUInt64.toNat 0 .positive
    rw [hexact] at hround
    obtain ⟨hword, hvalue⟩ := hround.pack hb habs
    change Within b n.toUInt64.toFloat32 at hword
    change value n.toUInt64.toFloat32 = nearest n at hvalue
    have hone : Float32.exactlyRepresentablePowersOfTen[0].toModel.unpack
        = .finite .positive 8388608 (-23) (by decide) := rfl
    have hscale : Within 1 Float32.exactlyRepresentablePowersOfTen[0] :=
      within_of_unpack hone (by norm_num)
    have hfactor : value Float32.exactlyRepresentablePowersOfTen[0] = 1 := by
      rw [value_eq hone, signed]
      norm_num
    obtain ⟨hwithin, hproduct⟩ := hword.mul hscale hb (mul_one b).le
    refine ⟨hwithin, hproduct.trans ?_⟩
    rw [hfactor, mul_one, hvalue, nearest_of_representable (representable_nearest _)]
  · exact (roundsTo_ofScientific n).pack hb habs

theorem within_ofInt {n : Int} (h : n.natAbs ≤ b) (hb : Bound b) : Within b (Float32.ofInt n) := by
  cases n with
  | ofNat n => exact (within_ofNat h hb).1
  | negSucc n => exact (within_ofNat h hb).1.neg hb

theorem nearest_natCast {n : Nat} (h : n < 2 ^ 24) : nearest n = n := by
  refine nearest_of_representable ?_
  rw [Nat.abs_cast]
  exact representable_natCast h

theorem nearest_half {n : Nat} (h : n < 2 ^ 24) : nearest (n / 2) = n / 2 := by
  refine nearest_of_representable ⟨n, -1, h, by decide, ?_⟩
  rw [abs_of_nonneg (by positivity), zpow_neg_one, div_eq_mul_inv]

/-- Small whole numbers are floats themselves. -/
theorem within_literal (n : Nat) [n.AtLeastTwo] (h : n < 2 ^ 24) :
    Within (OfNat.ofNat n) (OfNat.ofNat n : Float32) ∧ value (OfNat.ofNat n) = OfNat.ofNat n := by
  have htwo := Nat.AtLeastTwo.prop (n := n)
  obtain ⟨hwithin, hvalue⟩ := within_ofNat (n := n) le_rfl (bound_natCast (by omega) h)
  exact ⟨hwithin, hvalue.trans (nearest_natCast h)⟩

/-! ## Comparisons -/

theorem lt_iff (x y : Float32) :
    x < y ↔ x.toModel.unpack.compare y.toModel.unpack = some .lt := by
  show (decide (x.toModel < y.toModel)) = true ↔ _
  rw [decide_eq_true_iff]
  show (x.toModel.unpack.compare y.toModel.unpack == some .lt) = true ↔ _
  exact beq_iff_eq

theorem lex_lt {m' : Nat} {e' : Int} (hm : m < 2 ^ 24) (he : -149 ≤ e)
    (hc : 2 ^ 23 ≤ m' ∨ e' = -149) (h : e < e' ∨ e = e' ∧ m < m') :
    (m : ℚ) * 2 ^ e < m' * 2 ^ e' := by
  rcases h with hlt | ⟨rfl, hlt⟩
  · have hm' : 2 ^ 23 ≤ m' := hc.resolve_right (by omega)
    calc (m : ℚ) * 2 ^ e < (2 ^ 24 : Nat) * 2 ^ e := by gcongr
      _ = (2 ^ 23 : Nat) * 2 ^ (e + 1) := by
        rw [zpow_add_one₀ two_ne_zero]
        norm_num
        ring
      _ ≤ m' * 2 ^ e' := by
        gcongr
        · exact one_le_two
        · omega
  · gcongr

/-- Numbers with the same sign are compared by exponents and then by mantissas. -/
theorem lex_lt_iff {m' : Nat} {e' : Int} (hm : m < 2 ^ 24) (he : -149 ≤ e)
    (hc : 2 ^ 23 ≤ m ∨ e = -149) (hm' : m' < 2 ^ 24) (he' : -149 ≤ e')
    (hc' : 2 ^ 23 ≤ m' ∨ e' = -149) :
    (compare e e').then (compare m m') = .lt ↔ (m : ℚ) * 2 ^ e < m' * 2 ^ e' := by
  rw [Ordering.then_eq_lt, Int.compare_eq_lt, Int.compare_eq_eq, Nat.compare_eq_lt]
  refine ⟨lex_lt hm he hc', fun h => ?_⟩
  by_contra hnot
  have hge : e' < e ∨ e' = e ∧ m' < m ∨ e' = e ∧ m' = m := by omega
  rcases hge with hlt | hlt | ⟨rfl, rfl⟩
  · exact lt_asymm h (lex_lt hm' he' hc (Or.inl hlt))
  · exact lt_asymm h (lex_lt hm' he' hc (Or.inr hlt))
  · exact lt_irrefl _ h

theorem compare_eq_lt_iff (hu : u.isFinite = true) (hv : v.isFinite = true) (cu : Canonical u)
    (cv : Canonical v) : u.compare v = some .lt ↔ worth u < worth v := by
  have hpos : ∀ {m : Nat} {e : Int}, 0 < m → (0 : ℚ) < m * 2 ^ e := fun {m e} hm => by
    have hm' : (0 : ℚ) < m := by exact_mod_cast hm
    positivity
  cases u with
  | zero s =>
    cases v with
    | zero s' => exact iff_of_false nofun (lt_irrefl _)
    | finite s' m' e' hm' =>
      cases s' with
      | positive => exact iff_of_true rfl (hpos hm')
      | negative => exact iff_of_false nofun (neg_neg_of_pos (hpos hm')).not_gt
    | _ => cases hv
  | finite s m e hm =>
    cases v with
    | zero s' =>
      cases s with
      | positive => exact iff_of_false nofun (hpos hm).not_gt
      | negative => exact iff_of_true rfl (neg_neg_of_pos (hpos hm))
    | finite s' m' e' hm' =>
      obtain ⟨h₁, h₂, h₃⟩ := cu
      obtain ⟨h₁', h₂', h₃'⟩ := cv
      cases s with
      | positive =>
        cases s' with
        | positive =>
          refine Iff.trans ?_ (lex_lt_iff h₁ h₂ h₃ h₁' h₂' h₃')
          exact Option.some_inj
        | negative =>
          refine iff_of_false nofun (lt_asymm ?_)
          exact (neg_neg_of_pos (hpos hm')).trans (hpos hm)
      | negative =>
        cases s' with
        | positive => exact iff_of_true rfl ((neg_neg_of_pos (hpos hm)).trans (hpos hm'))
        | negative =>
          -- the other way round, as both are below zero
          have hswap : ((compare e e').then (compare m m')).swap
              = (compare e' e).then (compare m' m) := by
            rw [Ordering.swap_then, Int.compare_swap, Nat.compare_swap]
          refine Iff.trans ?_ ((lex_lt_iff h₁' h₂' h₃' h₁ h₂ h₃).trans neg_lt_neg_iff.symm)
          rw [← hswap]
          exact Option.some_inj
    | _ => cases hv
  | _ => cases hu

/-- **Finite floats are ordered as the numbers that they stand for.** -/
theorem lt_iff_value_lt (hx : x.isFinite = true) (hy : y.isFinite = true) :
    x < y ↔ value x < value y :=
  (lt_iff x y).trans (compare_eq_lt_iff hx hy (canonical x) (canonical y))

theorem value_le_of_not_lt (hx : x.isFinite = true) (hy : y.isFinite = true) (h : ¬ y < x) :
    value x ≤ value y := by rwa [lt_iff_value_lt hy hx, not_lt] at h

/-- Finite numbers can be compared, both ways alike. -/
theorem exists_compare (hu : u.isFinite = true) (hv : v.isFinite = true) :
    ∃ o : Ordering, u.compare v = some o ∧ v.compare u = some o.swap := by
  cases u with
  | zero s =>
    cases v with
    | zero s' => exact ⟨_, rfl, rfl⟩
    | finite s' m' e' hm' => cases s' <;> exact ⟨_, rfl, rfl⟩
    | _ => cases hv
  | finite s m e hm =>
    cases v with
    | zero s' => cases s <;> exact ⟨_, rfl, rfl⟩
    | finite s' m' e' hm' =>
      have hswap : (compare e' e).then (compare m' m)
          = ((compare e e').then (compare m m')).swap := by
        rw [Ordering.swap_then, Int.compare_swap, Nat.compare_swap]
      cases s with
      | positive =>
        cases s' with
        | positive => exact ⟨_, rfl, congrArg some hswap⟩
        | negative => exact ⟨_, rfl, rfl⟩
      | negative =>
        cases s' with
        | positive => exact ⟨_, rfl, rfl⟩
        | negative => exact ⟨_, rfl, congrArg (fun o : Ordering => some o.swap) hswap⟩
    | _ => cases hv
  | _ => cases hu

theorem le_iff_value_le (hx : x.isFinite = true) (hy : y.isFinite = true) :
    x ≤ y ↔ value x ≤ value y := by
  obtain ⟨o, hxy, hyx⟩ := exists_compare (u := x.toModel.unpack) (v := y.toModel.unpack) hx hy
  have hle : x ≤ y ↔ (x.toModel.unpack.compare y.toModel.unpack).any (·.isLE) = true := by
    show (decide (x.toModel ≤ y.toModel)) = true ↔ _
    rw [decide_eq_true_iff]
    exact Iff.rfl
  rw [hle, ← not_lt, ← lt_iff_value_lt hy hx, lt_iff, hxy, hyx]
  cases o <;> decide

/-! ## Limits -/

theorem isFinite_ite {p : Prop} [Decidable p] (hx : x.isFinite = true) (hy : y.isFinite = true) :
    (if p then x else y).isFinite = true := by
  split
  · exact hx
  · exact hy

/-- What is too small is raised to a limit. -/
theorem value_raised (hx : x.isFinite = true) (hy : y.isFinite = true) :
    value (if x < y then y else x) = max (value x) (value y) := by
  split
  · next h => exact (max_eq_right ((lt_iff_value_lt hx hy).1 h).le).symm
  · next h => exact (max_eq_left (value_le_of_not_lt hy hx h)).symm

theorem value_lowered (hx : x.isFinite = true) (hy : y.isFinite = true) :
    value (if y < x then y else x) = min (value x) (value y) := by
  split
  · next h => exact (min_eq_right ((lt_iff_value_lt hy hx).1 h).le).symm
  · next h => exact (min_eq_left (value_le_of_not_lt hx hy h)).symm

theorem isFinite_clamp {low high : Float32} (hlow : low.isFinite = true)
    (hhigh : high.isFinite = true) (hx : x.isFinite = true) :
    (clamp low high x).isFinite = true := isFinite_ite hhigh (isFinite_ite hlow hx)

theorem value_clamp {low high : Float32} (hlow : low.isFinite = true)
    (hhigh : high.isFinite = true) (hx : x.isFinite = true) :
    value (clamp low high x) = min (max (value x) (value low)) (value high) := by
  rw [← value_raised hx hlow]
  exact value_lowered (isFinite_ite hlow hx) hhigh

theorem within_clamp {low high : Float32} (hlow : Within b low) (hhigh : Within b high)
    (hx : x.isFinite = true) : Within b (clamp low high x) := by
  have hlow' := abs_le.1 hlow.abs_value_le
  have hhigh' := abs_le.1 hhigh.abs_value_le
  refine ⟨isFinite_clamp hlow.isFinite hhigh.isFinite hx, ?_⟩
  rw [value_clamp hlow.isFinite hhigh.isFinite hx, abs_le]
  exact ⟨le_min (le_max_of_le_right hlow'.1) hhigh'.1, (min_le_right ..).trans hhigh'.2⟩

theorem value_atLeast {low : Float32} (hlow : low.isFinite = true) (hx : x.isFinite = true) :
    value (atLeast low x) = max (value low) (value x) := value_raised hlow hx

theorem within_atLeast {low : Float32} (hlow : Within b low) (hx : Within b x) :
    Within b (atLeast low x) := by
  refine ⟨isFinite_ite hx.isFinite hlow.isFinite, ?_⟩
  rw [value_atLeast hlow.isFinite hx.isFinite]
  exact abs_max_le_max_abs_abs.trans (max_le hlow.abs_value_le hx.abs_value_le)

/-! ## Whole numbers -/

theorem toNat_unpackMantissa (w : BitVec 32) :
    (@unpackMantissa .binary32 w).toNat = w.toNat % 2 ^ 23 := by
  rw [unpackMantissa, BitVec.toNat_cast, BitVec.extractLsb_toNat]
  rfl

theorem ofBitVec_unpackSign (w : BitVec 32) :
    Sign.ofBitVec (@unpackSign .binary32 w)
      = if w.toNat / 2 ^ 31 % 2 == 1 then .negative else .positive := by
  have hbit : (@unpackSign .binary32 w).toNat = w.toNat / 2 ^ 31 % 2 := by
    rw [unpackSign, BitVec.toNat_cast, BitVec.extractLsb_toNat, Nat.shiftRight_eq_div_pow]
    rfl
  have hzero : @unpackSign .binary32 w = 0#1 ↔ w.toNat / 2 ^ 31 % 2 = 0 := by
    rw [← BitVec.toNat_inj, hbit]
    rfl
  unfold Sign.ofBitVec
  rcases Nat.mod_two_eq_zero_or_one (w.toNat / 2 ^ 31) with h | h
  · rw [if_pos (hzero.2 h), h]
    rfl
  · rw [if_neg (fun h0 => by rw [hzero.1 h0] at h; cases h), h]
    rfl

/-- Both ways to read a word find the same number. -/
theorem ofSingle_eq (hx : x.isFinite = true) : ∃ negative m q,
    ofSingle x = .finite negative m q ∧
    value x = signed (if negative then .negative else .positive) (m * 2 ^ q) := by
  obtain ⟨w, hw⟩ : ∃ w : BitVec 32, w = x.toBits.toBitVec := ⟨_, rfl⟩
  have hexp : (@unpackExponent .binary32 w).toNat = w.toNat / 2 ^ 23 % 2 ^ 8 :=
    @toNat_unpackExponent .binary32 w
  have htop : w.toNat / 2 ^ 23 % 2 ^ 8 ≠ 255 := by
    rw [hw]
    exact exponent_of_isFinite hx
  have htop' : @unpackExponent .binary32 w ≠ -1#8 := by
    rw [Ne, ← BitVec.toNat_inj, hexp]
    exact htop
  have hzero : @unpackExponent .binary32 w = 0#8 ↔ w.toNat / 2 ^ 23 % 2 ^ 8 = 0 := by
    rw [← BitVec.toNat_inj, hexp]
    exact Iff.rfl
  have hword : ofSingle x = if w.toNat / 2 ^ 23 % 2 ^ 8 = 0 then
        .finite (w.toNat / 2 ^ 31 % 2 == 1) (w.toNat % 2 ^ 23) (-149)
      else .finite (w.toNat / 2 ^ 31 % 2 == 1) (2 ^ 23 + w.toNat % 2 ^ 23)
        (-149 + (w.toNat / 2 ^ 23 % 2 ^ 8 : Nat) - 1) := by
    rw [hw] at htop ⊢
    exact single.unpack_finite htop
  have hvalue : value x = worth (UnpackedFloat.unpack .binary32 w) := by
    rw [hw]
    rfl
  unfold UnpackedFloat.unpack at hvalue
  dsimp only at hvalue
  rw [if_neg htop', ofBitVec_unpackSign] at hvalue
  have hbias : ((Format.binary32.exponentBias : Nat) : Int) + (23 : Nat) = 150 := rfl
  by_cases h0 : w.toNat / 2 ^ 23 % 2 ^ 8 = 0
  · refine ⟨w.toNat / 2 ^ 31 % 2 == 1, w.toNat % 2 ^ 23, -149, hword.trans (if_pos h0), ?_⟩
    rw [if_pos (hzero.2 h0)] at hvalue
    split at hvalue
    · next hm =>
      rw [hvalue, ← toNat_unpackMantissa, hm, BitVec.toNat_zero, Nat.cast_zero, zero_mul,
        signed_zero]
      rfl
    · rw [hvalue, worth_finite, toNat_unpackMantissa, hexp, h0, hbias]
      rfl
  · refine ⟨w.toNat / 2 ^ 31 % 2 == 1, 2 ^ 23 + w.toNat % 2 ^ 23,
      -149 + (w.toNat / 2 ^ 23 % 2 ^ 8 : Nat) - 1, hword.trans (if_neg h0), ?_⟩
    have hplace : ((w.toNat / 2 ^ 23 % 2 ^ 8 : Nat) : Int) - 150
        = -149 + (w.toNat / 2 ^ 23 % 2 ^ 8 : Nat) - 1 := by omega
    rw [if_neg (mt hzero.1 h0)] at hvalue
    rw [hvalue, worth_finite, toNat_mantissa, toNat_unpackMantissa, hexp, hbias, hplace]

/-- A power of two times a mantissa, to the nearest whole number. -/
theorem magnitude_eq (m : Nat) (q : Int) :
    (if 0 ≤ q then m <<< q.toNat else (m + (1 <<< (-q - 1).toNat)) >>> (-q).toNat)
      = ⌊(m * 2 ^ q : ℚ) + 1 / 2⌋₊ := by
  split
  · next h =>
    obtain ⟨k, rfl⟩ := Int.eq_ofNat_of_zero_le h
    have hwhole : (m * 2 ^ (k : Int) : ℚ) = (m * 2 ^ k : Nat) := by
      rw [zpow_natCast, Nat.cast_mul, Nat.cast_pow, Nat.cast_ofNat]
    rw [hwhole, Int.toNat_natCast, Nat.shiftLeft_eq]
    refine ((Nat.floor_eq_iff (by positivity)).2 ⟨?_, ?_⟩).symm <;> linarith
  · next h =>
    obtain ⟨k, rfl⟩ : ∃ k : Nat, q = -(k + 1 : Nat) := ⟨(-q - 1).toNat, by omega⟩
    have hhalf : (- -((k + 1 : Nat) : Int) - 1).toNat = k := by omega
    have hplace : (- -((k + 1 : Nat) : Int)).toNat = k + 1 := by omega
    have hsum : (m * 2 ^ (-((k + 1 : Nat) : Int)) : ℚ) + 1 / 2
        = ((m + 2 ^ k : Nat) : ℚ) / (2 ^ (k + 1) : Nat) := by
      have hpow : (2 : ℚ) ^ k ≠ 0 := by positivity
      rw [zpow_neg, zpow_natCast, Nat.cast_add, Nat.cast_pow, Nat.cast_pow, Nat.cast_ofNat,
        pow_succ]
      field_simp
    rw [hhalf, hplace, hsum, Nat.floor_div_eq_div, Nat.one_shiftLeft, Nat.shiftRight_eq_div_pow]

/-- A finite float is rounded to the nearest whole number, and halves away from zero. -/
theorem nearestInt?_ofSingle (hx : x.isFinite = true) :
    (ofSingle x).nearestInt?
      = some (SignType.sign (value x) * (⌊|value x| + 1 / 2⌋₊ : Int)) := by
  obtain ⟨negative, m, q, hword, hvalue⟩ := ofSingle_eq hx
  have hnonneg : (0 : ℚ) ≤ m * 2 ^ q := by positivity
  have hint : (ofSingle x).nearestInt? = some (if negative then
      -((⌊(m * 2 ^ q : ℚ) + 1 / 2⌋₊ : Nat) : Int) else (⌊(m * 2 ^ q : ℚ) + 1 / 2⌋₊ : Nat)) := by
    rw [hword, ← magnitude_eq]
    rfl
  rw [hint, hvalue, abs_signed, abs_of_nonneg hnonneg]
  obtain hzero | hpos := hnonneg.eq_or_lt
  · have hfloor : ⌊(0 : ℚ) + 1 / 2⌋₊ = 0 := Nat.floor_eq_zero.2 (by norm_num)
    rw [← hzero, hfloor]
    cases negative <;> rfl
  · cases negative with
    | false =>
      show _ = some (((SignType.sign (m * 2 ^ q : ℚ) : SignType) : Int) * _)
      rw [sign_pos hpos, SignType.coe_one, one_mul]
      rfl
    | true =>
      show _ = some (((SignType.sign (-(m * 2 ^ q : ℚ)) : SignType) : Int) * _)
      rw [sign_neg (neg_neg_of_pos hpos), SignType.coe_neg_one, neg_one_mul]
      rfl

/-! ## Sums and means -/

/-- Next to `2 ^ 32` the numbers of the format lie so wide apart that 128 more is nothing. -/
theorem nearest_saturated : nearest (2 ^ 32 + 128) = 2 ^ 32 := by
  have hpos : (0 : ℚ) < 2 ^ 32 + 128 := by norm_num
  have hplace : lastPlace (2 ^ 32 + 128) = 9 := by
    have hlow := (Int.zpow_le_iff_le_log (x := 32) (by decide : 1 < 2) hpos).1 (by norm_num)
    have hhigh := (Int.lt_zpow_iff_log_lt (x := 33) (by decide : 1 < 2) hpos).1 (by norm_num)
    rw [lastPlace, abs_of_pos hpos]
    omega
  have hfloor : ⌊(2 ^ 32 + 128 : ℚ) / 2 ^ (9 : Int)⌋₊ = 2 ^ 23 := by
    rw [Nat.floor_eq_iff (by norm_num)]
    constructor <;> norm_num
  rw [nearest_of_pos hpos, hplace, halfEven, hfloor, if_pos (by norm_num)]
  norm_num

theorem within_add_saturated (hx : Within (2 ^ 32) x) (hy : Within 128 y) :
    Within (2 ^ 32) (x + y) := by
  obtain ⟨hsum, hvalue⟩ := hx.add hy (bound_two_pow (k := 33) (by decide)) (by norm_num)
  have hx' := abs_le.1 hx.abs_value_le
  have hy' := abs_le.1 hy.abs_value_le
  refine ⟨hsum.isFinite, ?_⟩
  rw [hvalue, abs_le, ← nearest_saturated, ← nearest_neg]
  exact ⟨nearest_mono (by linarith), nearest_mono (by linarith)⟩

/-- However many numbers up to 128 are added, the sum stays finite. -/
theorem within_sum {xs : List Float32} (h : ∀ x ∈ xs, Within 128 x) : Within (2 ^ 32) (sum xs) := by
  have hfold : ∀ start, Within (2 ^ 32) start → Within (2 ^ 32) (xs.foldl (· + ·) start) := by
    induction xs with
    | nil => exact fun start hstart => hstart
    | cons x xs ih =>
      intro start hstart
      refine ih (fun y hy => h y (List.mem_cons_of_mem x hy)) _ ?_
      exact within_add_saturated hstart (h x List.mem_cons_self)
  exact hfold _ ⟨rfl, abs_zero.trans_le (by norm_num)⟩

/-- A share of a count. -/
theorem within_share {n : Nat} (hx : Within (2 ^ 32) x) (h1 : 1 ≤ n) (h : n ≤ 2 ^ 32) :
    Within (2 ^ 32) (x / Float32.ofNat n) ∧
    value (x / Float32.ofNat n) = nearest (value x / nearest n) := by
  have hb := bound_two_pow (k := 32) (by decide)
  obtain ⟨hcount, hvalue⟩ := within_ofNat (n := n) (by exact_mod_cast h) hb
  have hone : 1 ≤ value (Float32.ofNat n) := by
    rw [hvalue, ← Nat.cast_one, ← nearest_natCast (n := 1) (by decide)]
    exact nearest_mono (by exact_mod_cast h1)
  have hshare := hx.div hcount.isFinite one_pos hone hb (mul_one _).ge
  rwa [hvalue] at hshare

theorem within_mean {xs : List Float32} (h : ∀ x ∈ xs, Within 128 x) (hlen : xs.length ≤ 2 ^ 32) :
    Within (2 ^ 32) (mean xs) := by
  unfold mean
  split
  · exact within_zero (by norm_num)
  · next hne =>
    have hpos : 1 ≤ xs.length := by
      rw [Nat.one_le_iff_ne_zero, Ne, List.length_eq_zero_iff, ← List.isEmpty_iff]
      exact hne
    exact (within_share (within_sum h) hpos hlen).1

/-- Rounding takes no sum below zero. -/
theorem value_sum_nonneg {xs : List Float32} (h : ∀ x ∈ xs, Within 128 x ∧ 0 ≤ value x) :
    0 ≤ value (sum xs) := by
  have hfold : ∀ start, Within (2 ^ 32) start → 0 ≤ value start →
      0 ≤ value (xs.foldl (· + ·) start) := by
    induction xs with
    | nil => exact fun start _ hstart => hstart
    | cons x xs ih =>
      intro start hwithin hstart
      obtain ⟨hx, hpos⟩ := h x List.mem_cons_self
      have hadd := (hwithin.add hx (bound_two_pow (k := 33) (by decide)) (by norm_num)).2
      refine ih (fun y hy => h y (List.mem_cons_of_mem x hy)) _ (within_add_saturated hwithin hx) ?_
      rw [hadd]
      exact nearest_nonneg (add_nonneg hstart hpos)
  exact hfold _ ⟨rfl, abs_zero.trans_le (by norm_num)⟩ (le_refl (0 : ℚ))

theorem value_mean_nonneg {xs : List Float32} (h : ∀ x ∈ xs, Within 128 x ∧ 0 ≤ value x)
    (hlen : xs.length ≤ 2 ^ 32) : 0 ≤ value (mean xs) := by
  unfold mean
  split
  · exact le_refl (0 : ℚ)
  · next hne =>
    have hpos : 1 ≤ xs.length := by
      rw [Nat.one_le_iff_ne_zero, Ne, List.length_eq_zero_iff, ← List.isEmpty_iff]
      exact hne
    rw [(within_share (within_sum fun x hx => (h x hx).1) hpos hlen).2]
    exact nearest_nonneg (div_nonneg (value_sum_nonneg h) (nearest_nonneg (Nat.cast_nonneg _)))

end MeshWatch.Ieee
