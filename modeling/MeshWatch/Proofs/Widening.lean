import Mathlib
import MeshWatch.Ieee.Format

/-!
# Widening a float and narrowing it again

Every number of the 32-bit format is one of the 64-bit format, so a float that is finite
survives its way through the wider width. The conversions work on words: a word is taken
apart into an exact number, which is packed into a word of the other width. For a number
of the narrow format no bit is cut off on either way.

- `toBits_ofBits`: every word of a finite number is that of a float.
- `Stored.pack_scaled`: packing a number of the format, whatever its significand is scaled by.
- `narrow_widen`: a finite float is narrowed to what it was before it was widened.
-/

namespace MeshWatch.Ieee

open Float.Model.UnpackedFloat

/-! ## Floats and their words -/

theorem toNat_unpackExponent {spec : Float.Model.Format} (b : BitVec spec.numBits) :
    (unpackExponent b).toNat
      = b.toNat / 2 ^ spec.mantissaBitsWithoutImplicit % 2 ^ spec.exponentBits := by
  have he := spec.he
  have hwidth : spec.mantissaBitsWithoutImplicit + spec.exponentBits - 1
      - spec.mantissaBitsWithoutImplicit + 1 = spec.exponentBits := by omega
  rw [unpackExponent, BitVec.toNat_cast, BitVec.extractLsb_toNat, Nat.shiftRight_eq_div_pow, hwidth]

/-- A word whose exponent is not the greatest is the word of a float. -/
theorem toBits_ofBits {w : UInt64} (h : w.toNat / 2 ^ 52 % 2 ^ 11 ≠ 2047) :
    (Float.ofBits w).toBits = w := by
  have hx : @unpackExponent .binary64 w.toBitVec ≠ -1#11 := by
    rw [Ne, ← BitVec.toNat_inj, toNat_unpackExponent]
    exact h
  have hnan : ¬ @isNaNBits .binary64 w.toBitVec = true := fun hn => hx (of_decide_eq_true hn).1
  show UInt64.ofBitVec (pack .binary64 (unpack .binary64 w.toBitVec)) = w
  rw [pack_unpack, if_neg hnan]

theorem exponent_of_isFinite {x : Float32} (h : x.isFinite = true) :
    x.toBits.toNat / 2 ^ 23 % 2 ^ 8 ≠ 255 := by
  intro hx
  have htop : @unpackExponent .binary32 x.toBits.toBitVec = -1#8 := by
    rw [← BitVec.toNat_inj, toNat_unpackExponent]
    exact hx
  change (unpack .binary32 x.toBits.toBitVec).isFinite = true at h
  unfold unpack at h
  dsimp only at h
  rw [if_pos htop] at h
  split at h <;> cases h

/-! ## Numbers of the narrow format -/

/-- Significand and exponent of a finite number as the 32-bit format has it. -/
structure Stored (m : Nat) (q : Int) : Prop where
  lt : m < 2 ^ 24
  least : -149 ≤ q
  most : q ≤ 104
  normal : 2 ^ 23 ≤ m ∨ q = -149

variable {m : Nat} {q : Int} {negative : Bool}

/-- What a word stands for whose exponent is not the greatest. -/
theorem Format.unpack_finite (f : Format) {w : Nat}
    (h : w / 2 ^ f.fractionBits % 2 ^ f.exponentBits ≠ f.topExponent) :
    f.unpack w = if w / 2 ^ f.fractionBits % 2 ^ f.exponentBits = 0 then
        .finite (w / 2 ^ (f.fractionBits + f.exponentBits) % 2 == 1) (w % 2 ^ f.fractionBits)
          f.leastExponent
      else .finite (w / 2 ^ (f.fractionBits + f.exponentBits) % 2 == 1)
        (2 ^ f.fractionBits + w % 2 ^ f.fractionBits)
        (f.leastExponent + (w / 2 ^ f.fractionBits % 2 ^ f.exponentBits : Nat) - 1) := by
  unfold Format.unpack
  simp only [Nat.shiftRight_eq_div_pow, Nat.one_shiftLeft]
  rw [if_neg h]

theorem single_sign (negative : Bool) : single.sign negative = if negative then 2 ^ 31 else 0 := by
  cases negative <;> rfl

theorem double_sign (negative : Bool) : double.sign negative = if negative then 2 ^ 63 else 0 := by
  cases negative <;> rfl

/-- A finite word of the narrow format is its sign, its exponent and its significand, of
which the leading bit counts in the exponent. -/
theorem unpack_single {w : Nat} (hw : w < 2 ^ 32) (h : w / 2 ^ 23 % 2 ^ 8 ≠ 255) :
    ∃ negative m q, single.unpack w = .finite negative m q ∧ Stored m q ∧
      w = single.sign negative + (q + 149).toNat * 2 ^ 23 + m := by
  have hparts : single.unpack w = if w / 2 ^ 23 % 2 ^ 8 = 0 then
        .finite (w / 2 ^ 31 % 2 == 1) (w % 2 ^ 23) (-149)
      else .finite (w / 2 ^ 31 % 2 == 1) (2 ^ 23 + w % 2 ^ 23)
        (-149 + (w / 2 ^ 23 % 2 ^ 8 : Nat) - 1) := single.unpack_finite h
  have hsign : single.sign (w / 2 ^ 31 % 2 == 1) = w / 2 ^ 31 * 2 ^ 31 := by
    rw [single_sign]
    split
    · next hs =>
      have hs' := beq_iff_eq.1 hs
      omega
    · next hs =>
      have hs' : w / 2 ^ 31 % 2 ≠ 1 := fun he => hs (beq_iff_eq.2 he)
      omega
  by_cases h0 : w / 2 ^ 23 % 2 ^ 8 = 0
  · rw [if_pos h0] at hparts
    refine ⟨_, _, _, hparts, ⟨by omega, by omega, by omega, .inr rfl⟩, ?_⟩
    rw [hsign]
    omega
  · rw [if_neg h0] at hparts
    refine ⟨_, _, _, hparts, ⟨by omega, by omega, by omega, .inl (by omega)⟩, ?_⟩
    rw [hsign]
    omega

theorem shiftRounded_neg (m k : Nat) : shiftRounded (m * 2 ^ k) (-(k : Int)) = m := by
  unfold shiftRounded
  split
  · have hk : k = 0 := by omega
    subst hk
    simp
  · have hk : (- -(k : Int)).toNat = k := by omega
    rw [hk, Nat.one_shiftLeft]
    exact roundHalfEven_exact m _ (Nat.two_pow_pos k)

theorem shiftRounded_natCast (m k : Nat) : shiftRounded m k = m * 2 ^ k := by
  rw [shiftRounded, if_pos (Int.natCast_nonneg k), Int.toNat_natCast, Nat.shiftLeft_eq]

theorem log2_mul_two_pow (hm : m ≠ 0) (k : Nat) : (m * 2 ^ k).log2 = m.log2 + k := by
  obtain ⟨hlow, hhigh⟩ := (Nat.log2_eq_iff hm).1 rfl
  have hpos := Nat.two_pow_pos k
  refine (Nat.log2_eq_iff (Nat.mul_ne_zero hm (by omega))).2 ⟨?_, ?_⟩
  · rw [Nat.pow_add]
    exact Nat.mul_le_mul_right _ hlow
  · rw [Nat.add_right_comm, Nat.pow_add]
    exact Nat.mul_lt_mul_of_pos_right hhigh hpos

/-- A number of the format is packed without a bit cut off, whatever its significand is
scaled by. -/
theorem Stored.pack_scaled (h : Stored m q) (k : Nat) :
    single.pack (.finite negative (m * 2 ^ k) (q - k))
      = single.sign negative + (q + 149).toNat * 2 ^ 23 + m := by
  obtain ⟨hlt, hleast, hmost, hnormal⟩ := h
  by_cases hm : m = 0
  · subst hm
    have hq : q = -149 := by omega
    rw [Nat.zero_mul, Format.pack_zero, hq]
    rfl
  · have hpos := Nat.two_pow_pos k
    have hlog : m.log2 < 24 := (Nat.log2_lt hm).2 hlt
    have htarget : max (((m * 2 ^ k).log2 : Int) + (q - k) - (23 : Nat)) (-149) = q := by
      rw [log2_mul_two_pow hm]
      rcases hnormal with hnormal | hsubnormal
      · have hleading : 23 ≤ m.log2 := (Nat.le_log2 hm).2 hnormal
        omega
      · omega
    have hshift : q - k - q = -(k : Int) := by omega
    have hplace : (q - -149).toNat = (q + 149).toNat := by omega
    have hfits : (q + 149).toNat * 2 ^ 23 + m ≤ 255 <<< 23 := by omega
    rw [Format.pack, if_neg (Nat.mul_ne_zero hm (by omega))]
    show single.sign negative + min (((max (((m * 2 ^ k).log2 : Int) + (q - k) - (23 : Nat))
      (-149) - -149).toNat <<< 23) + shiftRounded (m * 2 ^ k)
        (q - k - max (((m * 2 ^ k).log2 : Int) + (q - k) - (23 : Nat)) (-149))) (255 <<< 23) = _
    rw [htarget, hshift, shiftRounded_neg, hplace, Nat.shiftLeft_eq, Nat.min_eq_left hfits,
      Nat.add_assoc]

/-- A normal word of the wide format is taken apart again. -/
theorem unpack_double {e M : Nat} (he : e < 2045) (hlow : 2 ^ 52 ≤ M) (hhigh : M < 2 ^ 53) :
    double.sign negative + (e * 2 ^ 52 + M) < 2 ^ 64 ∧
    (double.sign negative + (e * 2 ^ 52 + M)) / 2 ^ 52 % 2 ^ 11 = e + 1 ∧
    double.unpack (double.sign negative + (e * 2 ^ 52 + M)) = .finite negative M (e - 1074) := by
  obtain ⟨w, hw⟩ : ∃ w, w = double.sign negative + (e * 2 ^ 52 + M) := ⟨_, rfl⟩
  have hfields : w < 2 ^ 64 ∧ w / 2 ^ 52 % 2 ^ 11 = e + 1 ∧ 2 ^ 52 + w % 2 ^ 52 = M ∧
      (w / 2 ^ 63 % 2 == 1) = negative := by
    rw [double_sign] at hw
    cases negative with
    | false =>
      rw [if_neg Bool.false_ne_true] at hw
      exact ⟨by omega, by omega, by omega, beq_eq_false_iff_ne.2 (by omega)⟩
    | true =>
      rw [if_pos rfl] at hw
      exact ⟨by omega, by omega, by omega, beq_iff_eq.2 (by omega)⟩
  obtain ⟨hsize, hexponent, hfraction, hsign⟩ := hfields
  have htop : w / 2 ^ 52 % 2 ^ 11 ≠ 2047 := by omega
  have hparts : double.unpack w = if w / 2 ^ 52 % 2 ^ 11 = 0 then
        .finite (w / 2 ^ 63 % 2 == 1) (w % 2 ^ 52) (-1074)
      else .finite (w / 2 ^ 63 % 2 == 1) (2 ^ 52 + w % 2 ^ 52)
        (-1074 + (w / 2 ^ 52 % 2 ^ 11 : Nat) - 1) := double.unpack_finite htop
  have hplace : -1074 + ((e + 1 : Nat) : Int) - 1 = e - 1074 := by omega
  rw [← hw]
  refine ⟨hsize, hexponent, ?_⟩
  rw [hparts, hexponent, if_neg (by omega), hsign, hfraction, hplace]

/-- **Widened**, a number has its leading bit in another place, and is packed to the same
word of the narrow format. -/
theorem Stored.pack_widened (h : Stored m q) :
    double.pack (.finite negative m q) < 2 ^ 64 ∧
    double.pack (.finite negative m q) / 2 ^ 52 % 2 ^ 11 ≠ 2047 ∧
    single.pack (double.unpack (double.pack (.finite negative m q)))
      = single.sign negative + (q + 149).toNat * 2 ^ 23 + m := by
  have hleast := h.least
  have hmost := h.most
  by_cases hm : m = 0
  · subst hm
    have hq : q = -149 := by
      have hnormal := h.normal
      omega
    rw [Format.pack_zero, hq]
    cases negative <;> decide
  · have hlog : m.log2 < 24 := (Nat.log2_lt hm).2 h.lt
    obtain ⟨k, hk⟩ : ∃ k, m.log2 + k = 52 := ⟨52 - m.log2, by omega⟩
    obtain ⟨e, he⟩ : ∃ e : Nat, (e : Int) - 1074 = q - k := ⟨(q - k + 1074).toNat, by omega⟩
    -- the significand fills the wide format from its leading bit on
    have hfull : (m * 2 ^ k).log2 = 52 := by rw [log2_mul_two_pow hm, hk]
    have hpos := Nat.two_pow_pos k
    obtain ⟨hlow, hhigh⟩ := (Nat.log2_eq_iff (Nat.mul_ne_zero hm (by omega))).1 hfull
    have hpack : double.pack (.finite negative m q)
        = double.sign negative + (e * 2 ^ 52 + m * 2 ^ k) := by
      have htarget : max ((m.log2 : Int) + q - (52 : Nat)) (-1074) = q - k := by omega
      have hshift : q - (q - k) = (k : Int) := by omega
      have hplace : (q - k - -1074).toNat = e := by omega
      have hfits : e * 2 ^ 52 + m * 2 ^ k ≤ 2047 <<< 52 := by omega
      rw [Format.pack, if_neg hm]
      show double.sign negative + min (((max ((m.log2 : Int) + q - (52 : Nat)) (-1074)
        - -1074).toNat <<< 52) + shiftRounded m
          (q - max ((m.log2 : Int) + q - (52 : Nat)) (-1074))) (2047 <<< 52) = _
      rw [htarget, hshift, shiftRounded_natCast, hplace, Nat.shiftLeft_eq, Nat.min_eq_left hfits]
    have hnormal : e < 2045 := by omega
    obtain ⟨hsize, hexponent, hunpack⟩ := unpack_double hnormal hlow hhigh
    have hfinite : e + 1 ≠ 2047 := by omega
    rw [hpack, hexponent, hunpack, he]
    refine ⟨hsize, hfinite, ?_⟩
    exact h.pack_scaled k

/-! ## Floats -/

/-- **Widening loses nothing**: a finite float is narrowed to what it was. -/
theorem narrow_widen {x : Float32} (h : x.isFinite = true) : narrow (widen x) = x := by
  have hx := exponent_of_isFinite h
  obtain ⟨negative, m, q, hunpack, hstored, hword⟩ := unpack_single x.toBits.toNat_lt hx
  obtain ⟨hsize, hexponent, hpack⟩ := @Stored.pack_widened m q negative hstored
  have hwide : (UInt64.ofNat (double.pack (.finite negative m q))).toNat
      = double.pack (.finite negative m q) := UInt64.toNat_ofNat_of_lt' hsize
  have hbits : (Float.ofBits (UInt64.ofNat (double.pack (.finite negative m q)))).toBits = _ :=
    toBits_ofBits (by rwa [hwide])
  calc narrow (widen x)
      = toSingle (double.unpack (Float.ofBits
          (UInt64.ofNat (double.pack (.finite negative m q)))).toBits.toNat) := by
        rw [narrow, widen, toDouble, ofSingle, hunpack, ofDouble]
    _ = Float32.ofBits (UInt32.ofNat x.toBits.toNat) := by
        rw [hbits, hwide, toSingle, hpack, ← hword]
    _ = x := by rw [UInt32.ofNat_toNat, Float32.ofBits_toBits]

end MeshWatch.Ieee
