import MeshWatch.Link
import MeshWatch.Payload.Binary
import MeshWatch.Proofs.FloatValues

/-!
# The ratios that are kept

The floats that are kept of a mesh are finite although some of them are computed, again and
again, from their former values. A moving average stays as close to zero as its samples do, up
to what is lost in rounding.

- `LinkQuality.Finite`: the ratios of a link, and `LinkQuality.Finite.update`: a sample keeps them.
- `isFinite_quarterDecibels`: the ratios of a traced route.
-/

namespace MeshWatch

open Ieee

/-! ## Link quality -/

/-- The ratios of a link are finite, and the average stays close to the samples. -/
structure LinkQuality.Finite (q : LinkQuality) : Prop where
  snr : Within 50 q.snr
  snrAvg : Within 64 q.snrAvg
  packetLoss : q.packetLoss.isFinite = true

theorem within_sample {x : Float32} (h : x.isFinite = true) :
    Within 50 (clamp LinkQuality.snrLow LinkQuality.snrHigh x) := by
  have hhigh : LinkQuality.snrHigh.toModel.unpack
      = .finite .positive 13107200 (-18) (by decide) := rfl
  have hlow : LinkQuality.snrLow.toModel.unpack
      = .finite .negative 13107200 (-18) (by decide) := rfl
  exact within_clamp (within_of_unpack hlow (by norm_num)) (within_of_unpack hhigh (by norm_num)) h

/-- The average of ratios up to 64 is one again. -/
theorem within_average {snr avg : Float32} (hs : Within 50 snr) (ha : Within 64 avg) :
    Within 64 (LinkQuality.weight * snr + (1 - LinkQuality.weight) * avg) := by
  have hw : LinkQuality.weight.toModel.unpack = .finite .positive 10066330 (-25) (by decide) := rfl
  have hr : (1 - LinkQuality.weight).toModel.unpack
      = .finite .positive 11744051 (-24) (by decide) := rfl
  have hweight : Within (31 / 100) LinkQuality.weight := within_of_unpack hw (by norm_num)
  have hrest : Within (7 / 10) (1 - LinkQuality.weight) := within_of_unpack hr (by norm_num)
  have h16 : Bound 16 := bound_natCast (n := 16) (by decide) (by decide)
  have h45 : Bound 45 := bound_natCast (n := 45) (by decide) (by decide)
  have h64 : Bound 64 := bound_natCast (n := 64) (by decide) (by decide)
  have hnew := (hweight.mul hs h16 (by norm_num)).1
  have hold := (hrest.mul ha h45 (by norm_num)).1
  exact (hnew.add hold h64 (by norm_num)).1

theorem isFinite_estimatedLoss {avg : Float32} (h : Within 64 avg) :
    (LinkQuality.estimatedLoss avg).isFinite = true := by
  have hf : LinkQuality.demodulationFloor.toModel.unpack
      = .finite .negative 9175040 (-19) (by decide) := rfl
  have hh : (0.5 : Float32).toModel.unpack = .finite .positive 8388608 (-24) (by decide) := rfl
  have hfloor : Within 18 LinkQuality.demodulationFloor := within_of_unpack hf (by norm_num)
  have hhalf : Within 1 (0.5 : Float32) := within_of_unpack hh (by norm_num)
  obtain ⟨hten, hvten⟩ := within_literal 10 (by decide)
  have hb : Bound (2 ^ 7) := bound_two_pow (by decide)
  have hdist := (h.sub hfloor hb (by norm_num)).1
  have hscaled := (hdist.div hten.isFinite one_pos (hvten ▸ by norm_num) hb (by norm_num)).1
  have hloss := (hhalf.sub hscaled (bound_two_pow (k := 8) (by decide)) (by norm_num)).1
  exact isFinite_clamp rfl rfl hloss.isFinite

theorem LinkQuality.Finite.update {q : LinkQuality} (h : q.Finite) (snr : Float32)
    (rssi : Option Int32) (hopCount : Option UInt8) (now : Moment) :
    (q.update snr rssi hopCount now).Finite := by
  unfold LinkQuality.update
  split
  · next hfin =>
    have hs := within_sample hfin
    have havg : Within 64 (if q.packetCount = 0 then clamp snrLow snrHigh snr
        else weight * clamp snrLow snrHigh snr + (1 - weight) * q.snrAvg) := by
      split
      · exact hs.mono (by norm_num)
      · exact within_average hs h.snrAvg
    exact ⟨hs, havg, isFinite_estimatedLoss havg⟩
  · exact h

/-! ## Traceroutes -/

theorem isFinite_quarterDecibels (n : Int32) : (quarterDecibels n).isFinite = true := by
  have hrange : (n.toInt.natAbs : ℚ) ≤ 2 ^ 31 := by
    have hlow := Int32.le_toInt n
    have hhigh := Int32.toInt_lt n
    have habs : n.toInt.natAbs ≤ 2 ^ 31 := by omega
    exact_mod_cast habs
  obtain ⟨hfour, hvfour⟩ := within_literal 4 (by decide)
  have hb : Bound (2 ^ 31) := bound_two_pow (by decide)
  have hwhole := within_ofInt hrange hb
  exact (hwhole.div hfour.isFinite one_pos (hvfour ▸ by norm_num) hb (by norm_num)).1.isFinite

end MeshWatch
