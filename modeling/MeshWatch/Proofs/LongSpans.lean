import MeshWatch.Config.Basic
import MeshWatch.Proofs.Moves

/-!
# Long spans

Settings may ask for spans of any length that fits into 64 bits of hours or minutes, and no
check looks at it. Three bounds come before that one. A number of hours that is too large
for 64 bits of seconds goes round, a sweep looks for a moment that many years ago which the
calendar does not have, and a span too long for 63 bits of milliseconds counts as a century,
which is less than shorter ones count.

- `toNat_mul_eq_iff`: when a product of 64 bits is the product.
- `Span.reach_lt_reach_iff`: which spans overtake longer ones.
- `Mesh.cleanup_isSome_iff`: when a sweep comes to its end.
- `long_spans`: what settings ask for, and what they get.
-/

namespace MeshWatch

theorem toNat_mul_eq_iff (a b : UInt64) :
    (a * b).toNat = a.toNat * b.toNat ↔ a.toNat * b.toNat < UInt64.size := by
  rw [UInt64.toNat_mul]
  constructor
  · intro h
    rw [← h]
    exact Nat.mod_lt _ (by decide)
  · exact Nat.mod_eq_of_lt

theorem Span.ofSecs_inj {a b : Nat} : Span.ofSecs a = .ofSecs b ↔ a = b := by
  rw [Span.ofSecs, Span.ofSecs, Span.mk.injEq]
  omega

/-- **Overtaking.** A span reaches further than a longer one if that is cut to a century and it
is itself longer than that, and only then. -/
theorem Span.reach_lt_reach_iff {s t : Span} (h : s.nanos ≤ t.nanos) :
    t.reach < s.reach ↔ century < s.nanos ∧ s.nanos ≤ longest ∧ longest < t.nanos := by
  unfold reach
  split <;> split <;> omega

/-- The limits of settings, as long as their spans fit. -/
theorem NetworkConfig.staleAfter_eq_iff (c : NetworkConfig) :
    c.limits.staleAfter = .ofSecs (c.staleNodeHours.toNat * 3600)
      ↔ c.staleNodeHours.toNat ≤ 5124095576030431 := by
  have hfits := toNat_mul_eq_iff c.staleNodeHours 3600
  rw [show (3600 : UInt64).toNat = 3600 from rfl] at hfits
  rw [show c.limits.staleAfter = .ofSecs (c.staleNodeHours * 3600).toNat from rfl,
    Span.ofSecs_inj, hfits, UInt64.size]
  omega

theorem NetworkConfig.onlineTimeout_eq_iff (c : NetworkConfig) :
    c.limits.onlineTimeout = .ofSecs (c.onlineTimeoutMins.toNat * 60)
      ↔ c.onlineTimeoutMins.toNat ≤ 307445734561825860 := by
  have hfits := toNat_mul_eq_iff c.onlineTimeoutMins 60
  rw [show (60 : UInt64).toNat = 60 from rfl] at hfits
  rw [show c.limits.onlineTimeout = .ofSecs (c.onlineTimeoutMins * 60).toNat from rfl,
    Span.ofSecs_inj, hfits, UInt64.size]
  omega

/-! ## Sweeps -/

/-- The end of the years that clocks are set to. -/
def Moment.year2263 : Moment := ⟨(⟨2263, 1, 1⟩ : Time.Date).dayNumber * 86400000000000⟩

theorem Moment.year2263_le_last : Moment.year2263.nanos ≤ Moment.last.nanos := by decide

/-- Nothing lies too far back but what lies before the first moment. -/
theorem Moment.isRepresentable_before_iff {now : Moment} (hnow : now < .year2263) (s : Span) :
    (now.before s).isRepresentable = true ↔ s.reach ≤ now.since .first := by
  have hnonneg := s.reach_nonneg
  have hlast := year2263_le_last
  rw [lt_def] at hnow
  simp only [isRepresentable, Bool.and_eq_true, decide_eq_true_eq, le_def, before, since]
  omega

/-- A century before any time that clocks are set to, there was a year. -/
theorem Moment.century_le_since_first {now : Moment} (hnow : 0 ≤ now.nanos) :
    Span.century ≤ now.since .first := by
  have hfirst : (Span.century : Int) ≤ -Moment.first.nanos := by decide
  rw [since]
  omega

theorem Mesh.cleanup_isSome_iff (m : Mesh) {now : Moment} (hpast : 0 ≤ now.nanos)
    (hnow : now < .year2263) :
    (m.cleanup now).isSome = true ↔ m.limits.staleAfter.nanos ≤ now.since .first ∨
      Span.longest < m.limits.staleAfter.nanos := by
  have hiff : (m.cleanup now).isSome = true ↔ m.limits.staleAfter.reach ≤ now.since .first := by
    rw [← Moment.isRepresentable_before_iff hnow, cleanup]
    split
    · next h => exact iff_of_true rfl h
    · next h => exact iff_of_false nofun h
  rw [hiff]
  by_cases hlong : m.limits.staleAfter.nanos ≤ Span.longest
  · rw [Span.reach_of_le hlong, or_iff_left (Nat.not_lt.2 hlong)]
  · rw [Span.reach_of_gt (Nat.not_le.1 hlong)]
    exact iff_of_true (Moment.century_le_since_first hpast) (Or.inr (Nat.not_le.1 hlong))

/-! ## Settings -/

/-- **Long spans.** Whatever the settings are, the limits carry the spans that were asked for
exactly as long as 64 bits can tell their seconds. At any time from 1970 to 2262 a sweep of a
mesh with these limits comes to its end, and does what a sweep does, exactly if its span leads
back to a year that there is, or if it is cut to a century. And a longer span reaches as far
as a shorter one, exactly unless it is cut and the shorter one is longer than a century. -/
theorem long_spans (c : NetworkConfig) (primary : String) (orders : HashOrders)
    (steps : List Mesh.Step) (now : Moment) (hpast : 0 ≤ now.nanos) (hnow : now < .year2263) :
    let m := (Mesh.new c.limits primary orders).after steps
    (c.limits.staleAfter = .ofSecs (c.staleNodeHours.toNat * 3600)
      ↔ c.staleNodeHours.toNat ≤ 5124095576030431) ∧
    (c.limits.onlineTimeout = .ofSecs (c.onlineTimeoutMins.toNat * 60)
      ↔ c.onlineTimeoutMins.toNat ≤ 307445734561825860) ∧
    ((m.cleanup now).isSome = true ↔ c.limits.staleAfter.nanos ≤ now.since .first ∨
      Span.longest < c.limits.staleAfter.nanos) ∧
    (∀ answer ∈ m.cleanup now, answer = m.sweep now) ∧
    ∀ s t : Span, s.nanos ≤ t.nanos → (t.reach < s.reach ↔
      Span.century < s.nanos ∧ s.nanos ≤ Span.longest ∧ Span.longest < t.nanos) := by
  intro m
  have hlimits : m.limits = c.limits := Mesh.limits_after steps _
  refine ⟨c.staleAfter_eq_iff, c.onlineTimeout_eq_iff, ?_, ?_, fun s t => Span.reach_lt_reach_iff⟩
  · rw [← hlimits]
    exact m.cleanup_isSome_iff hpast hnow
  · intro answer hanswer
    unfold Mesh.cleanup at hanswer
    split at hanswer
    · cases hanswer
      rfl
    · cases hanswer

/-- The longest time after which nodes may be forgotten such that a sweep comes to its end in
1970 already. -/
theorem sweep_back_to_first_year :
    let c : NetworkConfig := { staleNodeHours := 2315167008 }
    let now : Moment := .ofSecs 0
    c.check = .ok () ∧ 0 ≤ now.nanos ∧ now < .year2263 ∧
    c.limits.staleAfter.nanos = now.since .first ∧
    ((Mesh.new c.limits "LongFast" {}).cleanup now).isSome = true := by
  intro c now
  have hpast : 0 ≤ now.nanos := by decide
  have hnow : now < .year2263 := by decide
  have hfirst : c.limits.staleAfter.nanos = now.since .first := by decide
  obtain ⟨-, -, hcleanup, -⟩ := long_spans c "LongFast" {} [] now hpast hnow
  exact ⟨rfl, hpast, hnow, hfirst, hcleanup.2 (Or.inl (Int.le_of_eq hfirst))⟩

/-- Settings that pass the check and fail afterwards: of hours and of minutes that go round, of
a sweep that finds no year, and of a longer time that becomes a shorter one. -/
theorem accepted_spans_fail :
    let hours (n : UInt64) : NetworkConfig := { staleNodeHours := n }
    let minutes (n : UInt64) : NetworkConfig := { onlineTimeoutMins := n }
    let now : Moment := .ofSecs 1704067200
    (hours 5124095576030432).check = .ok () ∧
    (hours 5124095576030432).limits.staleAfter = .ofSecs 3584 ∧
    (minutes 307445734561825861).check = .ok () ∧
    (minutes 307445734561825861).limits.onlineTimeout = .ofSecs 44 ∧
    (hours 2400000000).check = .ok () ∧ 0 ≤ now.nanos ∧ now < .year2263 ∧
    ((Mesh.new (hours 2400000000).limits "LongFast" {}).cleanup now).isSome = false ∧
    (hours 2000000000).check = .ok () ∧ (hours 5124095576030431).check = .ok () ∧
    (hours 2000000000).limits.staleAfter.nanos ≤ (hours 5124095576030431).limits.staleAfter.nanos ∧
    (hours 5124095576030431).limits.staleAfter.reach
      < (hours 2000000000).limits.staleAfter.reach := by
  refine ⟨rfl, by decide, rfl, by decide, rfl, by decide, by decide, ?_, rfl, rfl, by decide,
    by decide⟩
  decide +kernel

end MeshWatch
