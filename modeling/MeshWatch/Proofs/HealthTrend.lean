import Mathlib.Data.Fintype.Card
import MeshWatch.Mesh.Health
import MeshWatch.Proofs.FloatValues
import MeshWatch.Proofs.StoredState
import MeshWatch.Proofs.Tracking
import MeshWatch.Traffic

/-!
# Health as nodes go silent

While nothing is heard, nodes only go from online to offline, and the health of the mesh is
read off fewer of them. The share of nodes that are online falls then, but the other two parts
of the score are made of means, and a mean gets better when a bad member leaves. So the score
may rise with a loss, and all that can be said is through which parts it does: each of them is
a monotone function of what it is computed from, roundings included.

- `rounded_le`: the score keeps the order of the points.
- `value_onlinePoints_le`, `value_linkPoints_le`, `value_channelPoints_le`: the three parts.
- `score_le`: fewer nodes without a better mean do not score more.
- `health_of_silent_mesh`: the same of every mesh that broker messages lead to.
- `score_rises_with_loss`: a mesh that is better off without a node.
-/

namespace MeshWatch

open Ieee

/-! ## From points to a score -/

namespace MeshHealth

variable {x y : Float32}

theorem toNat_nearest (q : ℚ) :
    (SignType.sign q * (⌊|q| + 1 / 2⌋₊ : Int)).toNat = ⌊q + 1 / 2⌋₊ := by
  rcases lt_trichotomy q 0 with hlt | rfl | hgt
  · have hfloor : ⌊q + 1 / 2⌋₊ = 0 := Nat.floor_eq_zero.2 (by linarith)
    rw [sign_neg hlt, SignType.coe_neg_one, hfloor]
    omega
  · have hfloor : ⌊(0 : ℚ) + 1 / 2⌋₊ = 0 := Nat.floor_eq_zero.2 (by norm_num)
    rw [sign_zero, SignType.coe_zero, zero_mul, hfloor]
    rfl
  · rw [sign_pos hgt, SignType.coe_one, one_mul, abs_of_pos hgt]
    rfl

/-- The score of a number of points is the nearest whole number, up to a hundred. -/
theorem rounded_eq (hx : x.isFinite = true) :
    rounded x = UInt8.ofNat (min ⌊value x + 1 / 2⌋₊ 100) := by
  obtain ⟨negative, m, q, hword, -⟩ := ofSingle_eq hx
  have hint := nearestInt?_ofSingle hx
  unfold rounded
  rw [hword] at hint ⊢
  dsimp only
  rw [hint, Option.getD_some, toNat_nearest]

theorem toNat_rounded (hx : x.isFinite = true) :
    (rounded x).toNat = min ⌊value x + 1 / 2⌋₊ 100 := by
  rw [rounded_eq hx]
  exact UInt8.toNat_ofNat_of_lt' ((min_le_right _ 100).trans_lt (by decide))

theorem rounded_le (hx : x.isFinite = true) (hy : y.isFinite = true) (h : value x ≤ value y) :
    rounded x ≤ rounded y := by
  rw [UInt8.le_iff_toNat_le, toNat_rounded hx, toNat_rounded hy]
  exact min_le_min_right 100 (Nat.floor_mono (by linarith))

/-! ## The three parts -/

variable {total k k' : Nat} {xs ys : List Float32}

theorem within_onlinePoints (h1 : 1 ≤ total) (ht : total ≤ 2 ^ 32) (hk : k ≤ total) :
    Within (2 ^ 38) (onlinePoints k total) ∧
    value (onlinePoints k total) = nearest (nearest (nearest k / nearest total) * 40) := by
  obtain ⟨hforty, hvforty⟩ := within_literal 40 (by decide)
  have hle : (k : ℚ) ≤ 2 ^ 32 := by exact_mod_cast hk.trans ht
  obtain ⟨hcount, hvcount⟩ := within_ofNat hle (bound_two_pow (by decide))
  obtain ⟨hshare, hvshare⟩ := within_share hcount h1 ht
  obtain ⟨hpoints, hvpoints⟩ :=
    hshare.mul hforty (bound_two_pow (k := 38) (by decide)) (by norm_num)
  refine ⟨hpoints, ?_⟩
  rw [onlinePoints, hvpoints, hvshare, hvcount, hvforty]

/-- Fewer nodes online, fewer points. -/
theorem value_onlinePoints_le (h1 : 1 ≤ total) (ht : total ≤ 2 ^ 32) (hk : k ≤ total)
    (h : k' ≤ k) : value (onlinePoints k' total) ≤ value (onlinePoints k total) := by
  rw [(within_onlinePoints h1 ht hk).2, (within_onlinePoints h1 ht (h.trans hk)).2]
  have hcount : nearest k' ≤ nearest k := nearest_mono (by exact_mod_cast h)
  have htotal : 0 ≤ nearest total := nearest_nonneg (by positivity)
  refine nearest_mono (mul_le_mul_of_nonneg_right ?_ (by norm_num))
  exact nearest_mono (div_le_div_of_nonneg_right hcount htotal)

theorem linkPoints_nil : linkPoints [] = 0 := rfl

theorem value_linkPoints (h : Within (2 ^ 32) (mean xs)) (hne : xs.isEmpty = false) :
    Within 30 (linkPoints xs) ∧ value (linkPoints xs)
      = min (max (nearest (nearest (value (mean xs) + 10) * 2)) 0) 30 := by
  obtain ⟨hten, hvten⟩ := within_literal 10 (by decide)
  obtain ⟨htwo, hvtwo⟩ := within_literal 2 (by decide)
  obtain ⟨hthirty, hvthirty⟩ := within_literal 30 (by decide)
  obtain ⟨hraised, hvraised⟩ := h.add hten (bound_two_pow (k := 33) (by decide)) (by norm_num)
  obtain ⟨hdoubled, hvdoubled⟩ :=
    hraised.mul htwo (bound_two_pow (k := 34) (by decide)) (by norm_num)
  have hpoints : linkPoints xs = clamp 0 30 ((mean xs + 10) * 2) := by
    rw [linkPoints, hne]
    rfl
  rw [hpoints]
  refine ⟨within_clamp (within_zero (by norm_num)) hthirty hdoubled.isFinite, ?_⟩
  rw [value_clamp rfl rfl hdoubled.isFinite, hvdoubled, hvraised, hvten, hvtwo, hvthirty]
  rfl

theorem within_linkPoints (h : Within (2 ^ 32) (mean xs)) :
    Within 30 (linkPoints xs) ∧ 0 ≤ value (linkPoints xs) := by
  cases hxs : xs.isEmpty with
  | true =>
    rw [List.isEmpty_iff.1 hxs, linkPoints_nil]
    exact ⟨within_zero (by norm_num), le_refl (0 : ℚ)⟩
  | false =>
    obtain ⟨hwithin, hvalue⟩ := value_linkPoints h hxs
    refine ⟨hwithin, ?_⟩
    rw [hvalue]
    exact le_min (le_max_right ..) (by norm_num)

/-- No better mean ratio, no more points. -/
theorem value_linkPoints_le (hx : Within (2 ^ 32) (mean xs)) (hy : Within (2 ^ 32) (mean ys))
    (hsub : ys.Sublist xs) (h : value (mean ys) ≤ value (mean xs)) :
    value (linkPoints ys) ≤ value (linkPoints xs) := by
  cases hys : ys.isEmpty with
  | true =>
    -- what was not measured earns nothing
    rw [List.isEmpty_iff.1 hys, linkPoints_nil]
    exact (within_linkPoints hx).2
  | false =>
    have hxs : xs.isEmpty = false := by
      cases hxs : xs.isEmpty with
      | true =>
        rw [List.isEmpty_iff.1 hxs] at hsub
        rw [List.sublist_nil.1 hsub] at hys
        cases hys
      | false => rfl
    rw [(value_linkPoints hx hxs).2, (value_linkPoints hy hys).2]
    have hraised := nearest_mono (add_le_add_left h 10)
    have hdoubled := nearest_mono (mul_le_mul_of_nonneg_right hraised zero_le_two)
    exact min_le_min_right 30 (max_le_max_right 0 hdoubled)

theorem channelPoints_zero (xs : List Float32) : channelPoints 0 xs = 0 := if_pos rfl

/-- The points per percent of the channel that is in use. -/
theorem within_weight : Within 1 (0.3 : Float32) ∧ 0 ≤ value (0.3 : Float32) := by
  have hu : (0.3 : Float32).toModel.unpack = .finite .positive 10066330 (-25) (by decide) := rfl
  refine ⟨within_of_unpack hu (by norm_num), ?_⟩
  rw [value_eq hu, signed]
  positivity

theorem value_channelPoints (h : Within (2 ^ 32) (mean xs)) (hk : k ≠ 0) :
    Within (2 ^ 33) (channelPoints k xs) ∧ value (channelPoints k xs)
      = max 0 (nearest (30 - nearest (value (mean xs) * value 0.3))) := by
  obtain ⟨hthirty, hvthirty⟩ := within_literal 30 (by decide)
  obtain ⟨hused, hvused⟩ :=
    h.mul within_weight.1 (bound_two_pow (k := 32) (by decide)) (by norm_num)
  obtain ⟨hleft, hvleft⟩ := hthirty.sub hused (bound_two_pow (k := 33) (by decide)) (by norm_num)
  have hpoints : channelPoints k xs = atLeast 0 (30 - mean xs * 0.3) := if_neg hk
  rw [hpoints]
  refine ⟨within_atLeast (within_zero (by norm_num)) hleft, ?_⟩
  rw [value_atLeast rfl hleft.isFinite, hvleft, hvused, hvthirty]
  rfl

theorem within_channelPoints (h : Within (2 ^ 32) (mean xs)) (k : Nat) :
    Within (2 ^ 33) (channelPoints k xs) ∧ 0 ≤ value (channelPoints k xs) := by
  by_cases hk : k = 0
  · rw [hk, channelPoints_zero]
    exact ⟨within_zero (by norm_num), le_refl (0 : ℚ)⟩
  · obtain ⟨hwithin, hvalue⟩ := value_channelPoints h hk
    refine ⟨hwithin, ?_⟩
    rw [hvalue]
    exact le_max_left ..

/-- No lower mean utilisation, no more points. -/
theorem value_channelPoints_le (hx : Within (2 ^ 32) (mean xs)) (hy : Within (2 ^ 32) (mean ys))
    (hk : k' ≤ k) (h : value (mean xs) ≤ value (mean ys)) :
    value (channelPoints k' ys) ≤ value (channelPoints k xs) := by
  by_cases hk' : k' = 0
  · -- nobody is there to see the channel
    rw [hk', channelPoints_zero]
    exact (within_channelPoints hx k).2
  · have hk₀ : k ≠ 0 := by omega
    rw [(value_channelPoints hx hk₀).2, (value_channelPoints hy hk').2]
    have hused := nearest_mono (mul_le_mul_of_nonneg_right h within_weight.2)
    exact max_le_max_left 0 (nearest_mono (sub_le_sub_left hused 30))

/-! ## The score -/

/-- The mean ratios of the measured links. -/
def ratios (online : List Node) : List Float32 :=
  ((online.map Node.linkQuality).filter LinkQuality.hasSamples).map LinkQuality.snrAvg

/-- The utilisations of the channel that were reported. -/
def utilizations (online : List Node) : List Float32 :=
  online.filterMap fun n => n.telemetry.device.channelUtilization

/-- The points of the nodes that are online, before they are rounded. -/
def points (total : Nat) (online : List Node) : Float32 :=
  onlinePoints online.length total + linkPoints (ratios online)
    + channelPoints online.length (utilizations online)

theorem score_ofNodes (total : Nat) (online : List Node) :
    (ofNodes total online).score = rounded (points total online) := rfl

/-- What a mesh takes from its traffic: a moderate mean ratio, and percentages. -/
structure Rated (n : Node) : Prop where
  snrAvg : Within 64 n.linkQuality.snrAvg
  utilization : ∀ u ∈ n.telemetry.device.channelUtilization, IsPercentage u

theorem within_of_isPercentage {u : Float32} (h : IsPercentage u) : Within 128 u := by
  obtain ⟨hfin, hlow, hhigh⟩ := h
  obtain ⟨hhundred, hvalue⟩ := within_literal 100 (by decide)
  have hnonneg : 0 ≤ value u := (le_iff_value_le rfl hfin).1 hlow
  have hle : value u ≤ 100 := hvalue ▸ (le_iff_value_le hfin hhundred.isFinite).1 hhigh
  refine ⟨hfin, ?_⟩
  rw [abs_of_nonneg hnonneg]
  linarith

variable {online lost : List Node}

theorem within_ratios (h : ∀ n ∈ online, Rated n) : ∀ x ∈ ratios online, Within 128 x := by
  intro x hx
  obtain ⟨q, hq, rfl⟩ := List.mem_map.1 hx
  obtain ⟨n, hn, rfl⟩ := List.mem_map.1 (List.mem_filter.1 hq).1
  exact (h n hn).snrAvg.mono (by norm_num)

theorem within_utilizations (h : ∀ n ∈ online, Rated n) :
    ∀ x ∈ utilizations online, Within 128 x := by
  intro x hx
  obtain ⟨n, hn, hu⟩ := List.mem_filterMap.1 hx
  exact within_of_isPercentage ((h n hn).utilization x hu)

theorem length_ratios_le (online : List Node) : (ratios online).length ≤ online.length := by
  rw [ratios, List.length_map]
  refine (List.length_filter_le ..).trans ?_
  rw [List.length_map]

theorem length_utilizations_le (online : List Node) :
    (utilizations online).length ≤ online.length := List.length_filterMap_le ..

theorem within_mean_ratios (h : ∀ n ∈ online, Rated n) (hlen : online.length ≤ 2 ^ 32) :
    Within (2 ^ 32) (mean (ratios online)) :=
  within_mean (within_ratios h) ((length_ratios_le online).trans hlen)

theorem within_mean_utilizations (h : ∀ n ∈ online, Rated n) (hlen : online.length ≤ 2 ^ 32) :
    Within (2 ^ 32) (mean (utilizations online)) :=
  within_mean (within_utilizations h) ((length_utilizations_le online).trans hlen)

theorem value_points (h1 : 1 ≤ total) (ht : total ≤ 2 ^ 32) (hlen : online.length ≤ total)
    (h : ∀ n ∈ online, Rated n) :
    (points total online).isFinite = true ∧ value (points total online)
      = nearest (nearest (value (onlinePoints online.length total)
        + value (linkPoints (ratios online)))
        + value (channelPoints online.length (utilizations online))) := by
  have hshare := (within_onlinePoints h1 ht hlen).1
  have hlinks := (within_linkPoints (within_mean_ratios h (hlen.trans ht))).1
  have hchannel :=
    (within_channelPoints (within_mean_utilizations h (hlen.trans ht)) online.length).1
  obtain ⟨hsum, hvsum⟩ := hshare.add hlinks (bound_two_pow (k := 39) (by decide)) (by norm_num)
  obtain ⟨hall, hvall⟩ := hsum.add hchannel (bound_two_pow (k := 40) (by decide)) (by norm_num)
  refine ⟨hall.isFinite, ?_⟩
  rw [points, hvall, hvsum]

/-- Nobody online scores nothing. -/
theorem score_nil (h1 : 1 ≤ total) (ht : total ≤ 2 ^ 32) : (ofNodes total []).score = 0 := by
  have hrated : ∀ n ∈ ([] : List Node), Rated n := fun n hn => absurd hn List.not_mem_nil
  have hlen : ([] : List Node).length ≤ total := Nat.zero_le total
  obtain ⟨hfin, hvalue⟩ := value_points h1 ht hlen hrated
  have hshare : value (onlinePoints ([] : List Node).length total) = 0 := by
    rw [(within_onlinePoints h1 ht hlen).2, List.length_nil, Nat.cast_zero, nearest_zero, zero_div,
      nearest_zero, zero_mul, nearest_zero]
  have hlinks : value (linkPoints (ratios [])) = 0 := rfl
  have hchannel : value (channelPoints ([] : List Node).length (utilizations [])) = 0 := by
    rw [List.length_nil, channelPoints_zero]
    rfl
  have hfloor : ⌊(0 : ℚ) + 1 / 2⌋₊ = 0 := Nat.floor_eq_zero.2 (by norm_num)
  rw [hshare, hlinks, hchannel, add_zero, add_zero, nearest_zero, nearest_zero] at hvalue
  rw [score_ofNodes, rounded_eq hfin, hvalue, hfloor]
  rfl

/-- **Fewer nodes without a better mean do not score more.** -/
theorem score_le (h1 : 1 ≤ total) (ht : total ≤ 2 ^ 32) (hlen : online.length ≤ total)
    (h : ∀ n ∈ online, Rated n) (hsub : lost.Sublist online)
    (hsnr : ¬ (ofNodes total online).avgSnr < (ofNodes total lost).avgSnr)
    (hused : ¬ (ofNodes total lost).avgChannelUtilization
      < (ofNodes total online).avgChannelUtilization) :
    (ofNodes total lost).score ≤ (ofNodes total online).score := by
  have hlost : ∀ n ∈ lost, Rated n := fun n hn => h n (hsub.subset hn)
  have hfewer := hsub.length_le
  have hlen' := hfewer.trans hlen
  have hratios := within_mean_ratios h (hlen.trans ht)
  have hratios' := within_mean_ratios hlost (hlen'.trans ht)
  have hseen := within_mean_utilizations h (hlen.trans ht)
  have hseen' := within_mean_utilizations hlost (hlen'.trans ht)
  have hmeasured : (ratios lost).Sublist (ratios online) := ((hsub.map _).filter _).map _
  have hshare := value_onlinePoints_le h1 ht hlen hfewer
  have hlinks := value_linkPoints_le hratios hratios' hmeasured
    (value_le_of_not_lt hratios'.isFinite hratios.isFinite hsnr)
  have hchannel := value_channelPoints_le hseen hseen' hfewer
    (value_le_of_not_lt hseen.isFinite hseen'.isFinite hused)
  obtain ⟨hfin, hvalue⟩ := value_points h1 ht hlen h
  obtain ⟨hfin', hvalue'⟩ := value_points h1 ht hlen' hlost
  rw [score_ofNodes, score_ofNodes]
  refine rounded_le hfin' hfin ?_
  rw [hvalue, hvalue']
  exact nearest_mono (add_le_add (nearest_mono (add_le_add hshare hlinks)) hchannel)

end MeshHealth

/-! ## Silent meshes -/

namespace Mesh

/-- There are no more nodes than addresses. -/
theorem size_nodes_le (m : Mesh) : m.nodes.size ≤ 2 ^ 32 := by
  have hinj : Function.Injective fun id : NodeId => id.value.toFin := by
    intro a b h
    exact NodeId.ext_value (UInt32.toFin_inj.1 h)
  have hlen := (Std.ExtTreeMap.nodup_keys (t := m.nodes)).map hinj |>.length_le_card
  rw [List.length_map, Std.ExtTreeMap.length_keys, Fintype.card_fin] at hlen
  exact hlen

theorem length_onlineNodes_le (m : Mesh) (now : Moment) :
    (m.onlineNodes now).length ≤ m.nodes.size := by
  exact (List.length_filter_le ..).trans_eq m.length_walkedNodes

/-- While nothing is heard, nodes only go offline. -/
theorem onlineNodes_sublist (m : Mesh) {t t' : Moment} (h : t ≤ t') :
    (m.onlineNodes t').Sublist (m.onlineNodes t) := by
  refine List.monotone_filter_right _ fun n hn => ?_
  rw [Node.isOnline_iff] at hn ⊢
  rw [Moment.le_def] at h
  omega

theorem rated_of_mem_onlineNodes {m : Mesh}
    (hrated : EveryNode (fun _ n => MeshHealth.Rated n) m) (now : Moment) :
    ∀ n ∈ m.onlineNodes now, MeshHealth.Rated n := by
  intro n hn
  obtain ⟨id, hid⟩ := mem_walkedNodes.1 (List.mem_filter.1 hn).1
  exact hrated id n hid

theorem health_of_nodes {m : Mesh} (h : 1 ≤ m.nodes.size) (now : Moment) :
    m.health now = .ofNodes m.nodes.size (m.onlineNodes now) := by
  refine if_neg ?_
  rw [Std.ExtTreeMap.isEmpty_eq_size_beq_zero, beq_iff_eq]
  omega

theorem health_of_no_nodes {m : Mesh} (h : m.nodes.size = 0) (now : Moment) :
    m.health now = .none := by
  refine if_pos ?_
  rw [Std.ExtTreeMap.isEmpty_eq_size_beq_zero, beq_iff_eq]
  exact h

theorem totalNodes_health (m : Mesh) (now : Moment) : (m.health now).totalNodes = m.nodes.size := by
  obtain h0 | hpos := Nat.eq_zero_or_pos m.nodes.size
  · rw [health_of_no_nodes h0, h0]
    rfl
  · rw [health_of_nodes hpos]
    rfl

theorem onlineNodes_health (m : Mesh) (now : Moment) :
    (m.health now).onlineNodes = (m.onlineNodes now).length := by
  obtain h0 | hpos := Nat.eq_zero_or_pos m.nodes.size
  · have hlen := m.length_onlineNodes_le now
    rw [health_of_no_nodes h0]
    show 0 = _
    omega
  · rw [health_of_nodes hpos]
    rfl

theorem score_health_of_none {m : Mesh} {now : Moment} (h : m.onlineNodes now = []) :
    (m.health now).score = 0 := by
  obtain h0 | hpos := Nat.eq_zero_or_pos m.nodes.size
  · rw [health_of_no_nodes h0]
    rfl
  · rw [health_of_nodes hpos, h]
    exact MeshHealth.score_nil hpos m.size_nodes_le

/-- A score that rises while nothing is heard does so by a better mean. -/
theorem better_mean_of_score_lt {m : Mesh} (hrated : EveryNode (fun _ n => MeshHealth.Rated n) m)
    {t t' : Moment} (h : t ≤ t') (hrise : (m.health t).score < (m.health t').score) :
    (m.health t).avgSnr < (m.health t').avgSnr ∨
    (m.health t').avgChannelUtilization < (m.health t).avgChannelUtilization := by
  obtain h0 | hpos := Nat.eq_zero_or_pos m.nodes.size
  · rw [health_of_no_nodes h0, health_of_no_nodes h0] at hrise
    exact absurd hrise (UInt8.lt_irrefl _)
  · have honline := rated_of_mem_onlineNodes hrated t
    by_contra hmeans
    rw [health_of_nodes hpos, health_of_nodes hpos] at hmeans hrise
    rw [not_or] at hmeans
    have hle := MeshHealth.score_le hpos m.size_nodes_le (m.length_onlineNodes_le t) honline
      (m.onlineNodes_sublist h) hmeans.1 hmeans.2
    exact UInt8.not_lt.2 hle hrise

end Mesh

namespace Monitor

open Mesh (EveryNode)

/-- Whatever messages come, the nodes keep what their health is computed from in bounds. -/
theorem rated_after (limits : Limits) (primary : String) (orders : HashOrders) (receiver : Receiver)
    (stats : Stats) (rejections : RejectionWindow) (steps : List Step) :
    EveryNode (fun _ n => MeshHealth.Rated n)
      (after ⟨Mesh.new limits primary orders, receiver, stats, rejections⟩ steps).mesh := by
  intro id n hn
  have hclean := nodes_stay_clean limits primary orders receiver stats rejections steps id n hn
  have hmeasured := lasting_after Mesh.lasting_measured steps
    ⟨Mesh.new limits primary orders, receiver, stats, rejections⟩
      (Mesh.everyNode_new _ limits primary orders)
    id n hn
  exact ⟨hmeasured.link.snrAvg, hclean.telemetry.device.channelUtilization⟩

/-- **Health as nodes go silent.** In every mesh that broker messages and sweeps lead to, and
between any two times at which nothing is heard in between, the nodes that are online get
fewer among those that are known. Nobody being online scores nothing, and if the score rises at
all, then because those that are left are better heard in the mean or see less of the channel
in use. -/
theorem health_of_silent_mesh (limits : Limits) (primary : String) (orders : HashOrders)
    (receiver : Receiver) (stats : Stats) (rejections : RejectionWindow) (steps : List Step)
    {t t' : Moment} (h : t ≤ t') :
    let m := (after ⟨Mesh.new limits primary orders, receiver, stats, rejections⟩ steps).mesh
    (m.onlineNodes t').Sublist (m.onlineNodes t) ∧
    (m.health t').totalNodes = (m.health t).totalNodes ∧
    (m.health t').onlineNodes ≤ (m.health t).onlineNodes ∧
    (m.onlineNodes t' = [] → (m.health t').score = 0) ∧
    ((m.health t).score < (m.health t').score →
      (m.health t).avgSnr < (m.health t').avgSnr ∨
      (m.health t').avgChannelUtilization < (m.health t).avgChannelUtilization) := by
  intro m
  have hsub := m.onlineNodes_sublist h
  refine ⟨hsub, ?_, ?_, Mesh.score_health_of_none, ?_⟩
  · rw [Mesh.totalNodes_health, Mesh.totalNodes_health]
  · rw [Mesh.onlineNodes_health, Mesh.onlineNodes_health]
    exact hsub.length_le
  · have hrated := rated_after limits primary orders receiver stats rejections steps
    exact Mesh.better_mean_of_score_lt hrated h

section Example

/-- A message of a gateway that tells the packet as text. -/
def overheard (text : String) (s : Int) : Step :=
  ⟨.message "msh/2/json/LongFast" (Bytes.ofText text) 0, .ofSecs s⟩

/-- A node that is heard badly in a channel that is full, and after ten minutes one that is
heard well in a channel that is free. -/
def fullThenFree : List Step :=
  [overheard ("\x7b\"from\":4098,\"id\":1,\"type\":\"telemetry\",\"snr\":-20," ++
    "\"payload\":\x7b\"channel_utilization\":100\x7d\x7d") 0,
   overheard ("\x7b\"from\":4097,\"id\":2,\"type\":\"telemetry\",\"snr\":5," ++
    "\"payload\":\x7b\"channel_utilization\":0\x7d\x7d") 600]

/-- A node that tells of a full channel, and after ten minutes one that tells nothing of it. -/
def fullThenUntold : List Step :=
  [overheard ("\x7b\"from\":4098,\"id\":1,\"type\":\"telemetry\"," ++
    "\"payload\":\x7b\"channel_utilization\":100\x7d\x7d") 0,
   overheard "\x7b\"from\":4097,\"id\":2,\"type\":\"text\",\"payload\":\x7b\"text\":\"hi\"\x7d\x7d"
    600]

theorem means_improve_with_loss :
    let start : Monitor := ⟨Mesh.new {} "" {}, {}, {}, .standard⟩
    let m := (start.after fullThenFree).mesh
    let t : Moment := .ofSecs 900
    let t' : Moment := .ofSecs 901
    t ≤ t' ∧ (m.health t).score < (m.health t').score ∧
    ((m.health t).avgSnr < (m.health t').avgSnr ∨
      (m.health t').avgChannelUtilization < (m.health t).avgChannelUtilization) := by
  intro start m t t'
  have h : t ≤ t' := by decide
  obtain ⟨-, -, -, -, hmeans⟩ := health_of_silent_mesh {} "" {} {} {} .standard fullThenFree h
  have hrise : (m.health t).score < (m.health t').score := by decide +kernel
  exact ⟨h, hrise, hmeans hrise⟩

/-- Within a second of silence the node that was heard first goes offline, and the score rises:
by twenty points, as it was a burden to both means, or by ten, as it was the only one to tell
of the channel and a channel of which nothing is told counts as free. -/
theorem score_rises_with_loss :
    let start : Monitor := ⟨Mesh.new {} "" {}, {}, {}, .standard⟩
    let m := (start.after fullThenFree).mesh
    let m' := (start.after fullThenUntold).mesh
    let t : Moment := .ofSecs 900
    let t' : Moment := .ofSecs 901
    t ≤ t' ∧ [t, t'].map (fun now => (m.health now).score) = [60, 80] ∧
    [t, t'].map (fun now => (m'.health now).score) = [40, 50] := by
  intro start m m' t t'
  refine ⟨by decide, ?_, ?_⟩ <;> decide +kernel

end Example

end Monitor

end MeshWatch
