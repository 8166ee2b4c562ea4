import MeshWatch.Proofs.HealthTrend

/-!
# Health of a mesh that is heard throughout

When all nodes are online they earn all points of that part, and when all are heard above zero
decibels the links earn two thirds of theirs at the least. That makes sixty points, and the rest
depends on the channel: every percent of it in use costs three tenths of a point, so that up to
thirty-five percent the mesh is excellent, and above that it may just be good.

- `le_rounded_iff`: the points that a score needs.
- `value_onlinePoints_self`, `le_value_linkPoints`, `le_value_channelPoints`: the three parts.
- `score_of_heard`, `excellent_iff_points`: the score of such nodes.
- `health_of_heard_mesh`: the same of every mesh that broker messages lead to.
- `heard_mesh_in_full_channel`: such a mesh that is not excellent.
-/

namespace MeshWatch

open Ieee

namespace HealthStatus

variable {score : UInt8}

theorem ofScore_eq_excellent_iff : ofScore score = excellent ↔ 80 ≤ score := by
  refine ⟨fun h => ?_, ofScore_excellent⟩
  by_contra hlow
  rw [ofScore, if_neg hlow] at h
  split_ifs at h

theorem ofScore_of_le (h : 60 ≤ score) : ofScore score = excellent ∨ ofScore score = good := by
  by_cases hhigh : 80 ≤ score
  · exact Or.inl (ofScore_excellent hhigh)
  · exact Or.inr ((if_neg hhigh).trans (if_pos h))

end HealthStatus

/-- Rounding does not go below a number of the format. -/
theorem Ieee.le_nearest {a q : ℚ} (ha : nearest a = a) (h : a ≤ q) : a ≤ nearest q := by
  rw [← ha]
  exact nearest_mono h

namespace MeshHealth

variable {x : Float32} {total k : Nat} {xs : List Float32} {online : List Node}

/-- A score is reached half a point below it. -/
theorem le_rounded_iff {n : Nat} (h0 : n ≠ 0) (h : n ≤ 100) (hx : x.isFinite = true) :
    UInt8.ofNat n ≤ rounded x ↔ (n : ℚ) - 1 / 2 ≤ value x := by
  have hsize : (100 : Nat) < UInt8.size := by decide
  rw [rounded_eq hx, UInt8.le_iff_toNat_le, UInt8.toNat_ofNat_of_lt' (h.trans_lt hsize),
    UInt8.toNat_ofNat_of_lt' ((min_le_right _ 100).trans_lt hsize), le_min_iff,
    Nat.le_floor_iff' h0, sub_le_iff_le_add]
  exact and_iff_left h

/-! ## The three parts -/

theorem value_onlinePoints_self (h1 : 1 ≤ total) (ht : total ≤ 2 ^ 32) :
    value (onlinePoints total total) = 40 := by
  have hone : nearest 1 = 1 := by exact_mod_cast nearest_natCast (n := 1) (by decide)
  have hforty : nearest 40 = 40 := by exact_mod_cast nearest_natCast (n := 40) (by decide)
  have htotal : 1 ≤ nearest total := le_nearest hone (by exact_mod_cast h1)
  rw [(within_onlinePoints h1 ht le_rfl).2, div_self (zero_lt_one.trans_le htotal).ne', hone,
    one_mul, hforty]

theorem nearest_sixty : nearest 60 = 60 := by
  exact_mod_cast nearest_natCast (n := 60) (by decide)

/-- Above zero decibels the links earn twenty points. -/
theorem le_value_linkPoints (h : Within (2 ^ 32) (mean xs)) (hne : xs.isEmpty = false)
    (hpos : 0 ≤ value (mean xs)) : 20 ≤ value (linkPoints xs) := by
  have hten : nearest 10 = 10 := by exact_mod_cast nearest_natCast (n := 10) (by decide)
  have htwenty : nearest 20 = 20 := by exact_mod_cast nearest_natCast (n := 20) (by decide)
  have hraised : 10 ≤ nearest (value (mean xs) + 10) := le_nearest hten (by linarith)
  have hdoubled : 20 ≤ nearest (nearest (value (mean xs) + 10) * 2) :=
    le_nearest htwenty (by linarith)
  rw [(value_linkPoints h hne).2]
  exact le_min (le_max_of_le_left hdoubled) (by norm_num)

theorem value_weight : value (0.3 : Float32) = 10066330 / 2 ^ 25 := by
  have hu : (0.3 : Float32).toModel.unpack = .finite .positive 10066330 (-25) (by decide) := rfl
  rw [value_eq hu, signed]
  norm_num

/-- The weight is a little above three tenths, but the product is rounded back. -/
theorem nearest_weighted : nearest (35 * value 0.3) = 21 / 2 := by
  rw [value_weight]
  have hpos : (0 : ℚ) < 35 * (10066330 / 2 ^ 25) := by norm_num
  have hplace : lastPlace (35 * (10066330 / 2 ^ 25)) = -20 := by
    have hlow := (Int.zpow_le_iff_le_log (x := 3) (by decide : 1 < 2) hpos).1 (by norm_num)
    have hhigh := (Int.lt_zpow_iff_log_lt (x := 4) (by decide : 1 < 2) hpos).1 (by norm_num)
    rw [lastPlace, abs_of_pos hpos]
    omega
  have hfloor : ⌊(35 * (10066330 / 2 ^ 25) : ℚ) / 2 ^ (-20 : Int)⌋₊ = 11010048 := by
    rw [Nat.floor_eq_iff (by norm_num)]
    constructor <;> norm_num
  rw [nearest_of_pos hpos, hplace, halfEven, hfloor, if_pos (by norm_num)]
  norm_num

/-- Up to thirty-five percent of the channel leave at least nineteen points and a half. -/
theorem le_value_channelPoints (h : Within (2 ^ 32) (mean xs)) (hk : k ≠ 0)
    (hused : value (mean xs) ≤ 35) : 39 / 2 ≤ value (channelPoints k xs) := by
  have hcost : nearest (value (mean xs) * value 0.3) ≤ 21 / 2 := by
    rw [← nearest_weighted]
    exact nearest_mono (mul_le_mul_of_nonneg_right hused within_weight.2)
  have hleft : nearest (39 / 2) = 39 / 2 := by exact_mod_cast nearest_half (n := 39) (by decide)
  rw [(value_channelPoints h hk).2]
  exact le_max_of_le_right (le_nearest hleft (by linarith))

/-! ## The score -/

/-- All points of the first part, and those of the other two for what a health tells. -/
def fullPoints (h : MeshHealth) : Float32 :=
  40 + clamp 0 30 ((h.avgSnr + 10) * 2) + atLeast 0 (30 - h.avgChannelUtilization * 0.3)

/-- A node whose links are heard above zero decibels. -/
structure Heard (n : Node) : Prop extends Rated n where
  measured : n.linkQuality.hasSamples = true
  positive : 0 < n.linkQuality.snrAvg

theorem rated_of_heard (h : ∀ n ∈ online, Heard n) : ∀ n ∈ online, Rated n :=
  fun n hn => (h n hn).toRated

theorem ratios_of_heard (h : ∀ n ∈ online, Heard n) :
    ratios online = online.map fun n => n.linkQuality.snrAvg := by
  have hall : ∀ q ∈ online.map Node.linkQuality, q.hasSamples = true := by
    intro q hq
    obtain ⟨n, hn, rfl⟩ := List.mem_map.1 hq
    exact (h n hn).measured
  rw [ratios, List.filter_eq_self.2 hall, List.map_map]
  rfl

/-- The mean ratio of the nodes, which rounding does not take below zero. -/
theorem value_mean_ratios_nonneg (h : ∀ n ∈ online, Heard n) (hlen : online.length ≤ 2 ^ 32) :
    0 ≤ value (mean (ratios online)) := by
  rw [ratios_of_heard h]
  refine value_mean_nonneg (fun x hx => ?_) (by rwa [List.length_map])
  obtain ⟨n, hn, rfl⟩ := List.mem_map.1 hx
  have hrange := (h n hn).snrAvg
  exact ⟨hrange.mono (by norm_num), ((lt_iff_value_lt rfl hrange.isFinite).1 (h n hn).positive).le⟩

theorem isEmpty_ratios_of_heard (h1 : 1 ≤ online.length) (h : ∀ n ∈ online, Heard n) :
    (ratios online).isEmpty = false := by
  rw [ratios_of_heard h, List.isEmpty_map, List.isEmpty_eq_false_iff, ← List.length_pos_iff]
  exact h1

section Heard

variable (h1 : 1 ≤ online.length) (ht : online.length ≤ 2 ^ 32) (h : ∀ n ∈ online, Heard n)

include h1 ht h

/-- The points before they are rounded: at least sixty, and what the channel earns. -/
theorem value_points_of_heard :
    (points online.length online).isFinite = true ∧
    60 ≤ nearest (40 + value (linkPoints (ratios online))) ∧
    value (points online.length online)
      = nearest (nearest (40 + value (linkPoints (ratios online)))
        + value (channelPoints online.length (utilizations online))) := by
  have hrated := rated_of_heard h
  obtain ⟨hfin, hvalue⟩ := value_points h1 ht le_rfl hrated
  rw [value_onlinePoints_self h1 ht] at hvalue
  have hlinks := le_value_linkPoints (within_mean_ratios hrated ht) (isEmpty_ratios_of_heard h1 h)
    (value_mean_ratios_nonneg h ht)
  exact ⟨hfin, le_nearest nearest_sixty (by linarith), hvalue⟩

theorem le_score_of_heard : 60 ≤ (ofNodes online.length online).score := by
  have hrated := rated_of_heard h
  obtain ⟨hfin, hsum, hvalue⟩ := value_points_of_heard h1 ht h
  have hchannel := (within_channelPoints (within_mean_utilizations hrated ht) online.length).2
  have hpoints : 60 ≤ value (points online.length online) := by
    rw [hvalue]
    exact le_nearest nearest_sixty (by linarith)
  exact (le_rounded_iff (n := 60) (by decide) (by decide) hfin).2 (by push_cast; linarith)

theorem excellent_of_heard (hused : (ofNodes online.length online).avgChannelUtilization ≤ 35) :
    (ofNodes online.length online).status = .excellent := by
  have hrated := rated_of_heard h
  have hmean := within_mean_utilizations hrated ht
  obtain ⟨hlimit, hvlimit⟩ := within_literal 35 (by decide)
  have hused' : value (mean (utilizations online)) ≤ 35 :=
    hvlimit ▸ (le_iff_value_le hmean.isFinite hlimit.isFinite).1 hused
  obtain ⟨hfin, hsum, hvalue⟩ := value_points_of_heard h1 ht h
  have hchannel := le_value_channelPoints hmean (Nat.one_le_iff_ne_zero.1 h1) hused'
  have hneeded : nearest (159 / 2) = 159 / 2 := by
    exact_mod_cast nearest_half (n := 159) (by decide)
  have hpoints : 159 / 2 ≤ value (points online.length online) := by
    rw [hvalue]
    exact le_nearest hneeded (by linarith)
  refine HealthStatus.ofScore_excellent ?_
  exact (le_rounded_iff (n := 80) (by decide) (by decide) hfin).2 (by push_cast; linarith)

theorem value_fullPoints :
    (fullPoints (ofNodes online.length online)).isFinite = true ∧
    value (fullPoints (ofNodes online.length online)) = value (points online.length online) := by
  have hrated := rated_of_heard h
  have hfull : fullPoints (ofNodes online.length online)
      = 40 + linkPoints (ratios online) + channelPoints online.length (utilizations online) := by
    rw [linkPoints, isEmpty_ratios_of_heard h1 h, channelPoints,
      if_neg (Nat.one_le_iff_ne_zero.1 h1)]
    rfl
  obtain ⟨hforty, hvforty⟩ := within_literal 40 (by decide)
  have hlinks := (within_linkPoints (within_mean_ratios hrated ht)).1
  have hchannel := (within_channelPoints (within_mean_utilizations hrated ht) online.length).1
  obtain ⟨hsum, hvsum⟩ := hforty.add hlinks (bound_two_pow (k := 39) (by decide)) (by norm_num)
  obtain ⟨hall, hvall⟩ := hsum.add hchannel (bound_two_pow (k := 40) (by decide)) (by norm_num)
  rw [hfull]
  refine ⟨hall.isFinite, ?_⟩
  rw [hvall, hvsum, hvforty, (value_points_of_heard h1 ht h).2.2]

/-- Such nodes are excellent exactly from half a point below eighty on. -/
theorem excellent_iff_points :
    (ofNodes online.length online).status = .excellent ↔
      79.5 ≤ fullPoints (ofNodes online.length online) := by
  obtain ⟨hfull, hvfull⟩ := value_fullPoints h1 ht h
  have hu : (79.5 : Float32).toModel.unpack = .finite .positive 10420224 (-17) (by decide) := rfl
  have hneeded : value (79.5 : Float32) = (80 : Nat) - 1 / 2 := by
    rw [value_eq hu, signed]
    norm_num
  rw [le_iff_value_le rfl hfull, hvfull, hneeded]
  refine HealthStatus.ofScore_eq_excellent_iff.trans ?_
  exact le_rounded_iff (n := 80) (by decide) (by decide) (value_points_of_heard h1 ht h).1

end Heard

end MeshHealth

/-! ## Meshes -/

namespace Mesh

variable {m : Mesh} {now : Moment}

/-- There are nodes, all are online, and all are heard above zero decibels in the mean. -/
structure HeardThroughout (m : Mesh) (now : Moment) : Prop where
  nonempty : m.nodes.isEmpty = false
  online : ∀ n ∈ m.nodeList, n.isOnline now m.limits.onlineTimeout = true
  measured : ∀ n ∈ m.nodeList, n.linkQuality.hasSamples = true
  positive : ∀ n ∈ m.nodeList, 0 < n.linkQuality.snrAvg

theorem heardThroughout_iff : m.HeardThroughout now ↔ m.nodes.isEmpty = false ∧
    ∀ n ∈ m.nodeList, n.isOnline now m.limits.onlineTimeout = true ∧
      n.linkQuality.hasSamples = true ∧ 0 < n.linkQuality.snrAvg := by
  constructor
  · exact fun h => ⟨h.nonempty, fun n hn => ⟨h.online n hn, h.measured n hn, h.positive n hn⟩⟩
  · exact fun ⟨hne, h⟩ =>
      ⟨hne, fun n hn => (h n hn).1, fun n hn => (h n hn).2.1, fun n hn => (h n hn).2.2⟩

instance : Decidable (m.HeardThroughout now) := decidable_of_iff' _ heardThroughout_iff

theorem HeardThroughout.onlineNodes (h : m.HeardThroughout now) :
    m.onlineNodes now = m.walkedNodes :=
  List.filter_eq_self.2 fun n hn => h.online n (m.walkedNodes_perm.mem_iff.1 hn)

theorem HeardThroughout.length_onlineNodes (h : m.HeardThroughout now) :
    (m.onlineNodes now).length = m.nodes.size := by
  rw [h.onlineNodes, length_walkedNodes]

theorem HeardThroughout.one_le (h : m.HeardThroughout now) : 1 ≤ m.nodes.size := by
  have hnonempty := h.nonempty
  rw [Std.ExtTreeMap.isEmpty_eq_size_beq_zero, beq_eq_false_iff_ne] at hnonempty
  exact Nat.one_le_iff_ne_zero.2 hnonempty

theorem HeardThroughout.health (h : m.HeardThroughout now) :
    m.health now = .ofNodes (m.onlineNodes now).length (m.onlineNodes now) := by
  rw [health_of_nodes h.one_le, h.length_onlineNodes]

theorem HeardThroughout.heard (h : m.HeardThroughout now)
    (hrated : EveryNode (fun _ n => MeshHealth.Rated n) m) :
    ∀ n ∈ m.onlineNodes now, MeshHealth.Heard n := by
  rw [h.onlineNodes]
  intro n hn
  have hlisted := m.walkedNodes_perm.mem_iff.1 hn
  obtain ⟨id, hid⟩ := mem_nodeList.1 hlisted
  exact ⟨hrated id n hid, h.measured n hlisted, h.positive n hlisted⟩

end Mesh

namespace Monitor

/-- **Health of a mesh that is heard throughout.** In every mesh that broker messages and sweeps
lead to, while all nodes are online and heard above zero decibels, the score is sixty or more
and the mesh excellent or good. It is excellent if at most thirty-five percent of the channel
are in use in the mean, so also if no node tells of that; and it is excellent exactly if the
points that the mean ratio and the mean utilisation earn besides the forty round to eighty. -/
theorem health_of_heard_mesh (limits : Limits) (primary : String) (orders : HashOrders)
    (receiver : Receiver) (stats : Stats) (rejections : RejectionWindow) (steps : List Step)
    {now : Moment} (hheard : Mesh.HeardThroughout
      (after ⟨Mesh.new limits primary orders, receiver, stats, rejections⟩ steps).mesh now) :
    let m := (after ⟨Mesh.new limits primary orders, receiver, stats, rejections⟩ steps).mesh
    let h := m.health now
    60 ≤ h.score ∧ (h.status = .excellent ∨ h.status = .good) ∧
    (h.avgChannelUtilization ≤ 35 → h.status = .excellent) ∧
    ((∀ n ∈ m.nodeList, n.telemetry.device.channelUtilization = none) → h.status = .excellent) ∧
    (h.status = .excellent ↔ 79.5 ≤ h.fullPoints) := by
  intro m h
  have hnodes := hheard.heard (rated_after limits primary orders receiver stats rejections steps)
  have h1 : 1 ≤ (m.onlineNodes now).length := hheard.length_onlineNodes ▸ hheard.one_le
  have ht : (m.onlineNodes now).length ≤ 2 ^ 32 := hheard.length_onlineNodes ▸ m.size_nodes_le
  have hhealth : h = .ofNodes (m.onlineNodes now).length (m.onlineNodes now) := hheard.health
  have hscore := MeshHealth.le_score_of_heard h1 ht hnodes
  have hfree := MeshHealth.excellent_of_heard h1 ht hnodes
  rw [hhealth]
  refine ⟨hscore, HealthStatus.ofScore_of_le hscore, hfree, fun huntold => hfree ?_,
    MeshHealth.excellent_iff_points h1 ht hnodes⟩
  have hnone : MeshHealth.utilizations (m.onlineNodes now) = [] := by
    rw [MeshHealth.utilizations, hheard.onlineNodes, List.filterMap_eq_nil_iff]
    exact fun n hn => huntold n (m.walkedNodes_perm.mem_iff.1 hn)
  show mean (MeshHealth.utilizations (m.onlineNodes now)) ≤ 35
  rw [hnone]
  decide

section Example

/-- A node that is heard well, in a channel of which some percent are in use. -/
def heardInChannel (percent : String) : List Step :=
  [overheard ("\x7b\"from\":4097,\"id\":7,\"type\":\"telemetry\",\"snr\":5," ++
    "\"payload\":\x7b\"channel_utilization\":" ++ percent ++ "\x7d\x7d") 0]

theorem heard_mesh_in_used_channel :
    let m := (after ⟨Mesh.new {} "" {}, {}, {}, .standard⟩ (heardInChannel "20")).mesh
    let h := m.health (.ofSecs 60)
    m.HeardThroughout (.ofSecs 60) ∧ h.avgChannelUtilization ≤ 35 ∧ h.status = .excellent := by
  intro m h
  obtain ⟨hheard, hused⟩ :
      m.HeardThroughout (.ofSecs 60) ∧ h.avgChannelUtilization ≤ 35 := by decide +kernel
  obtain ⟨-, -, hfree, -, -⟩ :=
    health_of_heard_mesh {} "" {} {} {} .standard (heardInChannel "20") hheard
  exact ⟨hheard, hused, hfree hused⟩

/-- Where all of the channel is in use, nothing but sixty to seventy points can be earned. -/
theorem heard_mesh_in_full_channel :
    let m := (after ⟨Mesh.new {} "" {}, {}, {}, .standard⟩ (heardInChannel "100")).mesh
    let h := m.health (.ofSecs 60)
    m.HeardThroughout (.ofSecs 60) ∧ h.status = .good ∧ h.score = 70 := by
  decide +kernel

end Example

end Monitor

end MeshWatch
