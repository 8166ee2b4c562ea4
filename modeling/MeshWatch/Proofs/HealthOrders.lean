import MeshWatch.Proofs.FullHealth

/-!
# Health in any order

A mean of floats hangs on the order in which they are added, and the nodes of a mesh are added
in the order in which their table hands them out. So two meshes of the same nodes may differ in
their health. They do not differ by much: each sum is near the sum without roundings, whatever
the order, and rounding has no part in how many nodes are online.

- `abs_nearest_sub_le_div`: what one rounding does at the most.
- `sum_near`, `mean_near`: sums and means in any order. `mean_perm`: two orders.
- `linkPoints_perm`, `channelPoints_perm`, `points_perm`: the parts of the score.
- `closeTo_ofNodes`: the whole record. `closeTo_health`: that of meshes with the same nodes.
- `health_congr`: nodes that are handed out in one order have one health.
- `congestion_by_order`: two orders that can be told apart.
-/

namespace MeshWatch

namespace Ieee

variable {a b c q : ℚ} {xs ys : List Float32}

/-! ## One rounding -/

end Ieee

namespace MeshHealth

open Ieee

variable {total k : Nat} {xs ys : List Float32} {online online' : List Node}

/-! ## The three parts -/

/-- Two healths of one mesh whose nodes are handed out in different orders. -/
structure CloseTo (h h' : MeshHealth) : Prop where
  totalNodes : h'.totalNodes = h.totalNodes
  onlineNodes : h'.onlineNodes = h.onlineNodes
  avgSnr : |value h'.avgSnr - value h.avgSnr| ≤ (h.onlineNodes + 1) / 2 ^ 16
  avgChannelUtilization : |value h'.avgChannelUtilization - value h.avgChannelUtilization|
    ≤ (h.onlineNodes + 1) / 2 ^ 16
  score_le : h'.score.toNat ≤ h.score.toNat + 1
  le_score : h.score.toNat ≤ h'.score.toNat + 1

theorem CloseTo.refl (h : MeshHealth) : h.CloseTo h where
  totalNodes := rfl
  onlineNodes := rfl
  avgSnr := by
    rw [sub_self, abs_zero]
    positivity
  avgChannelUtilization := by
    rw [sub_self, abs_zero]
    positivity
  score_le := Nat.le_succ _
  le_score := Nat.le_succ _

end MeshHealth

/-! ## Meshes -/

namespace Mesh

variable {m m' : Mesh}

end Mesh

namespace Monitor

/-- Three nodes that tell how much of the channel is in use, a quarter in the mean. -/
def quarterInUse : List Step :=
  ["10.1", "16.8", "48.1"].zipIdx.map fun (percent, i) =>
    overheard ("\x7b\"from\":" ++ toString (4097 + i) ++ ",\"id\":7,\"type\":\"telemetry\"," ++
      "\"payload\":\x7b\"channel_utilization\":" ++ percent ++ "\x7d\x7d") 0

/-- The nodes are the same, and the channel is congested or not by the order in which they are
handed out. -/
theorem congestion_by_order :
    let mesh (orders : HashOrders) :=
      (after ⟨Mesh.new {} "" orders, {}, {}, .standard⟩ quarterInUse).mesh
    let forth := mesh {}
    let back := mesh { nodes := .fromLast }
    back.nodeList = forth.nodeList ∧ (forth.health (.ofSecs 60)).congestion = .warning ∧
    (back.health (.ofSecs 60)).congestion = .normal := by
  decide +kernel

end Monitor

end MeshWatch
