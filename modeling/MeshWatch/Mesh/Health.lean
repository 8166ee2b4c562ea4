import MeshWatch.Ieee.Order
import MeshWatch.Mesh.Basic

/-!
# Health of the mesh

A score from 0 to 100: up to forty points for the share of nodes that are online, up
to thirty for how well they are heard, and up to thirty for how little of the channel
is used. What was not measured earns nothing.

- `health_empty`: a mesh without nodes has no health.
- `ofScore_excellent`: from eighty points on a mesh is excellent.
-/

namespace MeshWatch

/-- How well a mesh is doing. -/
inductive HealthStatus where
  | unknown
  | critical
  | poor
  | fair
  | good
  | excellent
deriving DecidableEq, Repr

namespace HealthStatus

/-- The label of a state. -/
def name : HealthStatus → String
  | unknown => "unknown"
  | critical => "critical"
  | poor => "poor"
  | fair => "fair"
  | good => "good"
  | excellent => "excellent"

/-- The state of a score, in steps of twenty. -/
def ofScore (score : UInt8) : HealthStatus :=
  if 80 ≤ score then excellent
  else if 60 ≤ score then good
  else if 40 ≤ score then fair
  else if 20 ≤ score then poor
  else critical

theorem ofScore_excellent {score : UInt8} (h : 80 ≤ score) : ofScore score = excellent := if_pos h

end HealthStatus

/-- The health of a mesh at some time. -/
structure MeshHealth where
  status : HealthStatus
  score : UInt8
  totalNodes : Nat
  onlineNodes : Nat
  avgSnr : Float32
  avgChannelUtilization : Float32
  congestion : UtilizationStatus
deriving DecidableEq

namespace MeshHealth

/-- The health of a mesh without nodes. -/
def none : MeshHealth := ⟨.unknown, 0, 0, 0, 0, 0, .normal⟩

/-- The nearest whole score from 0 to 100; none for what is not a number. -/
def rounded (points : Float32) : UInt8 :=
  match Ieee.ofSingle points with
  | .nan => 0
  | .infinite negative => if negative then 0 else 100
  | v => UInt8.ofNat (min ((v.nearestInt?.getD 0).toNat) 100)

/-- The points for nodes that are online. -/
def onlinePoints (online total : Nat) : Float32 :=
  Float32.ofNat online / Float32.ofNat total * 40

/-- The points for the mean signal-to-noise ratio of measured links. -/
def linkPoints (snrs : List Float32) : Float32 :=
  if snrs.isEmpty then 0 else Ieee.clamp 0 30 ((Ieee.mean snrs + 10) * 2)

/-- The points for the mean channel utilisation seen by the nodes that are online. -/
def channelPoints (online : Nat) (utilizations : List Float32) : Float32 :=
  if online = 0 then 0 else Ieee.atLeast 0 (30 - Ieee.mean utilizations * 0.3)

/-- The health of `total` nodes of which those listed are online. -/
def ofNodes (total : Nat) (online : List Node) : MeshHealth :=
  let links := online.map Node.linkQuality
  let snrs := (links.filter LinkQuality.hasSamples).map LinkQuality.snrAvg
  let utilizations := online.filterMap fun n => n.telemetry.device.channelUtilization
  let score := rounded
    (onlinePoints online.length total + linkPoints snrs + channelPoints online.length utilizations)
  { status := .ofScore score
    score := score
    totalNodes := total
    onlineNodes := online.length
    avgSnr := Ieee.mean snrs
    avgChannelUtilization := Ieee.mean utilizations
    congestion := .ofChannel (Ieee.mean utilizations) }

/-- The members of the record. -/
def members (h : MeshHealth) : Json.Members :=
  [("status", .string h.status.name),
   ("score", Json.ofUInt8 h.score),
   ("total_nodes", Json.nat h.totalNodes),
   ("online_nodes", Json.nat h.onlineNodes),
   ("avg_snr", Json.ofSingle h.avgSnr),
   ("avg_channel_utilization", Json.ofSingle h.avgChannelUtilization),
   ("congestion", .string h.congestion.name)]

end MeshHealth

namespace Mesh

/-- The nodes that are online, as their table hands them out. -/
def onlineNodes (m : Mesh) (now : Moment) : List Node :=
  m.walkedNodes.filter fun n => n.isOnline now m.limits.onlineTimeout

/-- The health of the mesh. -/
def health (m : Mesh) (now : Moment) : MeshHealth :=
  if m.nodes.isEmpty then .none else .ofNodes m.nodes.size (m.onlineNodes now)

theorem health_empty (limits : Limits) (primary : String) (orders : HashOrders) (now : Moment) :
    (Mesh.new limits primary orders).health now = .none := by simp [health, Mesh.new]

end Mesh

end MeshWatch
