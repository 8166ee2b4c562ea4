import MeshWatch.Mesh.Health
import MeshWatch.Mesh.State

/-!
# A view of the mesh

Everything that a dashboard shows, taken at one time: nodes with what follows from
them, newest first, the channels, the routes, the last messages and the health.

- `length_nodes_view`: a view shows every node once.
-/

namespace MeshWatch

/-- A node and what follows from it. -/
structure NodeView where
  node : Node
  displayName : String
  liveness : Liveness
  linkQualityPercent : Float32
deriving DecidableEq

namespace NodeView

/-- A node as it is shown. -/
def ofNode (n : Node) (now : Moment) (timeout : Span) : NodeView :=
  ⟨n, n.displayName, n.liveness now timeout, n.linkQuality.percent⟩

def toJson (v : NodeView) : Json :=
  .object
    (v.node.members ++
      [("display_name", .string v.displayName),
       ("liveness", .string v.liveness.name),
       ("link_quality_percent", Json.ofSingle v.linkQualityPercent)])

end NodeView

/-- The mesh at some time. -/
structure MeshView where
  takenAt : Moment
  nodes : List NodeView
  channels : List Channel
  routes : List Route
  recentMessages : List Message
  health : MeshHealth
deriving DecidableEq

/-- The mesh as it is shown. -/
def Mesh.view (m : Mesh) (recentMessages : Nat) (now : Moment) : MeshView :=
  { takenAt := now
    nodes := (Mesh.newestNodes m.walkedNodes).map fun n => .ofNode n now m.limits.onlineTimeout
    channels := m.channelList
    routes := m.walkedRoutes
    recentMessages := m.recentMessages recentMessages
    health := m.health now }

theorem length_nodes_view (m : Mesh) (recentMessages : Nat) (now : Moment) :
    (m.view recentMessages now).nodes.length = m.nodes.size := by
  simp [Mesh.view, Mesh.newestNodes, Mesh.length_walkedNodes]

end MeshWatch
