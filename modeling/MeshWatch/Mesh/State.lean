import MeshWatch.Mesh.Capacity

/-!
# Taking out and putting back

The part of a mesh that outlives a run: nodes, channels, routes and messages. Put
back into a mesh it respects the limits there: of nodes and routes the newest are
kept, and of messages the last.

- `messages_restore`: the history is the tail of the messages put back.
-/

namespace MeshWatch

/-- The part of a mesh that is stored. -/
structure MeshState where
  nodes : List Node := []
  channels : List Channel := []
  routes : List Route := []
  messages : List Message := []
deriving DecidableEq, Inhabited

namespace MeshState

/-- The members of the record. -/
def members (s : MeshState) : Json.Members :=
  [("nodes", Json.list Node.toJson s.nodes),
   ("channels", Json.list Channel.toJson s.channels),
   ("routes", Json.list Route.toJson s.routes),
   ("messages", Json.list Message.toJson s.messages)]

/-- Reads the record; each part has to be there. -/
def ofJson? (j : Json) : Option MeshState := do
  let ms ← j.recordMembers? ["nodes", "channels", "routes", "messages"] 4
  return {
    nodes := ← Json.required ms "nodes" (Json.readList Node.ofJson?)
    channels := ← Json.required ms "channels" (Json.readList Channel.ofJson?)
    routes := ← Json.required ms "routes" (Json.readList Route.ofJson?)
    messages := ← Json.required ms "messages" (Json.readList Message.ofJson?) }

end MeshState

namespace Mesh

/-- The stored part, nodes and routes as their tables hand them out. -/
def exported (m : Mesh) : MeshState :=
  { nodes := m.walkedNodes
    channels := m.channelList
    routes := m.walkedRoutes
    messages := m.messages }

/-- Newest first, equally old nodes as they were. -/
def newestNodes (ns : List Node) : List Node :=
  ns.mergeSort fun a b => b.lastHeard ≤ a.lastHeard

/-- Newest first, equally old routes as they were. -/
def newestRoutes (rs : List Route) : List Route :=
  rs.mergeSort fun a b => b.discovered ≤ a.discovered

/-- Puts a stored part in place of what the mesh holds. Which packets were seen and
when something happened last is kept. -/
def restore (m : Mesh) (s : MeshState) : Mesh :=
  refreshSightings
    { m with
      nodes := ((newestNodes s.nodes).take m.limits.maxNodes).foldl
        (fun t n => t.insert n.id n) ∅
      channels := (s.channels.filter fun c => c.index < Channel.slots).foldl
        (fun t c => t.insert c.index c) m.channels
      routes := ((newestRoutes s.routes).take m.limits.maxRoutes).foldl
        (fun t r => t.insert r.destination r) ∅
      messages := Recent.newest m.limits.messageHistory s.messages }

theorem messages_restore (m : Mesh) (s : MeshState) :
    (m.restore s).messages = Recent.newest m.limits.messageHistory s.messages := rfl

end Mesh

end MeshWatch
