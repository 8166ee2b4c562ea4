import MeshWatch.Dedup
import MeshWatch.Event
import MeshWatch.Mesh.Channel
import MeshWatch.Mesh.Node
import MeshWatch.Mesh.Sightings
import MeshWatch.Route

/-!
# The mesh

The state of the model: the nodes by id, the channel slots by index, the best known
route to each destination, the last messages, and which packets were seen. All
operations take the current time, and those that have something to tell give a
journal with the new state.

Nodes and routes are kept in hash tables. Nothing is known about the order in which these
hand out what they hold, so it is given to a mesh when it is made, and whatever is said of
meshes is said for all orders.

- `walkedNodes_perm`, `walkedRoutes_perm`: a table hands out all that it holds, once.
- `nodes_removeNode`, `routes_removeNode`: a forgotten node takes its route with it.
- `messages_pushMessage`: the history is the tail of what was said.
-/

namespace MeshWatch

/-- The order in which a hash table hands out what it holds. It hangs on how the table was
drawn and filled: it may be another one for every content, and after every update. -/
structure HashOrder (α : Type) where
  /-- What is handed out, by the last update and by what is held, in the order of its keys. -/
  walked : Option Moment → List α → List α
  walked_perm : ∀ lastUpdate xs, (walked lastUpdate xs).Perm xs

namespace HashOrder

variable {α : Type}

/-- The order of the keys. -/
def byKey : HashOrder α := ⟨fun _ xs => xs, fun _ xs => .refl xs⟩

/-- The order of the keys, from the last one on. -/
def fromLast : HashOrder α := ⟨fun _ xs => xs.reverse, fun _ xs => xs.reverse_perm⟩

end HashOrder

/-- The orders of the hash tables of a mesh. -/
structure HashOrders where
  nodes : HashOrder Node := .byKey
  routes : HashOrder Route := .byKey

/-- The model of a mesh. -/
structure Mesh where
  limits : Limits
  orders : HashOrders
  nodes : Std.ExtTreeMap NodeId Node
  channels : Std.ExtTreeMap UInt32 Channel
  routes : Std.ExtTreeMap NodeId Route
  /-- The last messages, oldest first. -/
  messages : List Message
  dedup : DedupCache
  sightings : Sightings
  lastUpdate : Option Moment

namespace Mesh

/-- The channel slots of a new mesh: the first carries the configured channel, and
the others nothing. -/
def newSlots (primary : String) : List Channel :=
  .new 0 primary .primary :: [1, 2, 3, 4, 5, 6, 7].map fun i => .new i "" .disabled

/-- A mesh in which nothing was heard yet. -/
def new (limits : Limits) (primary : String) (orders : HashOrders) : Mesh :=
  { limits := limits
    orders := orders
    nodes := ∅
    channels := .ofList ((newSlots primary).map fun c => (c.index, c))
    routes := ∅
    messages := []
    dedup := .empty limits.dedupWindow DedupCache.defaultCapacity
    sightings := .empty
    lastUpdate := none }

/-! ## Looking -/

/-- The nodes in the order of their ids. -/
def nodeList (m : Mesh) : List Node := m.nodes.toList.map Prod.snd

/-- The channel slots in the order of their indices. -/
def channelList (m : Mesh) : List Channel := m.channels.toList.map Prod.snd

/-- The routes in the order of their destinations. -/
def routeList (m : Mesh) : List Route := m.routes.toList.map Prod.snd

/-- The nodes as their table hands them out. -/
def walkedNodes (m : Mesh) : List Node := m.orders.nodes.walked m.lastUpdate m.nodeList

/-- The routes as their table hands them out. -/
def walkedRoutes (m : Mesh) : List Route := m.orders.routes.walked m.lastUpdate m.routeList

theorem walkedNodes_perm (m : Mesh) : m.walkedNodes.Perm m.nodeList :=
  m.orders.nodes.walked_perm ..

theorem walkedRoutes_perm (m : Mesh) : m.walkedRoutes.Perm m.routeList :=
  m.orders.routes.walked_perm ..

theorem length_walkedNodes (m : Mesh) : m.walkedNodes.length = m.nodes.size := by
  rw [m.walkedNodes_perm.length_eq, nodeList, List.length_map, Std.ExtTreeMap.length_toList]

theorem length_walkedRoutes (m : Mesh) : m.walkedRoutes.length = m.routes.size := by
  rw [m.walkedRoutes_perm.length_eq, routeList, List.length_map, Std.ExtTreeMap.length_toList]

/-- The last messages, oldest first. -/
def recentMessages (m : Mesh) (limit : Nat) : List Message := Recent.newest limit m.messages

/-- Whether a node is online, or known at all. -/
def liveness (m : Mesh) (id : NodeId) (now : Moment) : Liveness :=
  match m.nodes[id]? with
  | some n => n.liveness now m.limits.onlineTimeout
  | none => .unknown

/-! ## Small changes -/

/-- Changes a node, if it is known. -/
def modifyNode (m : Mesh) (id : NodeId) (f : Node → Node) : Mesh :=
  { m with nodes := m.nodes.modify id f }

/-- Forgets a node and the route to it. -/
def removeNode (m : Mesh) (id : NodeId) : Mesh :=
  { m with nodes := m.nodes.erase id, routes := m.routes.erase id }

theorem nodes_removeNode (m : Mesh) (id : NodeId) : (m.removeNode id).nodes = m.nodes.erase id := rfl

theorem routes_removeNode (m : Mesh) (id : NodeId) :
    (m.removeNode id).routes = m.routes.erase id := rfl

/-- Notes that something was received on a slot. -/
def touchChannel (m : Mesh) (index : UInt32) (message : Bool) (now : Moment) : Mesh :=
  { m with channels := m.channels.modify index fun c => c.touched message now }

/-- Adds a message to the history, and counts it on its slot. -/
def pushMessage (m : Mesh) (message : Message) : Mesh :=
  { m.touchChannel message.channel true message.timestamp with
    messages := Recent.newest m.limits.messageHistory (m.messages ++ [message]) }

theorem messages_pushMessage (m : Mesh) (message : Message) :
    (m.pushMessage message).messages
      = Recent.newest m.limits.messageHistory (m.messages ++ [message]) := rfl

/-- Adds a message that did not come in a packet. -/
def addMessage (m : Mesh) (message : Message) : Mesh × Journal :=
  (m.pushMessage message, [.event (.messageReceived message)])

/-- Puts a channel into its slot. -/
def setChannel (m : Mesh) (c : Channel) : Mesh :=
  { m with channels := m.channels.insert c.index c }

/-- Takes a link sample of a node, if it is known. -/
def updateLink (m : Mesh) (id : NodeId) (snr : Float32) (rssi : Option Int32)
    (hops : Option UInt8) (now : Moment) : Mesh × Bool :=
  (m.modifyNode id fun n => n.updateLink snr rssi hops now, m.nodes.contains id)

/-! ## Channel slots -/

/-- The slot of a channel name. -/
def slotNamed? (m : Mesh) (name : String) : Option Channel :=
  m.channelList.find? fun c => c.name == name

/-- The first slot that is not in use. -/
def freeSlot? (m : Mesh) : Option Channel := m.channelList.find? fun c => c.role == .disabled

/-- The slot that an index stands for. -/
def slotOfIndex (index : UInt32) : UInt32 := if index < Channel.slots then index else 0

/-- The slot to which a packet belongs: that of its channel name, for which a free
slot is taken if it has none yet, else that of its index. -/
def resolveChannel (m : Mesh) (name : String) (index : UInt32) : Mesh × UInt32 :=
  if name.isEmpty then (m, slotOfIndex index)
  else
    match m.slotNamed? name with
    | some c => (m, c.index)
    | none =>
      match m.freeSlot? with
      | some c => (m.setChannel (c.assigned name), c.index)
      | none => (m, slotOfIndex index)

/-- The slots stay as they are, or one that is not in use is given to the name. -/
theorem resolveChannel_cases (m : Mesh) (name : String) (index : UInt32) :
    (m.resolveChannel name index).1 = m ∨ ∃ c, m.freeSlot? = some c ∧
      m.resolveChannel name index = (m.setChannel (c.assigned name), c.index) := by
  unfold resolveChannel
  cases name.isEmpty with
  | true => exact Or.inl rfl
  | false =>
    cases m.slotNamed? name with
    | some c => exact Or.inl rfl
    | none =>
      cases m.freeSlot? with
      | some c => exact Or.inr ⟨c, rfl, rfl⟩
      | none => exact Or.inl rfl

/-! ## Neighbors -/

/-- Takes a report of the nodes that one node hears. Ids that name no node, and the
reporter's own, are passed over. -/
def updateNeighbors (m : Mesh) (reporter : NodeId) (entries : List NeighborEntry) : Mesh :=
  let ids := (entries.map NeighborEntry.nodeId).filter fun id => id.isAddressable && id != reporter
  let m := m.modifyNode reporter fun n => ids.foldl Node.hears n
  ids.foldl (fun m id => m.modifyNode id fun n => n.isHeardBy reporter) m

end Mesh

end MeshWatch
