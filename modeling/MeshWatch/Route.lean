import MeshWatch.Ieee.Order
import MeshWatch.Payload.Basic

/-!
# Routes

A traceroute reply names the nodes that a packet crossed on its way to the node
that replies, with the ratio at which each hop was heard. A route is that path,
the replying node included, and paths are told apart by the ids along them.

- `hops_ofDiscovery_ne_nil`: a discovered route has at least one hop.
- `hopCount_new`: a route has as many hops as it was made with.
-/

namespace MeshWatch

/-- One hop of a route. -/
structure RouteHop where
  nodeId : NodeId
  snr : Float32
  timestamp : Moment
deriving DecidableEq, Inhabited

namespace RouteHop

def toJson (h : RouteHop) : Json :=
  .object
    [("node_id", h.nodeId.toJson), ("snr", Json.ofSingle h.snr),
     ("timestamp", Json.ofMoment h.timestamp)]

def ofJson? (j : Json) : Option RouteHop := do
  let ms ← j.recordMembers? ["node_id", "snr", "timestamp"] 3
  return {
    nodeId := ← Json.required ms "node_id" NodeId.ofJson?
    snr := ← Json.required ms "snr" Json.readSingle
    timestamp := ← Json.required ms "timestamp" Json.readMoment }

end RouteHop

/-- A known path to a destination. -/
structure Route where
  destination : NodeId
  hops : List RouteHop
  discovered : Moment
  lastUsed : Option Moment
  /-- Whether the path is the best one known. -/
  preferred : Bool
deriving DecidableEq, Inhabited

namespace Route

/-- A path that was discovered just now. -/
def new (destination : NodeId) (hops : List RouteHop) (now : Moment) : Route :=
  ⟨destination, hops, now, none, false⟩

/-- The hops along the listed nodes, with placeholders left out; `i` is the position
of the first node. -/
def listedHops (snrs : List Float32) (now : Moment) (i : Nat) : List NodeId → List RouteHop
  | [] => []
  | id :: ids =>
    let rest := listedHops snrs now (i + 1) ids
    if id.isBroadcast || id.isUnknown then rest else ⟨id, snrs.getD i 0, now⟩ :: rest

/-- The hops of a traceroute reply: the listed nodes, and then the destination
unless it is the last of them already. -/
def discoveredHops (destination : NodeId) (d : RouteDiscovery) (now : Moment) : List RouteHop :=
  let hops := listedHops d.snrTowards now 0 d.route
  if hops.getLast?.map RouteHop.nodeId = some destination then hops
  else hops ++ [⟨destination, d.snrTowards.getD d.route.length 0, now⟩]

/-- The route that a traceroute reply of the destination describes. -/
def ofDiscovery (destination : NodeId) (d : RouteDiscovery) (now : Moment) : Route :=
  new destination (discoveredHops destination d now) now

theorem hops_ofDiscovery_ne_nil (destination : NodeId) (d : RouteDiscovery) (now : Moment) :
    (ofDiscovery destination d now).hops ≠ [] := by
  simp only [ofDiscovery, new, discoveredHops]
  split
  · next h => intro he; rw [he] at h; simp at h
  · simp

def hopCount (r : Route) : Nat := r.hops.length

theorem hopCount_new (destination : NodeId) (hops : List RouteHop) (now : Moment) :
    (new destination hops now).hopCount = hops.length := rfl

/-- The mean ratio over all hops; zero for a path without hops. -/
def avgSnr (r : Route) : Float32 := Ieee.mean (r.hops.map RouteHop.snr)

/-- What identifies the path: the ids along it. -/
def routeId (r : Route) : String := Text.joined ">" (r.hops.map fun h => h.nodeId.text)

/-- The first of the hops with the least ratio. -/
def leastSnr (best : RouteHop) : List RouteHop → RouteHop
  | [] => best
  | h :: hs => leastSnr (if Ieee.rank h.snr < Ieee.rank best.snr then h else best) hs

/-- The weakest hop of the path. -/
def bottleneck (r : Route) : Option RouteHop :=
  match r.hops with
  | [] => none
  | h :: hs => some (leastSnr h hs)

def contains (r : Route) (id : NodeId) : Bool := r.hops.any fun h => h.nodeId == id

def toJson (r : Route) : Json :=
  .object
    [("destination", r.destination.toJson),
     ("hops", Json.list RouteHop.toJson r.hops),
     ("discovered", Json.ofMoment r.discovered),
     ("last_used", Json.option Json.ofMoment r.lastUsed),
     ("preferred", .bool r.preferred)]

/-- The fields in order. -/
def fieldNames : List String := ["destination", "hops", "discovered", "last_used", "preferred"]

def ofJson? (j : Json) : Option Route := do
  let ms ← j.recordMembers? fieldNames 5
  return {
    destination := ← Json.required ms "destination" NodeId.ofJson?
    hops := ← Json.required ms "hops" (Json.readList RouteHop.ofJson?)
    discovered := ← Json.required ms "discovered" Json.readMoment
    lastUsed := ← Json.optional ms "last_used" Json.readMoment
    preferred := ← Json.required ms "preferred" Json.asBool? }

end Route

end MeshWatch
