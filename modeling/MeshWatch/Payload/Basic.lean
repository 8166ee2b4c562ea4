import MeshWatch.NodeRole
import MeshWatch.NodeId
import MeshWatch.Port
import MeshWatch.Telemetry

/-!
# Application payloads

What a packet says once its body was read, by application port. A body that no
type fits is kept as raw bytes, and a body that could not be read at all, for lack
of a key, is `sealed`.

- `coordinates_isSome`: a position has coordinates exactly when both are present
  and on the globe.
- `port_unknown`: an untyped body remembers its port.
-/

namespace MeshWatch

/-- A position; absent fields were not sent, and zero degrees are a place. -/
structure PositionReport where
  latitude : Option Float := none
  longitude : Option Float := none
  altitude : Option Int32 := none
  precisionBits : Option UInt32 := none
  time : Option UInt32 := none
  groundSpeed : Option UInt32 := none
  satsInView : Option UInt32 := none
deriving DecidableEq, Inhabited

/-- What a node says about itself. -/
structure UserInfo where
  id : Option String := none
  shortName : Option String := none
  longName : Option String := none
  hardwareModel : Option String := none
  role : Option NodeRole := none
deriving DecidableEq, Inhabited

/-- The path of a traceroute; signal-to-noise ratios in decibels. -/
structure RouteDiscovery where
  route : List NodeId := []
  snrTowards : List Float32 := []
  routeBack : List NodeId := []
  snrBack : List Float32 := []
deriving DecidableEq, Inhabited

/-- A node that the reporter hears. -/
structure NeighborEntry where
  nodeId : NodeId
  snr : Float32
deriving DecidableEq, Inhabited

/-- The nodes that one node hears. -/
structure NeighborReport where
  /-- The reporter, when the body names it. -/
  nodeId : Option NodeId := none
  broadcastIntervalSecs : Option UInt32 := none
  neighbors : List NeighborEntry := []
deriving DecidableEq, Inhabited

/-- An acknowledgement or failure of an earlier packet. -/
structure RoutingReport where
  requestId : Option UInt32 := none
  errorReason : Option UInt32 := none
deriving DecidableEq, Inhabited

/-- What a packet says. -/
inductive Payload where
  | text (text : String)
  | position (report : PositionReport)
  | telemetry (report : TelemetryReport)
  | nodeInfo (user : UserInfo)
  | routing (report : RoutingReport)
  | traceroute (discovery : RouteDiscovery)
  | neighborInfo (report : NeighborReport)
  | unknown (port : UInt32) (raw : Bytes)
  | sealed
deriving DecidableEq, Inhabited

/-! ## Positions -/

/-- On the globe: finite, and at most a quarter and a half turn from the origin. -/
def isLatitude (x : Float) : Bool := x.isFinite && -90 ≤ x && x ≤ 90
def isLongitude (x : Float) : Bool := x.isFinite && -180 ≤ x && x ≤ 180

namespace PositionReport

/-- Latitude and longitude, when both are there and valid. -/
def coordinates (r : PositionReport) : Option (Float × Float) :=
  match r.latitude, r.longitude with
  | some lat, some lon => if isLatitude lat && isLongitude lon then some (lat, lon) else none
  | _, _ => none

theorem coordinates_isSome (r : PositionReport) :
    r.coordinates.isSome = true ↔
      (∃ lat ∈ r.latitude, isLatitude lat = true) ∧ (∃ lon ∈ r.longitude, isLongitude lon = true) := by
  unfold coordinates
  split
  · next lat lon hlat hlon => simp [hlat, hlon]
  · next hnot =>
    constructor
    · simp
    · rintro ⟨⟨lat, hlat, _⟩, ⟨lon, hlon, _⟩⟩
      exact absurd hlon (hnot lat lon hlat)

/-- The members of the record. -/
def members (r : PositionReport) : Json.Members :=
  [("latitude", Json.option Json.ofDouble r.latitude),
   ("longitude", Json.option Json.ofDouble r.longitude),
   ("altitude", Json.option Json.ofInt32 r.altitude),
   ("precision_bits", Json.option Json.ofUInt32 r.precisionBits),
   ("time", Json.option Json.ofUInt32 r.time),
   ("ground_speed", Json.option Json.ofUInt32 r.groundSpeed),
   ("sats_in_view", Json.option Json.ofUInt32 r.satsInView)]

/-- The fields in order. -/
def fieldNames : List String :=
  ["latitude", "longitude", "altitude", "precision_bits", "time", "ground_speed", "sats_in_view"]

def ofJson? (j : Json) : Option PositionReport := do
  let ms ← j.recordMembers? fieldNames 7
  return {
    latitude := ← Json.optional ms "latitude" Json.readDouble
    longitude := ← Json.optional ms "longitude" Json.readDouble
    altitude := ← Json.optional ms "altitude" Json.readInt32
    precisionBits := ← Json.optional ms "precision_bits" Json.readUInt32
    time := ← Json.optional ms "time" Json.readUInt32
    groundSpeed := ← Json.optional ms "ground_speed" Json.readUInt32
    satsInView := ← Json.optional ms "sats_in_view" Json.readUInt32 }

end PositionReport

/-! ## Records of the other payloads -/

namespace UserInfo

def members (u : UserInfo) : Json.Members :=
  [("id", Json.option Json.string u.id),
   ("short_name", Json.option Json.string u.shortName),
   ("long_name", Json.option Json.string u.longName),
   ("hardware_model", Json.option Json.string u.hardwareModel),
   ("role", Json.option NodeRole.toJson u.role)]

def ofJson? (j : Json) : Option UserInfo := do
  let ms ← j.recordMembers? ["id", "short_name", "long_name", "hardware_model", "role"] 5
  return {
    id := ← Json.optional ms "id" Json.asString?
    shortName := ← Json.optional ms "short_name" Json.asString?
    longName := ← Json.optional ms "long_name" Json.asString?
    hardwareModel := ← Json.optional ms "hardware_model" Json.asString?
    role := ← Json.optional ms "role" NodeRole.ofJson? }

end UserInfo

namespace RouteDiscovery

def members (r : RouteDiscovery) : Json.Members :=
  [("route", Json.list NodeId.toJson r.route),
   ("snr_towards", Json.list Json.ofSingle r.snrTowards),
   ("route_back", Json.list NodeId.toJson r.routeBack),
   ("snr_back", Json.list Json.ofSingle r.snrBack)]

def ofJson? (j : Json) : Option RouteDiscovery := do
  let ms ← j.recordMembers? ["route", "snr_towards", "route_back", "snr_back"] 4
  return {
    route := ← Json.required ms "route" (Json.readList NodeId.ofJson?)
    snrTowards := ← Json.required ms "snr_towards" (Json.readList Json.readSingle)
    routeBack := ← Json.required ms "route_back" (Json.readList NodeId.ofJson?)
    snrBack := ← Json.required ms "snr_back" (Json.readList Json.readSingle) }

end RouteDiscovery

namespace NeighborEntry

def toJson (e : NeighborEntry) : Json :=
  .object [("node_id", e.nodeId.toJson), ("snr", Json.ofSingle e.snr)]

def ofJson? (j : Json) : Option NeighborEntry := do
  let ms ← j.recordMembers? ["node_id", "snr"] 2
  return {
    nodeId := ← Json.required ms "node_id" NodeId.ofJson?
    snr := ← Json.required ms "snr" Json.readSingle }

end NeighborEntry

namespace NeighborReport

def members (r : NeighborReport) : Json.Members :=
  [("node_id", Json.option NodeId.toJson r.nodeId),
   ("broadcast_interval_secs", Json.option Json.ofUInt32 r.broadcastIntervalSecs),
   ("neighbors", Json.list NeighborEntry.toJson r.neighbors)]

def ofJson? (j : Json) : Option NeighborReport := do
  let ms ← j.recordMembers? ["node_id", "broadcast_interval_secs", "neighbors"] 3
  return {
    nodeId := ← Json.optional ms "node_id" NodeId.ofJson?
    broadcastIntervalSecs := ← Json.optional ms "broadcast_interval_secs" Json.readUInt32
    neighbors := ← Json.required ms "neighbors" (Json.readList NeighborEntry.ofJson?) }

end NeighborReport

namespace RoutingReport

/-- No error, or none reported. -/
def isAck (r : RoutingReport) : Bool := r.errorReason == none || r.errorReason == some 0

def members (r : RoutingReport) : Json.Members :=
  [("request_id", Json.option Json.ofUInt32 r.requestId),
   ("error_reason", Json.option Json.ofUInt32 r.errorReason)]

def ofJson? (j : Json) : Option RoutingReport := do
  let ms ← j.recordMembers? ["request_id", "error_reason"] 2
  return {
    requestId := ← Json.optional ms "request_id" Json.readUInt32
    errorReason := ← Json.optional ms "error_reason" Json.readUInt32 }

end RoutingReport

/-! ## Payloads -/

namespace Payload

/-- The port number of a payload; an unread one has that of no application. -/
def port : Payload → UInt32
  | text _ => Port.textMessage.number
  | position _ => Port.position.number
  | telemetry _ => Port.telemetry.number
  | nodeInfo _ => Port.nodeInfo.number
  | routing _ => Port.routing.number
  | traceroute _ => Port.traceroute.number
  | neighborInfo _ => Port.neighborInfo.number
  | unknown n _ => n
  | sealed => Port.unknown.number

theorem port_unknown (n : UInt32) (raw : Bytes) : (unknown n raw).port = n := rfl

def portName (p : Payload) : String := Port.nameOf p.port

/-- The label of a payload's type. -/
def typeName : Payload → String
  | text _ => "text"
  | position _ => "position"
  | telemetry _ => "telemetry"
  | nodeInfo _ => "node_info"
  | routing _ => "routing"
  | traceroute _ => "traceroute"
  | neighborInfo _ => "neighbor_info"
  | unknown .. => "unknown"
  | sealed => "opaque"

/-- The members of a payload after its type. -/
def members : Payload → Json.Members
  | text t => [("text", .string t)]
  | position r => r.members
  | telemetry r => r.members
  | nodeInfo u => u.members
  | routing r => r.members
  | traceroute d => d.members
  | neighborInfo r => r.members
  | unknown n raw => [("port", Json.ofUInt32 n), ("raw", Json.list Json.ofUInt8 raw)]
  | sealed => []

/-- The record of a payload: its type, then its own fields. -/
def toJson (p : Payload) : Json := .object (("type", .string p.typeName) :: p.members)

end Payload

end MeshWatch
