import MeshWatch.Json.Writer
import MeshWatch.Payload.Binary

/-!
# Payload objects

Gateways that publish JSON have decoded the body already, but firmware and gateway
versions disagree on the spelling of its fields. A field is looked up under each
of its spellings in turn, and the first that is present counts, whatever its
value. The port is taken from the object itself if it names one, else from the
message type, else guessed from the fields that are present.

- `ofObject_string`: a bare string is a text.
- `field?_of_first`: the first spelling wins.
-/

namespace MeshWatch

namespace Json

/-- The first present member among several spellings. -/
def field? (ms : Members) (keys : List String) : Option Json := keys.findSome? ms.get?

theorem field?_of_first (ms : Members) (key : String) (keys : List String) (v : Json)
    (h : ms.get? key = some v) : field? ms (key :: keys) = some v := by simp [field?, h]

/-- Whether any of several members is present. -/
def hasAny (ms : Members) (keys : List String) : Bool := keys.any fun k => (ms.get? k).isSome

/-- A 32-bit number, also as decimal text. -/
def word? : Json → Option UInt32
  | .int n => if 0 ≤ n ∧ n < UInt32.size then some (UInt32.ofNat n.toNat) else none
  | .string s => Text.decimalWord? s
  | _ => none

/-- A node id: a number, or text in any of its forms. -/
def nodeId? : Json → Option NodeId
  | .int n => if 0 ≤ n ∧ n < UInt32.size then some ⟨UInt32.ofNat n.toNat⟩ else none
  | .string s => NodeId.ofText? s
  | _ => none

/-- A signed 32-bit number; a float is rounded to the nearest integer. -/
def signed? (j : Json) : Option Int32 := do
  let n ← match j.asSigned? with
    | some n => some n
    | none => j.asDouble?.bind fun x => (Ieee.ofDouble x).nearestInt?
  if -0x80000000 ≤ n ∧ n < 0x80000000 then some (Int32.ofInt n) else none

/-- Any number as a 32-bit float. -/
def rounded? (j : Json) : Option Float32 := j.asDouble?.map Ieee.narrow

/-- A text that is not empty. -/
def fullText? (j : Json) : Option String := j.asString?.filter fun s => !s.isEmpty

/-- The object under one of several names, or the members themselves. -/
def nested (ms : Members) (keys : List String) : Members :=
  ((field? ms keys).bind asObject?).getD ms

end Json

open Json (Members field? hasAny nested)

/-! ## Field spellings -/

namespace Spelling

def batteryLevel : List String := ["battery_level", "batteryLevel"]
def voltage : List String := ["voltage"]
def channelUtilization : List String := ["channel_utilization", "channelUtilization"]
def airUtilTx : List String := ["air_util_tx", "airUtilTx"]
def uptimeSeconds : List String := ["uptime_seconds", "uptimeSeconds"]
def temperature : List String := ["temperature"]
def relativeHumidity : List String := ["relative_humidity", "relativeHumidity"]
def barometricPressure : List String := ["barometric_pressure", "barometricPressure"]
def gasResistance : List String := ["gas_resistance", "gasResistance"]

/-- The fields that make an object device metrics. -/
def device : List String :=
  batteryLevel ++ voltage ++ channelUtilization ++ airUtilTx ++ uptimeSeconds

/-- The fields that make an object sensor readings. -/
def environment : List String :=
  temperature ++ relativeHumidity ++ barometricPressure ++ gasResistance

end Spelling

/-! ## Payload types -/

namespace PositionReport

/-- A coordinate: the scaled integer if there is one, else degrees. -/
def coordinate? (ms : Members) (scaled degrees : List String) : Option Float :=
  ((field? ms scaled).bind Json.asDouble?).map (· / 1e7)
    <|> (field? ms degrees).bind Json.asDouble?

def ofMembers (ms : Members) : PositionReport :=
  { latitude := coordinate? ms ["latitude_i", "latitudeI"] ["latitude"]
    longitude := coordinate? ms ["longitude_i", "longitudeI"] ["longitude"]
    altitude := (field? ms ["altitude"]).bind Json.signed?
    precisionBits := (field? ms ["precision_bits", "precisionBits"]).bind Json.word?
    time := (field? ms ["time"]).bind Json.word?
    groundSpeed := (field? ms ["ground_speed", "groundSpeed"]).bind Json.word?
    satsInView := (field? ms ["sats_in_view", "satsInView"]).bind Json.word? }

end PositionReport

namespace DeviceMetrics

def ofMembers (ms : Members) : DeviceMetrics :=
  { batteryLevel := (field? ms Spelling.batteryLevel).bind Json.word?
    voltage := (field? ms Spelling.voltage).bind Json.rounded?
    channelUtilization := (field? ms Spelling.channelUtilization).bind Json.rounded?
    airUtilTx := (field? ms Spelling.airUtilTx).bind Json.rounded?
    uptimeSeconds := (field? ms Spelling.uptimeSeconds).bind Json.word? }

end DeviceMetrics

namespace EnvironmentMetrics

def ofMembers (ms : Members) : EnvironmentMetrics :=
  { temperature := (field? ms Spelling.temperature).bind Json.rounded?
    relativeHumidity := (field? ms Spelling.relativeHumidity).bind Json.rounded?
    barometricPressure := (field? ms Spelling.barometricPressure).bind Json.rounded?
    gasResistance := (field? ms Spelling.gasResistance).bind Json.rounded? }

end EnvironmentMetrics

namespace TelemetryReport

/-- The members that hold a group of metrics: an object of their own, or the report
itself when it has any of them. -/
def group? (ms : Members) (names metrics : List String) : Option Members :=
  (field? ms names).bind Json.asObject? <|> if hasAny ms metrics then some ms else none

def ofMembers (ms : Members) : TelemetryReport :=
  let device := group? ms ["device_metrics", "deviceMetrics"] Spelling.device
  let environment := group? ms ["environment_metrics", "environmentMetrics"] Spelling.environment
  { time := (field? ms ["time"]).bind Json.word?
    device := (device.map fun d => (DeviceMetrics.ofMembers d).sanitized).filter
      fun d => !d.isEmpty
    environment := (environment.map fun e => (EnvironmentMetrics.ofMembers e).sanitized).filter
      fun e => !e.isEmpty }

end TelemetryReport

namespace UserInfo

/-- A hardware model by name or by number. -/
def hardware? : Json → Option String
  | .string s => if s.isEmpty then none else some s
  | j => j.word?.map Hardware.nameOf

/-- A role by name or by number. -/
def role? : Json → Option NodeRole
  | .string s => some (NodeRole.ofName s)
  | j => j.word?.map NodeRole.ofNumber

def ofMembers (ms : Members) : UserInfo :=
  { id := (field? ms ["id"]).bind Json.fullText?
    shortName := (field? ms ["short_name", "shortName", "shortname"]).bind Json.fullText?
    longName := (field? ms ["long_name", "longName", "longname"]).bind Json.fullText?
    hardwareModel := (field? ms ["hw_model", "hwModel", "hardware"]).bind hardware?
    role := (field? ms ["role"]).bind role? }

end UserInfo

namespace RouteDiscovery

/-- The ids of an array, without the elements that are none. -/
def ids (ms : Members) (keys : List String) : List NodeId :=
  (((field? ms keys).bind Json.asArray?).getD []).filterMap Json.nodeId?

/-- The ratios of an array of quarters, without the elements that are no integers. -/
def ratios (ms : Members) (keys : List String) : List Float32 :=
  (((field? ms keys).bind Json.asArray?).getD []).filterMap fun j =>
    j.asSigned?.map fun n => quarterDecibels (Int32.ofInt n)

def ofMembers (ms : Members) : RouteDiscovery :=
  { route := ids ms ["route"]
    snrTowards := ratios ms ["snr_towards", "snrTowards"]
    routeBack := ids ms ["route_back", "routeBack"]
    snrBack := ratios ms ["snr_back", "snrBack"] }

end RouteDiscovery

namespace NeighborReport

/-- One entry of the list, when it is an object that names a node. -/
def entry? (j : Json) : Option NeighborEntry := do
  let ms ← j.asObject?
  let id ← (field? ms ["node_id", "nodeId"]).bind Json.nodeId?
  if id.isUnknown then none
  return ⟨id, ((field? ms ["snr"]).bind Json.rounded?).getD 0⟩

def ofMembers (ms : Members) : NeighborReport :=
  { nodeId := (field? ms ["node_id", "nodeId"]).bind Json.nodeId?
    broadcastIntervalSecs :=
      (field? ms ["node_broadcast_interval_secs", "nodeBroadcastIntervalSecs"]).bind Json.word?
    neighbors :=
      (((field? ms ["neighbors"]).bind Json.asArray?).getD []).filterMap entry? }

end NeighborReport

namespace RoutingReport

/-- An error by number, or by name: `NONE` is no error, any other name one without
a number. -/
def errorReason? : Json → Option UInt32
  | .string s => some (if s = "NONE" then 0 else 0xFFFFFFFF)
  | j => j.word?

def ofMembers (ms : Members) (requestId : UInt32) : RoutingReport :=
  { requestId := (field? ms ["request_id", "requestId"]).bind Json.word? <|> nonzero? requestId
    errorReason := (field? ms ["error_reason", "errorReason"]).bind errorReason? }

end RoutingReport

/-! ## The port of an object -/

namespace Payload

/-- The port that an object names itself. -/
def statedPort? (ms : Members) : Option UInt32 :=
  match field? ms ["portnum", "port_num", "portNum"] with
  | some (.string name) => (Port.ofName? name).map Port.number
  | some j => j.word?
  | none => none

/-- The port of a message type. -/
def portOfType? (messageType : String) : Option Port :=
  let t := String.ofList (messageType.toList.map Char.toLower)
  if t = "text" ∨ t = "sendtext" then some .textMessage
  else if t = "position" then some .position
  else if t = "nodeinfo" ∨ t = "user" then some .nodeInfo
  else if t = "telemetry" then some .telemetry
  else if t = "traceroute" then some .traceroute
  else if t = "neighborinfo" then some .neighborInfo
  else if t = "routing" then some .routing
  else none

/-- The port that the fields of an object suggest. -/
def guessedPort? (ms : Members) : Option Port :=
  if hasAny ms ["text"] then some .textMessage
  else if hasAny ms ["position", "latitude_i", "latitudeI", "latitude", "longitude_i",
      "longitudeI", "longitude"] then some .position
  else if hasAny ms (["telemetry", "deviceMetrics", "device_metrics", "environmentMetrics"]
      ++ Spelling.device ++ Spelling.environment) then some .telemetry
  else if hasAny ms ["user", "longname", "longName", "long_name", "shortname", "shortName"] then
    some .nodeInfo
  else if hasAny ms ["neighbors"] then some .neighborInfo
  else if hasAny ms ["route", "snr_towards"] then some .traceroute
  else none

/-- The port of an object. -/
def portOf? (messageType : Option String) (ms : Members) : Option UInt32 :=
  statedPort? ms <|> (messageType.bind portOfType?).map Port.number
    <|> (guessedPort? ms).map Port.number

/-! ## Payloads -/

/-- The text of a text object. -/
def textOf? (ms : Members) : Option String := (field? ms ["text", "payload"]).bind Json.asString?

/-- The payload of an object on a port; `whole` is the object as it was sent. -/
def ofMembers (port : UInt32) (whole : Json) (ms : Members) (requestId : UInt32) :
    Except DecodeFault Payload :=
  match Port.ofNumber? port with
  | some .textMessage =>
    match textOf? ms with
    | some t => .ok (.text t)
    | none => .error (.payload (Port.nameOf port) .missingText)
  | some .position => .ok (.position (PositionReport.ofMembers (nested ms ["position"])))
  | some .telemetry => .ok (.telemetry (TelemetryReport.ofMembers (nested ms ["telemetry"])))
  | some .nodeInfo => .ok (.nodeInfo (UserInfo.ofMembers (nested ms ["user"])))
  | some .traceroute =>
    .ok (.traceroute (RouteDiscovery.ofMembers (nested ms ["traceroute", "route_discovery"])))
  | some .neighborInfo =>
    .ok (.neighborInfo (NeighborReport.ofMembers (nested ms ["neighborinfo"])))
  | some .routing => .ok (.routing (RoutingReport.ofMembers ms requestId))
  | _ => .ok (.unknown port (Bytes.ofText whole.compact))

/-- The payload of an object whose port is looked for; without one its text is kept
as it would be written. -/
def ofFields (messageType : Option String) (whole : Json) (ms : Members) (requestId : UInt32) :
    Except DecodeFault Payload :=
  match portOf? messageType ms with
  | some port => ofMembers port whole ms requestId
  | none => .ok (.unknown 0 (Bytes.ofText whole.compact))

/-- The payload member of an envelope: a bare text, an object, or null, which
counts as an object without members. -/
def ofObject (messageType : Option String) (payload : Json) (requestId : UInt32) :
    Except DecodeFault Payload :=
  match payload with
  | .string t => .ok (.text t)
  | .object ms => ofFields messageType payload ms requestId
  | .null => ofFields messageType payload [] requestId
  | _ => .error (.envelope .payloadShape)

theorem ofObject_string (messageType : Option String) (t : String) (requestId : UInt32) :
    ofObject messageType (.string t) requestId = .ok (.text t) := rfl

end Payload

end MeshWatch
