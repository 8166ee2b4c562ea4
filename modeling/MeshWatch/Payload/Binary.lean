import MeshWatch.Fault
import MeshWatch.Hardware
import MeshWatch.Payload.Basic
import MeshWatch.Wire.Schema

/-!
# Binary payloads

Reads the body that a data message carries, by its port. Scalars without presence
count as absent when they are zero or empty. Metrics that no device can have
measured are dropped here, before anything else sees them.

- `ofBinary_text`: a text body is its UTF-8 text.
- `ofBinary_of_unknown_port`: a port without a known application keeps its bytes.
-/

namespace MeshWatch

/-- A number that counts as absent when it is zero. -/
def nonzero? (n : UInt32) : Option UInt32 := if n = 0 then none else some n

/-- A text that counts as absent when it is empty. -/
def nonEmpty? (s : String) : Option String := if s.isEmpty then none else some s

/-- A number with its negative values cut off at zero. -/
def clampedWord (n : Int32) : UInt32 := UInt32.ofNat n.toInt.toNat

/-- The decibels of a ratio in quarters. -/
def quarterDecibels (n : Int32) : Float32 := Float32.ofInt n.toInt / 4

/-- The degrees of a coordinate in units of 10⁻⁷. -/
def scaledDegrees (n : Int32) : Float := Float.ofInt n.toInt / 1e7

namespace DeviceMetrics

def ofWire (m : Wire.DeviceMetrics) : DeviceMetrics :=
  { batteryLevel := m.batteryLevel
    voltage := m.voltage.map Wire.Single.toFloat
    channelUtilization := m.channelUtilization.map Wire.Single.toFloat
    airUtilTx := m.airUtilTx.map Wire.Single.toFloat
    uptimeSeconds := m.uptimeSeconds }

end DeviceMetrics

namespace EnvironmentMetrics

def ofWire (m : Wire.EnvironmentMetrics) : EnvironmentMetrics :=
  { temperature := m.temperature.map Wire.Single.toFloat
    relativeHumidity := m.relativeHumidity.map Wire.Single.toFloat
    barometricPressure := m.barometricPressure.map Wire.Single.toFloat
    gasResistance := m.gasResistance.map Wire.Single.toFloat }

end EnvironmentMetrics

namespace PositionReport

def ofWire (m : Wire.Position) : PositionReport :=
  { latitude := m.latitudeI.map scaledDegrees
    longitude := m.longitudeI.map scaledDegrees
    altitude := m.altitude
    precisionBits := nonzero? m.precisionBits
    time := nonzero? m.time
    groundSpeed := m.groundSpeed
    satsInView := nonzero? m.satsInView }

end PositionReport

namespace UserInfo

def ofWire (m : Wire.User) : UserInfo :=
  { id := nonEmpty? m.id
    shortName := nonEmpty? m.shortName
    longName := nonEmpty? m.longName
    hardwareModel := some (Hardware.nameOf (clampedWord m.hwModel))
    role := some (NodeRole.ofNumber (clampedWord m.role)) }

end UserInfo

namespace TelemetryReport

def ofWire (m : Wire.Telemetry) : TelemetryReport :=
  let time := nonzero? m.time
  match m.variant with
  | some (.device d) => { time := time, device := some (DeviceMetrics.ofWire d).sanitized }
  | some (.environment e) =>
    { time := time, environment := some (EnvironmentMetrics.ofWire e).sanitized }
  | none => { time := time }

end TelemetryReport

namespace RoutingReport

def ofWire (m : Wire.Routing) (requestId : UInt32) : RoutingReport :=
  { requestId := nonzero? requestId
    errorReason := match m.variant with
      | some (.errorReason code) => some (clampedWord code)
      | _ => none }

end RoutingReport

namespace RouteDiscovery

def ofWire (m : Wire.RouteDiscovery) : RouteDiscovery :=
  { route := m.route.map NodeId.mk
    snrTowards := m.snrTowards.map quarterDecibels
    routeBack := m.routeBack.map NodeId.mk
    snrBack := m.snrBack.map quarterDecibels }

end RouteDiscovery

namespace NeighborReport

def ofWire (m : Wire.NeighborInfo) : NeighborReport :=
  { nodeId := (nonzero? m.nodeId).map NodeId.mk
    broadcastIntervalSecs := nonzero? m.nodeBroadcastIntervalSecs
    neighbors := (m.neighbors.filter fun n => n.nodeId != 0).map fun n =>
      ⟨⟨n.nodeId⟩, n.snr.toFloat⟩ }

end NeighborReport

namespace Payload

/-- A text body. -/
def ofText (port : UInt32) (body : Bytes) : Except DecodeFault Payload :=
  match Bytes.toText? body with
  | some t => .ok (.text t)
  | none =>
    .error (.payload (Port.nameOf port) (.text ((Text.utf8Fault? body).getD (.incomplete 0))))

/-- A body that is a wire message. -/
def ofWire {α : Type} [Wire.Message α] (port : UInt32) (body : Bytes) (f : α → Payload) :
    Except DecodeFault Payload :=
  match Wire.Message.decode? body with
  | some m => .ok (f m)
  | none => .error (.payload (Port.nameOf port) .wire)

/-- The payload of a body on a port; `requestId` is the packet that it answers. -/
def ofBinary (port : UInt32) (body : Bytes) (requestId : UInt32) : Except DecodeFault Payload :=
  match Port.ofNumber? port with
  | some .textMessage => ofText port body
  | some .position => ofWire port body fun m => .position (PositionReport.ofWire m)
  | some .nodeInfo => ofWire port body fun m => .nodeInfo (UserInfo.ofWire m)
  | some .telemetry => ofWire port body fun m => .telemetry (TelemetryReport.ofWire m)
  | some .routing => ofWire port body fun m => .routing (RoutingReport.ofWire m requestId)
  | some .traceroute => ofWire port body fun m => .traceroute (RouteDiscovery.ofWire m)
  | some .neighborInfo => ofWire port body fun m => .neighborInfo (NeighborReport.ofWire m)
  | _ => .ok (.unknown port body)

theorem ofBinary_text (body : Bytes) (requestId : UInt32) {t : String}
    (h : Bytes.toText? body = some t) :
    ofBinary Port.textMessage.number body requestId = .ok (.text t) := by
  simp [ofBinary, Port.ofNumber?_number, ofText, h]

theorem ofBinary_of_unknown_port {port : UInt32} (h : Port.ofNumber? port = none) (body : Bytes)
    (requestId : UInt32) : ofBinary port body requestId = .ok (.unknown port body) := by
  simp [ofBinary, h]

end Payload

/-! ## Data messages -/

/-- The contents of a data message: an application body and its port. -/
structure PortData where
  port : UInt32
  payload : Bytes
  requestId : UInt32
deriving DecidableEq, Repr

/-- Reads a decrypted body. Decryption with the wrong key yields noise, which shows
as a message that cannot be read or that has no port. -/
def PortData.ofPlaintext (plaintext : Bytes) : Except DecodeFault PortData :=
  match (Wire.Message.decode? plaintext : Option Wire.Data) with
  | none => .error (.decrypt .notData)
  | some m =>
    if m.portnum ≤ 0 then .error (.decrypt .noPort)
    else .ok ⟨clampedWord m.portnum, m.payload, m.requestId⟩

end MeshWatch
