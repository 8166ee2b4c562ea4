import MeshWatch.Wire.Message

/-!
# The messages of the mesh

The part of the mesh's message schema that gateways publish: the envelope, the
packet in it, the data wrapper that is encrypted as a whole, and the bodies of the
application ports. Each type is followed by the fields that write it and by what
each field does when it is read. A choice between variants keeps the variant that
came last; a message variant that comes twice is merged.
-/

namespace MeshWatch.Wire

/-! ## Application data -/

/-- The wrapper of an application body. -/
structure Data where
  portnum : Int32 := 0
  payload : Bytes := []
  wantResponse : Bool := false
  dest : UInt32 := 0
  source : UInt32 := 0
  requestId : UInt32 := 0
  replyId : UInt32 := 0
deriving DecidableEq, Repr

instance : Message Data where
  empty := {}
  fields m :=
    Field.int32 1 m.portnum ++ Field.bytes 2 m.payload ++ Field.bool 3 m.wantResponse
      ++ Field.fixed 4 m.dest ++ Field.fixed 5 m.source ++ Field.fixed 6 m.requestId
      ++ Field.fixed 7 m.replyId
  put _ m f :=
    match f.number with
    | 1 => f.value.int32?.map fun v => { m with portnum := v }
    | 2 => f.value.bytes?.map fun v => { m with payload := v }
    | 3 => f.value.bool?.map fun v => { m with wantResponse := v }
    | 4 => f.value.fixed?.map fun v => { m with dest := v }
    | 5 => f.value.fixed?.map fun v => { m with source := v }
    | 6 => f.value.fixed?.map fun v => { m with requestId := v }
    | 7 => f.value.fixed?.map fun v => { m with replyId := v }
    | _ => some m

/-! ## Packets -/

/-- What a packet carries: data in the clear, or its ciphertext. -/
inductive PacketBody where
  | decoded (data : Data)
  | encrypted (ciphertext : Bytes)
deriving DecidableEq, Repr

/-- A packet as a gateway heard it. -/
structure MeshPacket where
  sender : UInt32 := 0
  recipient : UInt32 := 0
  /-- The channel's index, or its hash when the body is encrypted. -/
  channel : UInt32 := 0
  body : Option PacketBody := none
  id : UInt32 := 0
  rxTime : UInt32 := 0
  rxSnr : Single := ⟨0⟩
  hopLimit : UInt32 := 0
  wantAck : Bool := false
  rxRssi : Int32 := 0
  viaMqtt : Bool := false
  hopStart : UInt32 := 0
  relayNode : UInt32 := 0
deriving DecidableEq, BEq, Repr

/-- The variant of a packet's body. -/
def PacketBody.field : PacketBody → Field
  | .decoded data => Field.message 4 data
  | .encrypted bs => ⟨5, .bytes bs⟩

/-- The data that a further field is merged into. -/
def PacketBody.data : Option PacketBody → Data
  | some (.decoded data) => data
  | _ => {}

instance : Message MeshPacket where
  empty := {}
  fields m :=
    Field.fixed 1 m.sender ++ Field.fixed 2 m.recipient ++ Field.uint32 3 m.channel
      ++ (m.body.map PacketBody.field).toList ++ Field.fixed 6 m.id ++ Field.fixed 7 m.rxTime
      ++ Field.single 8 m.rxSnr ++ Field.uint32 9 m.hopLimit ++ Field.bool 10 m.wantAck
      ++ Field.int32 12 m.rxRssi ++ Field.bool 14 m.viaMqtt ++ Field.uint32 15 m.hopStart
      ++ Field.uint32 19 m.relayNode
  put room m f :=
    match f.number with
    | 1 => f.value.fixed?.map fun v => { m with sender := v }
    | 2 => f.value.fixed?.map fun v => { m with recipient := v }
    | 3 => f.value.uint32?.map fun v => { m with channel := v }
    | 4 =>
      (f.value.message? room (PacketBody.data m.body)).map fun v =>
        { m with body := some (.decoded v) }
    | 5 => f.value.bytes?.map fun v => { m with body := some (.encrypted v) }
    | 6 => f.value.fixed?.map fun v => { m with id := v }
    | 7 => f.value.fixed?.map fun v => { m with rxTime := v }
    | 8 => f.value.single?.map fun v => { m with rxSnr := v }
    | 9 => f.value.uint32?.map fun v => { m with hopLimit := v }
    | 10 => f.value.bool?.map fun v => { m with wantAck := v }
    | 12 => f.value.int32?.map fun v => { m with rxRssi := v }
    | 14 => f.value.bool?.map fun v => { m with viaMqtt := v }
    | 15 => f.value.uint32?.map fun v => { m with hopStart := v }
    | 19 => f.value.uint32?.map fun v => { m with relayNode := v }
    | _ => some m

/-- What a gateway publishes for a packet. -/
structure ServiceEnvelope where
  packet : Option MeshPacket := none
  channelId : String := ""
  gatewayId : String := ""
deriving DecidableEq, BEq, Repr

instance : Message ServiceEnvelope where
  empty := {}
  fields m :=
    (m.packet.map (Field.message 1)).toList ++ Field.text 2 m.channelId
      ++ Field.text 3 m.gatewayId
  put room m f :=
    match f.number with
    | 1 =>
      (f.value.message? room (m.packet.getD {})).map fun v => { m with packet := some v }
    | 2 => f.value.text?.map fun v => { m with channelId := v }
    | 3 => f.value.text?.map fun v => { m with gatewayId := v }
    | _ => some m

/-! ## Bodies of the application ports -/

/-- A position in units of 10⁻⁷ degrees. -/
structure Position where
  latitudeI : Option Int32 := none
  longitudeI : Option Int32 := none
  altitude : Option Int32 := none
  time : UInt32 := 0
  groundSpeed : Option UInt32 := none
  groundTrack : Option UInt32 := none
  satsInView : UInt32 := 0
  precisionBits : UInt32 := 0
deriving DecidableEq, Repr

instance : Message Position where
  empty := {}
  fields m :=
    Field.sfixed? 1 m.latitudeI ++ Field.sfixed? 2 m.longitudeI ++ Field.int32? 3 m.altitude
      ++ Field.fixed 4 m.time ++ Field.uint32? 15 m.groundSpeed ++ Field.uint32? 16 m.groundTrack
      ++ Field.uint32 19 m.satsInView ++ Field.uint32 23 m.precisionBits
  put _ m f :=
    match f.number with
    | 1 => f.value.sfixed?.map fun v => { m with latitudeI := some v }
    | 2 => f.value.sfixed?.map fun v => { m with longitudeI := some v }
    | 3 => f.value.int32?.map fun v => { m with altitude := some v }
    | 4 => f.value.fixed?.map fun v => { m with time := v }
    | 15 => f.value.uint32?.map fun v => { m with groundSpeed := some v }
    | 16 => f.value.uint32?.map fun v => { m with groundTrack := some v }
    | 19 => f.value.uint32?.map fun v => { m with satsInView := v }
    | 23 => f.value.uint32?.map fun v => { m with precisionBits := v }
    | _ => some m

/-- What a node says about itself. -/
structure User where
  id : String := ""
  longName : String := ""
  shortName : String := ""
  macaddr : Bytes := []
  hwModel : Int32 := 0
  isLicensed : Bool := false
  role : Int32 := 0
deriving DecidableEq, Repr

instance : Message User where
  empty := {}
  fields m :=
    Field.text 1 m.id ++ Field.text 2 m.longName ++ Field.text 3 m.shortName
      ++ Field.bytes 4 m.macaddr ++ Field.int32 5 m.hwModel ++ Field.bool 6 m.isLicensed
      ++ Field.int32 7 m.role
  put _ m f :=
    match f.number with
    | 1 => f.value.text?.map fun v => { m with id := v }
    | 2 => f.value.text?.map fun v => { m with longName := v }
    | 3 => f.value.text?.map fun v => { m with shortName := v }
    | 4 => f.value.bytes?.map fun v => { m with macaddr := v }
    | 5 => f.value.int32?.map fun v => { m with hwModel := v }
    | 6 => f.value.bool?.map fun v => { m with isLicensed := v }
    | 7 => f.value.int32?.map fun v => { m with role := v }
    | _ => some m

/-- The state of a node's power supply and radio. -/
structure DeviceMetrics where
  batteryLevel : Option UInt32 := none
  voltage : Option Single := none
  channelUtilization : Option Single := none
  airUtilTx : Option Single := none
  uptimeSeconds : Option UInt32 := none
deriving DecidableEq, BEq, Repr

instance : Message DeviceMetrics where
  empty := {}
  fields m :=
    Field.uint32? 1 m.batteryLevel ++ Field.single? 2 m.voltage
      ++ Field.single? 3 m.channelUtilization ++ Field.single? 4 m.airUtilTx
      ++ Field.uint32? 5 m.uptimeSeconds
  put _ m f :=
    match f.number with
    | 1 => f.value.uint32?.map fun v => { m with batteryLevel := some v }
    | 2 => f.value.single?.map fun v => { m with voltage := some v }
    | 3 => f.value.single?.map fun v => { m with channelUtilization := some v }
    | 4 => f.value.single?.map fun v => { m with airUtilTx := some v }
    | 5 => f.value.uint32?.map fun v => { m with uptimeSeconds := some v }
    | _ => some m

/-- Readings of a node's sensors. -/
structure EnvironmentMetrics where
  temperature : Option Single := none
  relativeHumidity : Option Single := none
  barometricPressure : Option Single := none
  gasResistance : Option Single := none
deriving DecidableEq, BEq, Repr

instance : Message EnvironmentMetrics where
  empty := {}
  fields m :=
    Field.single? 1 m.temperature ++ Field.single? 2 m.relativeHumidity
      ++ Field.single? 3 m.barometricPressure ++ Field.single? 4 m.gasResistance
  put _ m f :=
    match f.number with
    | 1 => f.value.single?.map fun v => { m with temperature := some v }
    | 2 => f.value.single?.map fun v => { m with relativeHumidity := some v }
    | 3 => f.value.single?.map fun v => { m with barometricPressure := some v }
    | 4 => f.value.single?.map fun v => { m with gasResistance := some v }
    | _ => some m

/-- The readings of a telemetry body. -/
inductive TelemetryVariant where
  | device (m : DeviceMetrics)
  | environment (m : EnvironmentMetrics)
deriving DecidableEq, BEq, Repr

/-- A telemetry body. -/
structure Telemetry where
  time : UInt32 := 0
  variant : Option TelemetryVariant := none
deriving DecidableEq, BEq, Repr

def TelemetryVariant.field : TelemetryVariant → Field
  | .device m => Field.message 2 m
  | .environment m => Field.message 3 m

/-- The device metrics that a further field is merged into. -/
def TelemetryVariant.deviceOf : Option TelemetryVariant → DeviceMetrics
  | some (.device m) => m
  | _ => {}

/-- The sensor readings that a further field is merged into. -/
def TelemetryVariant.environmentOf : Option TelemetryVariant → EnvironmentMetrics
  | some (.environment m) => m
  | _ => {}

instance : Message Telemetry where
  empty := {}
  fields m := Field.fixed 1 m.time ++ (m.variant.map TelemetryVariant.field).toList
  put room m f :=
    match f.number with
    | 1 => f.value.fixed?.map fun v => { m with time := v }
    | 2 =>
      (f.value.message? room (TelemetryVariant.deviceOf m.variant)).map fun v =>
        { m with variant := some (.device v) }
    | 3 =>
      (f.value.message? room (TelemetryVariant.environmentOf m.variant)).map fun v =>
        { m with variant := some (.environment v) }
    | _ => some m

/-- The path of a traceroute; signal-to-noise ratios in quarters of a decibel. -/
structure RouteDiscovery where
  route : List UInt32 := []
  snrTowards : List Int32 := []
  routeBack : List UInt32 := []
  snrBack : List Int32 := []
deriving DecidableEq, Repr

instance : Message RouteDiscovery where
  empty := {}
  fields m :=
    Field.fixeds 1 m.route ++ Field.int32s 2 m.snrTowards ++ Field.fixeds 3 m.routeBack
      ++ Field.int32s 4 m.snrBack
  put _ m f :=
    match f.number with
    | 1 => f.value.fixeds?.map fun vs => { m with route := m.route ++ vs }
    | 2 => f.value.int32s?.map fun vs => { m with snrTowards := m.snrTowards ++ vs }
    | 3 => f.value.fixeds?.map fun vs => { m with routeBack := m.routeBack ++ vs }
    | 4 => f.value.int32s?.map fun vs => { m with snrBack := m.snrBack ++ vs }
    | _ => some m

/-- What a routing body says. -/
inductive RoutingVariant where
  | routeRequest (m : RouteDiscovery)
  | routeReply (m : RouteDiscovery)
  | errorReason (code : Int32)
deriving DecidableEq, Repr

/-- A routing body. -/
structure Routing where
  variant : Option RoutingVariant := none
deriving DecidableEq, Repr

def RoutingVariant.field : RoutingVariant → Field
  | .routeRequest m => Field.message 1 m
  | .routeReply m => Field.message 2 m
  | .errorReason code => ⟨3, .varint (ofInt32 code)⟩

/-- The request that a further field is merged into. -/
def RoutingVariant.requestOf : Option RoutingVariant → RouteDiscovery
  | some (.routeRequest m) => m
  | _ => {}

/-- The reply that a further field is merged into. -/
def RoutingVariant.replyOf : Option RoutingVariant → RouteDiscovery
  | some (.routeReply m) => m
  | _ => {}

instance : Message Routing where
  empty := {}
  fields m := (m.variant.map RoutingVariant.field).toList
  put room m f :=
    match f.number with
    | 1 =>
      (f.value.message? room (RoutingVariant.requestOf m.variant)).map fun v =>
        { m with variant := some (.routeRequest v) }
    | 2 =>
      (f.value.message? room (RoutingVariant.replyOf m.variant)).map fun v =>
        { m with variant := some (.routeReply v) }
    | 3 => f.value.int32?.map fun v => { m with variant := some (.errorReason v) }
    | _ => some m

/-- A node that another one hears. -/
structure Neighbor where
  nodeId : UInt32 := 0
  snr : Single := ⟨0⟩
  lastRxTime : UInt32 := 0
  nodeBroadcastIntervalSecs : UInt32 := 0
deriving DecidableEq, BEq, Repr

instance : Message Neighbor where
  empty := {}
  fields m :=
    Field.uint32 1 m.nodeId ++ Field.single 2 m.snr ++ Field.fixed 3 m.lastRxTime
      ++ Field.uint32 4 m.nodeBroadcastIntervalSecs
  put _ m f :=
    match f.number with
    | 1 => f.value.uint32?.map fun v => { m with nodeId := v }
    | 2 => f.value.single?.map fun v => { m with snr := v }
    | 3 => f.value.fixed?.map fun v => { m with lastRxTime := v }
    | 4 => f.value.uint32?.map fun v => { m with nodeBroadcastIntervalSecs := v }
    | _ => some m

/-- The nodes that one node hears. -/
structure NeighborInfo where
  nodeId : UInt32 := 0
  lastSentById : UInt32 := 0
  nodeBroadcastIntervalSecs : UInt32 := 0
  neighbors : List Neighbor := []
deriving DecidableEq, BEq, Repr

instance : Message NeighborInfo where
  empty := {}
  fields m :=
    Field.uint32 1 m.nodeId ++ Field.uint32 2 m.lastSentById
      ++ Field.uint32 3 m.nodeBroadcastIntervalSecs ++ m.neighbors.map (Field.message 4)
  put room m f :=
    match f.number with
    | 1 => f.value.uint32?.map fun v => { m with nodeId := v }
    | 2 => f.value.uint32?.map fun v => { m with lastSentById := v }
    | 3 => f.value.uint32?.map fun v => { m with nodeBroadcastIntervalSecs := v }
    | 4 =>
      (f.value.message? room ({} : Neighbor)).map fun v =>
        { m with neighbors := m.neighbors ++ [v] }
    | _ => some m

end MeshWatch.Wire
