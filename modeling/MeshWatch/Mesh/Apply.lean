import MeshWatch.Mesh.Capacity
import MeshWatch.Mesh.Routes

/-!
# Applying packets

What one packet changes, in order: the channel slot it was received on, the sender,
the relay and the gateway that it names, and at last what its body says. A packet
that was seen before changes nothing, and neither does one without a usable sender.

- `apply_duplicate`: a repeated packet is reported, and leaves the nodes alone.
- `applyNew_unusable`: so does a packet without a usable sender.
- `isTelemetry_of_mem_applyUpdate`: the fields of a node change without a word, but for
  its telemetry.
- `events_updateNode_getLast?`: an update ends by saying that the node was heard.
-/

namespace MeshWatch

/-- What applying a packet changed. -/
structure ApplyReport where
  duplicate : Bool := false
  nodeCreated : Bool := false
  positionUpdated : Bool := false
  telemetryUpdated : Bool := false
  messageAdded : Bool := false
  routeUpdated : Bool := false
deriving DecidableEq, Repr, Inhabited

namespace Packet

/-- What the packet tells about its sender. -/
def nodeUpdate (p : Packet) : NodeUpdate :=
  match p.payload with
  | .position r => { position := some r, hopsAway := p.hopsAway }
  | .telemetry r => { telemetry := some r, hopsAway := p.hopsAway }
  | .nodeInfo u =>
    { shortName := u.shortName
      longName := u.longName
      hardwareModel := u.hardwareModel
      role := u.role
      hopsAway := p.hopsAway }
  | _ => { hopsAway := p.hopsAway }

/-- The nodes that the packet names: sender, relay and gateway. -/
def named (p : Packet) : List NodeId :=
  p.sender :: (Relay.fullId? p.relay).toList ++ p.gateway.toList

/-- Whether the sender can be a node. -/
def hasUsableSender (p : Packet) : Bool := !p.sender.isUnknown && !p.sender.isBroadcast

/-- The relay, if it is a node other than the sender. -/
def relayNode? (p : Packet) : Option NodeId :=
  (Relay.fullId? p.relay).filter fun id => id != p.sender && id.isAddressable

/-- The gateway, if it is a node other than the sender. -/
def gatewayNode? (p : Packet) : Option NodeId :=
  p.gateway.filter fun id => id != p.sender && id.isAddressable

/-- Whether the gateway heard the sender itself. -/
def isDirect (p : Packet) : Bool := p.hopsAway == some 0

end Packet

namespace Node

/-- Notes the gateway, the link metrics and the relay of a packet of the node. -/
def takeHeader (n : Node) (p : Packet) (now : Moment) : Node :=
  let n := match p.gateway with
    | some gw => { n with lastGateway := some gw }
    | none => n
  let n := match p.rxSnr with
    | some snr => (n.updateLink snr p.rxRssi p.hopsAway now).withLinkTelemetry
    | none => n
  match p.relay with
  | some (.lastByte hint) => n.rememberRelayHint hint
  | _ => n

/-- What is kept while the gateway, the link and the relay are noted, each alone, is kept
by the whole header. -/
theorem takeHeader_keeps {Q : Node → Prop} {n : Node} {p : Packet} {now : Moment} (h : Q n)
    (hgateway : ∀ n gw, Q n → Q { n with lastGateway := some gw })
    (hlink : ∀ n, ∀ snr ∈ p.rxSnr, Q n →
      Q (n.updateLink snr p.rxRssi p.hopsAway now).withLinkTelemetry)
    (hrelay : ∀ n hint, p.relay = some (.lastByte hint) → Q n → Q (n.rememberRelayHint hint)) :
    Q (n.takeHeader p now) := by
  unfold takeHeader
  extract_lets n₁ n₂
  have h₁ : Q n₁ := by
    unfold n₁
    split
    · exact hgateway n _ h
    · exact h
  have h₂ : Q n₂ := by
    unfold n₂
    split
    · next hsnr => exact hlink n₁ _ hsnr h₁
    · exact h₁
  split
  · next hint => exact hrelay n₂ _ hint h₂
  · exact h₂

end Node

/-- The events of a telemetry report: the new state of the node, and a threshold that
was crossed by it. -/
def telemetryEvents (id : NodeId) (before after : DeviceMetrics) (telemetry : NodeTelemetry)
    (threshold : UInt32) : List Event :=
  let low := if !before.isBatteryLow threshold && after.isBatteryLow threshold then
      after.batteryLevel.toList.map fun level => Event.batteryLow id level
    else []
  let congested := if !before.isCongested && after.isCongested then
      after.channelUtilization.toList.map fun u => Event.channelCongested id u
    else []
  .telemetryUpdated id telemetry :: low ++ congested

/-- Whether an event is about the telemetry of a node. -/
def Event.isTelemetry : Event → Bool
  | telemetryUpdated .. => true
  | batteryLow .. => true
  | channelCongested .. => true
  | _ => false

theorem isTelemetry_of_mem {id : NodeId} {before after : DeviceMetrics} {telemetry : NodeTelemetry}
    {threshold : UInt32} {e : Event}
    (h : e ∈ telemetryEvents id before after telemetry threshold) : e.isTelemetry = true := by
  simp only [telemetryEvents, List.cons_append, List.mem_cons, List.mem_append] at h
  rcases h with rfl | h | h
  · rfl
  · split at h
    · obtain ⟨_, -, rfl⟩ := List.mem_map.1 h
      rfl
    · cases h
  · split at h
    · obtain ⟨_, -, rfl⟩ := List.mem_map.1 h
      rfl
    · cases h

namespace Mesh

/-! ## Updating a node -/

/-- Changes a known node by an update. -/
def applyUpdate (m : Mesh) (id : NodeId) (u : NodeUpdate) (now : Moment) : Mesh × Journal :=
  let events := match m.nodes[id]?, u.telemetry with
    | some n, some r =>
      let after := n.telemetry.merge r now
      telemetryEvents n.id n.telemetry.device after.device after m.limits.batteryLow
    | _, _ => []
  (m.modifyNode id (·.update u now), Journal.ofEvents events)

theorem isTelemetry_of_mem_applyUpdate {m : Mesh} {id : NodeId} {u : NodeUpdate} {now : Moment}
    {e : Event} (h : e ∈ Journal.events (m.applyUpdate id u now).2) : e.isTelemetry = true := by
  rw [applyUpdate, Journal.events_ofEvents] at h
  split at h
  · exact isTelemetry_of_mem h
  · cases h

/-- Creates a node if it is not known, and updates it; ids of no node are refused.
Also tells whether it was created. -/
def updateNode (m : Mesh) (id : NodeId) (u : NodeUpdate) (now : Moment) :
    Mesh × Journal × Bool :=
  if id.isUnknown || id.isBroadcast then (m, [], false)
  else
    let created := !m.nodes.contains id
    let (m, told) := m.ensure id now [id]
    let (m, more) := m.applyUpdate id u now
    ({ m with lastUpdate := some now }, told ++ more ++ [.event (.nodeUpdated id)], created)

theorem events_updateNode_getLast? {m : Mesh} {id : NodeId} (u : NodeUpdate) (now : Moment)
    (h : (id.isUnknown || id.isBroadcast) = false) :
    (Journal.events (m.updateNode id u now).2.1).getLast? = some (.nodeUpdated id) := by
  simp [updateNode, h]

/-! ## The stages of a packet -/

/-- The sender of a packet was heard. -/
def hearSender (m : Mesh) (p : Packet) (now : Moment) : Mesh × Journal :=
  let (m, told) := m.ensure p.sender now p.named
  let (m, more) := m.applyUpdate p.sender p.nodeUpdate now
  (m.modifyNode p.sender (·.takeHeader p now), told ++ more)

/-- The relay of a packet was heard. -/
def hearRelay (m : Mesh) (p : Packet) (now : Moment) : Mesh × Journal :=
  match p.relayNode? with
  | some id =>
    let (m, told) := m.ensure id now p.named
    (m.modifyNode id (·.heardAt now), told ++ [.event (.nodeUpdated id)])
  | none => (m, [])

/-- The gateway of a packet was heard; it is a neighbor of a sender that it heard
itself. -/
def hearGateway (m : Mesh) (p : Packet) (now : Moment) : Mesh × Journal :=
  match p.gatewayNode? with
  | some id =>
    let (m, told) := m.ensure id now p.named
    let m := m.modifyNode id (·.heardAt now)
    if p.isDirect then
      ((m.modifyNode id (·.hears p.sender)).modifyNode p.sender (·.isHeardBy id), told)
    else (m, told)
  | none => (m, [])

/-- The node whose neighbors a report lists: the one that it names, if that is known,
else the sender. -/
def reporterOf (m : Mesh) (sender : NodeId) (r : NeighborReport) : NodeId :=
  match r.nodeId with
  | some id => if id.isAddressable && m.nodes.contains id then id else sender
  | none => sender

/-- What the body of a packet says; also tells whether a route was taken. -/
def takePayload (m : Mesh) (p : Packet) (channel : UInt32) (now : Moment) :
    Mesh × Journal × Bool :=
  match p.payload with
  | .text t =>
    let (m, told) := m.addMessage (Message.ofPacket p t channel now)
    (m, told, false)
  | .traceroute d =>
    let (m, taken) := m.updateRoute (Route.ofDiscovery p.sender d now)
    (m, [], taken)
  | .neighborInfo r => (m.updateNeighbors (m.reporterOf p.sender r) r.neighbors, [], false)
  | _ => (m, [], false)

/-- A text adds a message. -/
def addsMessage : Payload → Bool
  | .text _ => true
  | _ => false

/-! ## Whole packets -/

/-- Applies a packet that was not seen before. -/
def applyNew (m : Mesh) (p : Packet) (now : Moment) : Mesh × Journal × ApplyReport :=
  if p.hasUsableSender then
    let created := !m.nodes.contains p.sender
    let (m, channel) := m.resolveChannel p.channelName p.channelIndex
    let m := m.touchChannel channel false now
    let (m, told1) := m.hearSender p now
    let (m, told2) := m.hearRelay p now
    let (m, told3) := m.hearGateway p now
    let (m, told4, routeTaken) := m.takePayload p channel now
    ({ m with lastUpdate := some now },
     told1 ++ told2 ++ told3 ++ told4 ++ [.event (.nodeUpdated p.sender)],
     { nodeCreated := created
       positionUpdated := (p.nodeUpdate.position.bind PositionReport.coordinates).isSome
       telemetryUpdated := p.nodeUpdate.telemetry.isSome
       messageAdded := addsMessage p.payload
       routeUpdated := routeTaken })
  else (m, [], {})

theorem applyNew_unusable {m : Mesh} {p : Packet} (h : p.hasUsableSender = false) (now : Moment) :
    m.applyNew p now = (m, [], {}) := by simp [applyNew, h]

/-- Applies a packet, unless it was seen before. Packets without an id are never
taken for repetitions. -/
def apply (m : Mesh) (p : Packet) (now : Moment) : Mesh × Journal × ApplyReport :=
  if p.packetId = 0 then m.applyNew p now
  else
    let (seen, dedup) := m.dedup.accept ⟨p.packetId, p.sender⟩ now
    let m := { m with dedup := dedup }
    if seen then (m, [], { duplicate := true }) else m.applyNew p now

theorem apply_duplicate {m : Mesh} {p : Packet} {now : Moment} (h0 : p.packetId ≠ 0)
    (h : (m.dedup.accept ⟨p.packetId, p.sender⟩ now).1 = true) :
    (m.apply p now).1.nodes = m.nodes ∧ (m.apply p now).2 = ([], { duplicate := true }) := by
  simp [apply, h0, h]

end Mesh

end MeshWatch
