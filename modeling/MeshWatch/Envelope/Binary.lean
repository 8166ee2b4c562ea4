import MeshWatch.Envelope.Basic
import MeshWatch.Payload.Binary

/-!
# Binary envelopes

An envelope as a wire message. The channel and the gateway that it names itself
go before those of the topic. A ratio of zero without a strength means that
neither was measured, because the wire cannot tell zero from absent.
-/

namespace MeshWatch.Envelope

/-- The ratio of a packet, when it was measured. -/
def wireSnr (snr : Float32) (rssi : Int32) : Option Float32 :=
  if snr == 0 && rssi == 0 then none else saneSnr snr

/-- The body of a packet. -/
def wireBody : Option Wire.PacketBody → EnvelopeBody
  | some (.decoded m) => .data (clampedWord m.portnum) m.payload m.requestId
  | some (.encrypted bs) => if bs.isEmpty then .empty else .encrypted bs
  | none => .empty

/-- The envelope of a packet published on a topic. -/
def ofPacket (topic : Topic) (e : Wire.ServiceEnvelope) (p : Wire.MeshPacket) : Envelope :=
  let snr := p.rxSnr.toFloat
  { packetId := p.id
    sender := ⟨p.sender⟩
    recipient := ⟨p.recipient⟩
    channelName := if e.channelId.isEmpty then topic.channel.getD "" else e.channelId
    channelIndex := p.channel
    gateway := NodeId.ofText? e.gatewayId <|> topic.gateway
    hopLimit := clampedByte p.hopLimit
    hopStart := clampedByte p.hopStart
    rxSnr := wireSnr snr p.rxRssi
    rxRssi := saneRssi p.rxRssi
    rxTime := nonzero? p.rxTime
    relayNode := p.relayNode
    wantAck := p.wantAck
    body := wireBody p.body }

/-- Reads a binary envelope. -/
def ofBinary (topic : Topic) (body : Bytes) : Except DecodeFault Envelope :=
  match (Wire.Message.decode? body : Option Wire.ServiceEnvelope) with
  | none => .error (.envelope (.syntactic .protobuf))
  | some e =>
    match e.packet with
    | none => .error (.envelope .noPacket)
    | some p =>
      if p.sender = 0 then .error (.envelope .missingSender) else .ok (ofPacket topic e p)

end MeshWatch.Envelope
