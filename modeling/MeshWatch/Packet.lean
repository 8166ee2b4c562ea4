import MeshWatch.Payload.Basic

/-!
# Packets

A packet as it is handed to the model of the mesh: who sent it to whom, which
gateway heard it how well, over which relay, and what it says.

- `hopsAway_of_start_zero`: a packet that does not tell where it started has no
  known distance.
- `Relay.ofRaw_of_le`: a relay id of one byte is never a node.
-/

namespace MeshWatch

/-- The node that relayed a packet. Newer firmware transmits the last byte of its
address only, which does not identify it. -/
inductive Relay where
  | full (id : NodeId)
  | lastByte (byte : UInt8)
deriving DecidableEq, Repr

namespace Relay

/-- The relay of a header field; zero means that there is none. -/
def ofRaw (raw : UInt32) : Option Relay :=
  if raw = 0 then none
  else if raw ≤ 0xFF then some (.lastByte raw.toUInt8)
  else some (.full ⟨raw⟩)

theorem ofRaw_of_le {raw : UInt32} (h : raw ≤ 0xFF) (h0 : raw ≠ 0) :
    ofRaw raw = some (.lastByte raw.toUInt8) := by simp [ofRaw, h, h0]

def toJson : Relay → Json
  | .full id => .object [("Full", id.toJson)]
  | .lastByte b => .object [("Partial", Json.ofUInt8 b)]

/-- The address of a relay that is known in full. -/
def fullId? : Option Relay → Option NodeId
  | some (.full id) => some id
  | _ => none

end Relay

/-- A decoded packet. -/
structure Packet where
  packetId : UInt32
  sender : NodeId
  recipient : NodeId
  /-- The gateway that passed the packet on to the broker. -/
  gateway : Option NodeId
  channelName : String
  /-- The channel's index, or its hash when the body came encrypted. -/
  channelIndex : UInt32
  hopLimit : UInt8
  /-- The hop limit at the start, zero when it is not known. -/
  hopStart : UInt8
  rxSnr : Option Float32
  rxRssi : Option Int32
  rxTime : Option UInt32
  relay : Option Relay
  wantAck : Bool
  encrypted : Bool
  payload : Payload
deriving DecidableEq

/-- How many hops lie between a start and what is left of it. -/
def hopDistance (hopStart hopLimit : UInt8) : Option UInt8 :=
  if hopStart = 0 || hopStart < hopLimit then none else some (hopStart - hopLimit)

namespace Packet

/-- How many hops the packet travelled, when that is known. -/
def hopsAway (p : Packet) : Option UInt8 := hopDistance p.hopStart p.hopLimit

theorem hopsAway_of_start_zero {p : Packet} (h : p.hopStart = 0) : p.hopsAway = none := by
  simp [hopsAway, hopDistance, h]

def isBroadcast (p : Packet) : Bool := p.recipient.isBroadcast

/-- Whether the header is all that could be read. -/
def isHeaderOnly (p : Packet) : Bool := p.payload == .sealed

/-- The record of a packet. -/
def toJson (p : Packet) : Json :=
  .object
    [("packet_id", Json.ofUInt32 p.packetId),
     ("from", p.sender.toJson),
     ("to", p.recipient.toJson),
     ("gateway", Json.option NodeId.toJson p.gateway),
     ("channel_name", .string p.channelName),
     ("channel_index", Json.ofUInt32 p.channelIndex),
     ("hop_limit", Json.ofUInt8 p.hopLimit),
     ("hop_start", Json.ofUInt8 p.hopStart),
     ("rx_snr", Json.option Json.ofSingle p.rxSnr),
     ("rx_rssi", Json.option Json.ofInt32 p.rxRssi),
     ("rx_time", Json.option Json.ofUInt32 p.rxTime),
     ("relay", Json.option Relay.toJson p.relay),
     ("want_ack", .bool p.wantAck),
     ("encrypted", .bool p.encrypted),
     ("payload", p.payload.toJson)]

end Packet

end MeshWatch
