import MeshWatch.Packet
import MeshWatch.Json.Record

/-!
# Text messages

The text messages that were heard, or added by hand.

- `isBroadcast_ofPacket`: a message is for everyone exactly when its packet is.
-/

namespace MeshWatch

/-- A text message. -/
structure Message where
  id : String
  packetId : UInt32
  sender : NodeId
  /-- Whom it is for; nobody in particular when it is a broadcast. -/
  recipient : Option NodeId
  /-- The index of its channel slot. -/
  channel : UInt32
  channelName : String
  text : String
  timestamp : Moment
  snr : Option Float32
  rssi : Option Int32
  hopsAway : Option UInt8
  incoming : Bool
deriving DecidableEq, Inhabited

namespace Message

def isBroadcast (m : Message) : Bool := m.recipient.isNone

/-- The message that a packet with a text brings on a channel slot. -/
def ofPacket (p : Packet) (text : String) (channel : UInt32) (now : Moment) : Message :=
  { id := p.sender.text ++ ":" ++ toString p.packetId.toNat
    packetId := p.packetId
    sender := p.sender
    recipient := if p.isBroadcast then none else some p.recipient
    channel := channel
    channelName := p.channelName
    text := text
    timestamp := now
    snr := p.rxSnr
    rssi := p.rxRssi
    hopsAway := p.hopsAway
    incoming := true }

theorem isBroadcast_ofPacket (p : Packet) (text : String) (channel : UInt32) (now : Moment) :
    (ofPacket p text channel now).isBroadcast = p.isBroadcast := by
  cases h : p.isBroadcast <;> simp [ofPacket, isBroadcast, h]

def toJson (m : Message) : Json :=
  .object
    [("id", .string m.id),
     ("packet_id", Json.ofUInt32 m.packetId),
     ("from", m.sender.toJson),
     ("to", Json.option NodeId.toJson m.recipient),
     ("channel", Json.ofUInt32 m.channel),
     ("channel_name", .string m.channelName),
     ("text", .string m.text),
     ("timestamp", Json.ofMoment m.timestamp),
     ("snr", Json.option Json.ofSingle m.snr),
     ("rssi", Json.option Json.ofInt32 m.rssi),
     ("hops_away", Json.option Json.ofUInt8 m.hopsAway),
     ("incoming", .bool m.incoming)]

/-- The fields in order. -/
def fieldNames : List String :=
  ["id", "packet_id", "from", "to", "channel", "channel_name", "text", "timestamp", "snr", "rssi",
   "hops_away", "incoming"]

def ofJson? (j : Json) : Option Message := do
  let ms ← j.recordMembers? fieldNames 12
  return {
    id := ← Json.required ms "id" Json.asString?
    packetId := ← Json.required ms "packet_id" Json.readUInt32
    sender := ← Json.required ms "from" NodeId.ofJson?
    recipient := ← Json.optional ms "to" NodeId.ofJson?
    channel := ← Json.required ms "channel" Json.readUInt32
    channelName := ← Json.required ms "channel_name" Json.asString?
    text := ← Json.required ms "text" Json.asString?
    timestamp := ← Json.required ms "timestamp" Json.readMoment
    snr := ← Json.optional ms "snr" Json.readSingle
    rssi := ← Json.optional ms "rssi" Json.readInt32
    hopsAway := ← Json.optional ms "hops_away" Json.readUInt8
    incoming := ← Json.required ms "incoming" Json.asBool? }

end Message

end MeshWatch
