import MeshWatch.Envelope.Basic
import MeshWatch.Json.Reader
import MeshWatch.Payload.Object

/-!
# JSON envelopes

An envelope as a JSON object, with the spellings of its members as lenient as
those of payload objects. A gateway that reports only how far a packet has come is
taken to have seen it start with that many hops and none left.

- `hops_of_both`: a reported start and limit are taken as they are.
-/

namespace MeshWatch.Envelope

open Json (Members field?)

/-- Start and limit of the hops, out of what is reported. -/
def hops (hopStart hopLimit hopsAway : Option UInt32) : UInt32 × UInt32 :=
  match hopStart, hopLimit, hopsAway with
  | some s, some l, _ => (s, l)
  | none, _, some away => (away, 0)
  | s, l, _ => (s.getD 0, l.getD 0)

theorem hops_of_both (s l : UInt32) (away : Option UInt32) :
    hops (some s) (some l) away = (s, l) := rfl

/-- The index and the name of the channel member: a number or numeric text is an
index, any other text a name. -/
def channel (ms : Members) : UInt32 × Option String :=
  match ms.get? "channel" with
  | some (.string name) =>
    match Text.decimalWord? name with
    | some index => (index, none)
    | none => (0, some name)
  | some j => (j.word?.getD 0, none)
  | none => (0, none)

/-- The body: a typed payload, unless there is neither payload nor type. -/
def objectBody (ms : Members) : Except DecodeFault EnvelopeBody :=
  let messageType := (ms.get? "type").bind Json.asString?
  let requestId := ((field? ms ["request_id", "requestId"]).bind Json.word?).getD 0
  match ms.get? "payload", messageType with
  | none, none => .ok .empty
  | some .null, none => .ok .empty
  | none, _ => (Payload.ofObject messageType .null 0).map .decoded
  | some .null, _ => (Payload.ofObject messageType .null 0).map .decoded
  | some payload, _ => (Payload.ofObject messageType payload requestId).map .decoded

/-- The envelope of an object from a sender published on a topic. -/
def ofMembers (topic : Topic) (ms : Members) (sender : NodeId) (body : EnvelopeBody) : Envelope :=
  let (index, name) := channel ms
  let (hopStart, hopLimit) :=
    hops ((field? ms ["hop_start", "hopStart"]).bind Json.word?)
      ((field? ms ["hop_limit", "hopLimit"]).bind Json.word?)
      ((field? ms ["hops_away", "hopsAway"]).bind Json.word?)
  { packetId := ((field? ms ["id", "packet_id", "packetId"]).bind Json.word?).getD 0
    sender := sender
    recipient := ((field? ms ["to"]).bind Json.nodeId?).getD NodeId.broadcast
    channelName := (topic.channel <|> name).getD ""
    channelIndex := index
    gateway := topic.gateway
    hopLimit := clampedByte hopLimit
    hopStart := clampedByte hopStart
    rxSnr := ((field? ms ["snr", "rx_snr", "rxSnr"]).bind Json.rounded?).bind saneSnr
    rxRssi := ((field? ms ["rssi", "rx_rssi", "rxRssi"]).bind Json.readInt32).bind saneRssi
    rxTime := (field? ms ["timestamp", "rx_time", "rxTime"]).bind Json.word?
    relayNode := ((field? ms ["relay_node", "relayNode"]).bind Json.word?).getD 0
    wantAck := ((field? ms ["want_ack", "wantAck"]).bind Json.asBool?).getD false
    body := body }

/-- Reads an envelope that is a JSON value. -/
def ofJson (topic : Topic) (j : Json) : Except DecodeFault Envelope :=
  match j.asObject? with
  | none => .error (.envelope .notAnObject)
  | some ms =>
    match ((field? ms ["from", "sender"]).bind Json.nodeId?).filter fun id => !id.isUnknown with
    | none => .error (.envelope .missingSender)
    | some sender => (objectBody ms).map (ofMembers topic ms sender)

/-- Reads a JSON envelope. -/
def ofObject (topic : Topic) (body : Bytes) : Except DecodeFault Envelope :=
  match Json.readBytes? body with
  | none => .error (.envelope (.syntactic .json))
  | some j => ofJson topic j

end MeshWatch.Envelope
