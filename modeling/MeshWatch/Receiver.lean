import MeshWatch.Cipher.ChannelKey
import MeshWatch.Envelope.Decode
import MeshWatch.Payload.Binary

/-!
# Reading broker messages

From a topic and a body to a packet: the topic is read, then the envelope, then its
body, decrypted where that can be done. An encrypted packet carries the hash of its
channel in place of an index. When that is the hash of the receiver's own channel,
whatever goes wrong is a fault; otherwise the public channels of that hash are tried,
and a body that none of them opens stays sealed.

- `payloadOf_keyless`: without a key every ciphertext stays sealed.
- `packetOf_error_of_topic`: a topic that cannot be read is reported before the body.
-/

namespace MeshWatch

/-- Which parts of decoding are at hand. -/
structure Capabilities where
  crypto : Bool := true
  payloadDecode : Bool := true
deriving DecidableEq, Repr, Inhabited

/-- Whether a ciphertext can become a payload. -/
def Capabilities.canDecrypt (c : Capabilities) : Bool := c.crypto && c.payloadDecode

/-- What a receiver reads with. -/
structure Receiver where
  /-- The key of its own channel, unless that is not encrypted. -/
  key : Option ChannelKey := none
  capabilities : Capabilities := {}
deriving DecidableEq, Inhabited

namespace Receiver

/-- The payload of a ciphertext under a key. -/
def payloadUnder (k : ChannelKey) (e : Envelope) (ciphertext : Bytes) : Except DecodeFault Payload :=
  match k.decrypt e.packetId e.sender ciphertext with
  | .error fault => .error (.ofCrypto fault)
  | .ok plaintext =>
    match PortData.ofPlaintext plaintext with
    | .error fault => .error fault
    | .ok d => Payload.ofBinary d.port d.payload d.requestId

/-- Whether a packet says that it belongs to the channel of a key. -/
def isMarkedFor (e : Envelope) (k : ChannelKey) : Bool := e.channelIndex == k.hash.toUInt32

/-- The first payload that a key for the packet's channel gives. -/
def tryKeys (e : Envelope) (ciphertext : Bytes) (keys : List ChannelKey) : Option Payload :=
  (keys.filter fun k => isMarkedFor e k).findSome? fun k => (payloadUnder k e ciphertext).toOption

/-- The public channels whose hash is not that of a key. -/
def otherPresets (own : ChannelKey) : List ChannelKey :=
  ChannelKey.presets.filter fun k => k.hash != own.hash

/-- The payload of a ciphertext. -/
def decryptBody (r : Receiver) (e : Envelope) (ciphertext : Bytes) : Except DecodeFault Payload :=
  match r.key with
  | none => .ok .sealed
  | some own =>
    if !r.capabilities.canDecrypt then .ok .sealed
    else if isMarkedFor e own then payloadUnder own e ciphertext
    else .ok ((tryKeys e ciphertext (otherPresets own)).getD .sealed)

/-- The payload of an envelope. -/
def payloadOf (r : Receiver) (e : Envelope) : Except DecodeFault Payload :=
  match e.body with
  | .decoded payload => .ok payload
  | .data port payload requestId => Payload.ofBinary port payload requestId
  | .encrypted ciphertext => r.decryptBody e ciphertext
  | .empty => .ok .sealed

theorem payloadOf_keyless {r : Receiver} {e : Envelope} {ciphertext : Bytes}
    (hk : r.key = none) (he : e.body = .encrypted ciphertext) : r.payloadOf e = .ok .sealed := by
  simp [payloadOf, he, decryptBody, hk]

/-- A body that is a ciphertext. -/
def isEncrypted : EnvelopeBody → Bool
  | .encrypted _ => true
  | _ => false

/-- The packet of an envelope and its payload. -/
def packetWith (e : Envelope) (payload : Payload) : Packet :=
  { packetId := e.packetId
    sender := e.sender
    recipient := e.recipient
    gateway := e.gateway
    channelName := e.channelName
    channelIndex := e.channelIndex
    hopLimit := e.hopLimit
    hopStart := e.hopStart
    rxSnr := e.rxSnr
    rxRssi := e.rxRssi
    rxTime := e.rxTime
    relay := Relay.ofRaw e.relayNode
    wantAck := e.wantAck
    encrypted := isEncrypted e.body
    payload := payload }

/-- The packet of an envelope. -/
def packetOfEnvelope (r : Receiver) (e : Envelope) : Except DecodeFault Packet :=
  (r.payloadOf e).map (packetWith e)

/-- The packet of a body published on a topic that was read. -/
def packetOfBody (r : Receiver) (t : Topic) (body : Bytes) : Except DecodeFault Packet :=
  match Envelope.decode t body with
  | .error fault => .error fault
  | .ok e => r.packetOfEnvelope e

/-- The packet of a broker message; topics that carry none are refused. -/
def packetOf (r : Receiver) (topic : String) (body : Bytes) : Except DecodeFault Packet :=
  match Topic.decode topic with
  | .error fault => .error fault
  | .ok t => if t.carriesPackets then r.packetOfBody t body else .error (.topic topic .noPackets)

theorem packetOf_error_of_topic {topic : String} {fault : DecodeFault}
    (h : Topic.decode topic = .error fault) (r : Receiver) (body : Bytes) :
    r.packetOf topic body = .error fault := by simp [packetOf, h]

end Receiver

end MeshWatch
