import MeshWatch.Packet
import MeshWatch.Topic

/-!
# Envelopes

What a broker message holds once its encoding was read, in the same form for both
encodings: the header of a packet, and a body that is typed already, or still has
a port, or is a ciphertext, or is missing.

Gateways report signal strengths and ratios that cannot have been measured; such
values are absent here.

- `saneRssi_range`: a strength that is kept lies between −200 and −1 dBm.
-/

namespace MeshWatch

/-- The body of an envelope. -/
inductive EnvelopeBody where
  | decoded (payload : Payload)
  | data (port : UInt32) (payload : Bytes) (requestId : UInt32)
  | encrypted (ciphertext : Bytes)
  | empty
deriving DecidableEq

/-- The header and body of a packet. -/
structure Envelope where
  packetId : UInt32
  sender : NodeId
  recipient : NodeId
  channelName : String
  channelIndex : UInt32
  gateway : Option NodeId
  hopLimit : UInt8
  hopStart : UInt8
  rxSnr : Option Float32
  rxRssi : Option Int32
  rxTime : Option UInt32
  relayNode : UInt32
  wantAck : Bool
  body : EnvelopeBody
deriving DecidableEq

/-- A ratio that is a number. -/
def saneSnr (snr : Float32) : Option Float32 := if snr.isFinite then some snr else none

/-- A strength that a receiver can have measured; zero means that it was not. -/
def saneRssi (rssi : Int32) : Option Int32 :=
  if rssi ≠ 0 ∧ -200 ≤ rssi ∧ rssi ≤ 0 then some rssi else none

theorem saneRssi_range {rssi r : Int32} (h : saneRssi rssi = some r) :
    -200 ≤ r ∧ r ≤ 0 ∧ r ≠ 0 := by
  unfold saneRssi at h
  split at h
  · next hr => cases h; exact ⟨hr.2.1, hr.2.2, hr.1⟩
  · cases h

/-- A hop count cut off at the greatest of one byte. -/
def clampedByte (n : UInt32) : UInt8 := if n ≤ 255 then n.toUInt8 else 255

end MeshWatch
