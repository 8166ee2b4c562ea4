import MeshWatch.Proofs.LinkRatios
import MeshWatch.Receiver

/-!
# What a decoded packet can hold

Whatever the bytes of a message are, the packet that is read from them holds no metric
that a working device does not report, no signal strength that a receiver cannot have
measured, no ratio that is not a number, and no relay hint of zero. There are two
encodings, and a body may come in the clear or encrypted, under the receiver's own key or
a public one. Each way has checks of its own, and they come to the same.

- `DeviceMetrics.plausible_sanitized`, `EnvironmentMetrics.plausible_sanitized`: what the
  metrics are that pass the checks.
- `Payload.plausible_ofBinary`, `Payload.plausible_ofObject`: the bodies of both
  encodings.
- `Envelope.decode_cases`, `Receiver.payloadOf_keeps`, `Receiver.exists_of_packetOf`: the ways
  in which a payload gets into a packet, and what holds on each of them.
- `Receiver.plausible_packetOf`: all packets.
-/

namespace MeshWatch

/-- What comes out of a change of a result was a result before. -/
theorem exists_of_map_ok {ε α β : Type} {f : α → β} {x : Except ε α} {b : β}
    (h : x.map f = .ok b) : ∃ a, x = .ok a ∧ f a = b := by
  cases x with
  | error e => cases h
  | ok a =>
    cases h
    exact ⟨a, rfl, rfl⟩

theorem ok_of_toOption {ε α : Type} {x : Except ε α} {a : α} (h : x.toOption = some a) :
    x = .ok a := by
  cases x with
  | error e => cases h
  | ok b =>
    cases h
    rfl

/-! ## Metrics -/

/-- Finite, and from 0 to 100. -/
def IsPercentage (x : Float32) : Prop := x.isFinite = true ∧ 0 ≤ x ∧ x ≤ 100

theorem isPercentage_iff (x : Float32) : isPercentage x = true ↔ IsPercentage x := by
  simp [isPercentage, IsPercentage, Ieee.inRange]

/-- No metric is out of its range; 101 is the level of an external supply. -/
structure DeviceMetrics.Plausible (m : DeviceMetrics) : Prop where
  batteryLevel : ∀ l ∈ m.batteryLevel, l ≤ 101
  voltage : ∀ v ∈ m.voltage, v.isFinite = true ∧ 0 ≤ v
  channelUtilization : ∀ u ∈ m.channelUtilization, IsPercentage u
  airUtilTx : ∀ u ∈ m.airUtilTx, IsPercentage u

/-- No reading is out of its range. -/
structure EnvironmentMetrics.Plausible (m : EnvironmentMetrics) : Prop where
  temperature : ∀ t ∈ m.temperature, t.isFinite = true
  relativeHumidity : ∀ h ∈ m.relativeHumidity, IsPercentage h
  barometricPressure : ∀ p ∈ m.barometricPressure, p.isFinite = true ∧ 0 < p
  gasResistance : ∀ r ∈ m.gasResistance, r.isFinite = true

theorem DeviceMetrics.plausible_sanitized (m : DeviceMetrics) : m.sanitized.Plausible := by
  constructor
  · intro l hl
    exact of_decide_eq_true (Option.mem_filter_iff.1 hl).2
  · intro v hv
    simpa using (Option.mem_filter_iff.1 hv).2
  · intro u hu
    exact (isPercentage_iff u).1 (Option.mem_filter_iff.1 hu).2
  · intro u hu
    exact (isPercentage_iff u).1 (Option.mem_filter_iff.1 hu).2

theorem EnvironmentMetrics.plausible_sanitized (m : EnvironmentMetrics) :
    m.sanitized.Plausible := by
  constructor
  · intro t ht
    exact (Option.mem_filter_iff.1 ht).2
  · intro h hh
    exact (isPercentage_iff h).1 (Option.mem_filter_iff.1 hh).2
  · intro p hp
    simpa using (Option.mem_filter_iff.1 hp).2
  · intro r hr
    exact (Option.mem_filter_iff.1 hr).2

/-- Both groups hold no value that is out of its range. -/
structure TelemetryReport.Plausible (r : TelemetryReport) : Prop where
  device : ∀ d ∈ r.device, d.Plausible
  environment : ∀ e ∈ r.environment, e.Plausible

theorem TelemetryReport.plausible_ofWire (m : Wire.Telemetry) : (ofWire m).Plausible := by
  unfold ofWire
  constructor
  · intro d hd
    split at hd
    · cases hd
      exact DeviceMetrics.plausible_sanitized _
    · cases hd
    · cases hd
  · intro e he
    split at he
    · cases he
    · cases he
      exact EnvironmentMetrics.plausible_sanitized _
    · cases he

theorem TelemetryReport.plausible_ofMembers (ms : Json.Members) : (ofMembers ms).Plausible := by
  constructor
  · intro d hd
    obtain ⟨d', -, rfl⟩ := Option.map_eq_some_iff.1 (Option.mem_filter_iff.1 hd).1
    exact DeviceMetrics.plausible_sanitized _
  · intro e he
    obtain ⟨e', -, rfl⟩ := Option.map_eq_some_iff.1 (Option.mem_filter_iff.1 he).1
    exact EnvironmentMetrics.plausible_sanitized _

/-! ## Bodies -/

/-- Ratios are transmitted as whole quarters. -/
theorem RouteDiscovery.isFinite_ofWire (m : Wire.RouteDiscovery) :
    ∀ x ∈ (ofWire m).snrTowards, x.isFinite = true := by
  intro x hx
  obtain ⟨n, -, rfl⟩ := List.mem_map.1 hx
  exact isFinite_quarterDecibels n

theorem RouteDiscovery.isFinite_ofMembers (ms : Json.Members) :
    ∀ x ∈ (ofMembers ms).snrTowards, x.isFinite = true := by
  intro x hx
  obtain ⟨j, -, hj⟩ := List.mem_filterMap.1 hx
  obtain ⟨n, -, rfl⟩ := Option.map_eq_some_iff.1 hj
  exact isFinite_quarterDecibels _

namespace Payload

/-- Only telemetry and the ratios along a route may be out of range. -/
def Plausible : Payload → Prop
  | telemetry r => r.Plausible
  | traceroute d => ∀ x ∈ d.snrTowards, x.isFinite = true
  | _ => True

theorem exists_of_ofWire_ok {α : Type} [Wire.Message α] {port : UInt32} {body : Bytes}
    {f : α → Payload} {p : Payload} (h : ofWire port body f = .ok p) : ∃ m, p = f m := by
  unfold ofWire at h
  split at h
  · next m _ =>
    cases h
    exact ⟨m, rfl⟩
  · cases h

theorem exists_of_ofText_ok {port : UInt32} {body : Bytes} {p : Payload}
    (h : ofText port body = .ok p) : ∃ t, p = .text t := by
  unfold ofText at h
  split at h
  · next t _ =>
    cases h
    exact ⟨t, rfl⟩
  · cases h

theorem plausible_ofBinary {port : UInt32} {body : Bytes} {requestId : UInt32} {p : Payload}
    (h : ofBinary port body requestId = .ok p) : p.Plausible := by
  unfold ofBinary at h
  split at h
  case h_1 =>
    obtain ⟨t, rfl⟩ := exists_of_ofText_ok h
    trivial
  case h_4 =>
    obtain ⟨m, rfl⟩ := exists_of_ofWire_ok h
    exact TelemetryReport.plausible_ofWire m
  case h_6 =>
    obtain ⟨m, rfl⟩ := exists_of_ofWire_ok h
    exact RouteDiscovery.isFinite_ofWire m
  case h_8 =>
    cases h
    trivial
  all_goals
    obtain ⟨m, rfl⟩ := exists_of_ofWire_ok h
    trivial

theorem plausible_ofMembers {port : UInt32} {whole : Json} {ms : Json.Members}
    {requestId : UInt32} {p : Payload} (h : ofMembers port whole ms requestId = .ok p) :
    p.Plausible := by
  unfold ofMembers at h
  split at h
  case h_1 =>
    split at h
    · cases h
      trivial
    · cases h
  case h_3 =>
    cases h
    exact TelemetryReport.plausible_ofMembers _
  case h_5 =>
    cases h
    exact RouteDiscovery.isFinite_ofMembers _
  all_goals
    cases h
    trivial

theorem plausible_ofFields {messageType : Option String} {whole : Json} {ms : Json.Members}
    {requestId : UInt32} {p : Payload} (h : ofFields messageType whole ms requestId = .ok p) :
    p.Plausible := by
  unfold ofFields at h
  split at h
  · exact plausible_ofMembers h
  · cases h
    trivial

theorem plausible_ofObject {messageType : Option String} {payload : Json} {requestId : UInt32}
    {p : Payload} (h : ofObject messageType payload requestId = .ok p) : p.Plausible := by
  unfold ofObject at h
  split at h
  · cases h
    trivial
  · exact plausible_ofFields h
  · exact plausible_ofFields h
  · cases h

end Payload

/-! ## Envelopes -/

/-- A strength in dBm that a receiver can have measured. -/
def IsStrength (r : Int32) : Prop := -200 ≤ r ∧ r ≤ -1

theorem isFinite_of_saneSnr {snr x : Float32} (h : saneSnr snr = some x) : x.isFinite = true := by
  unfold saneSnr at h
  split at h
  · next hfinite =>
    cases h
    exact hfinite
  · cases h

theorem isStrength_of_saneRssi {rssi r : Int32} (h : saneRssi rssi = some r) : IsStrength r := by
  obtain ⟨hlow, hhigh, h0⟩ := saneRssi_range h
  have h0' : r.toInt ≠ (0 : Int32).toInt := fun he => h0 (Int32.toInt_inj.1 he)
  rw [Int32.le_iff_toInt_le] at hhigh
  refine ⟨hlow, Int32.le_iff_toInt_le.2 ?_⟩
  have hz : (0 : Int32).toInt = 0 := rfl
  have hm : (-1 : Int32).toInt = -1 := rfl
  omega

namespace Envelope

/-- The header and a body that was read with it are within their ranges. -/
structure Plausible (e : Envelope) : Prop where
  rxSnr : ∀ x ∈ e.rxSnr, x.isFinite = true
  rxRssi : ∀ r ∈ e.rxRssi, IsStrength r
  body : ∀ p, e.body = .decoded p → p.Plausible

/-- A binary body still has to be read. -/
theorem wireBody_ne_decoded (body : Option Wire.PacketBody) (p : Payload) :
    wireBody body ≠ .decoded p := by
  unfold wireBody
  split
  · exact nofun
  · split
    · exact nofun
    · exact nofun
  · exact nofun

/-- The body of an object is one of the other format. -/
theorem exists_of_objectBody {ms : Json.Members} {p : Payload}
    (h : objectBody ms = .ok (.decoded p)) :
    ∃ messageType payload requestId, Payload.ofObject messageType payload requestId = .ok p := by
  unfold objectBody at h
  dsimp only at h
  split at h
  · cases h
  · cases h
  all_goals
    obtain ⟨q, hq, he⟩ := exists_of_map_ok h
    cases he
    exact ⟨_, _, _, hq⟩

/-- An envelope that is read as JSON has the members of an object and a sender. -/
theorem exists_of_ofObject {topic : Topic} {body : Bytes} {e : Envelope}
    (h : ofObject topic body = .ok e) :
    ∃ ms sender b, Json.readBytes? body = some (.object ms) ∧ sender ≠ .unknown ∧
      objectBody ms = .ok b ∧ e = ofMembers topic ms sender b := by
  unfold ofObject ofJson at h
  split at h
  · cases h
  · next j hj =>
    split at h
    · cases h
    · next ms hms =>
      split at h
      · cases h
      · next sender hsender =>
        obtain ⟨b, hb, rfl⟩ := exists_of_map_ok h
        have hobject : j = .object ms := by
          cases j with
          | object ms' => rw [Option.some.inj hms]
          | _ => cases hms
        have hknown := (Option.filter_eq_some_iff.1 hsender).2
        refine ⟨ms, sender, b, hobject ▸ hj, ?_, hb, rfl⟩
        rintro rfl
        cases hknown

/-- An envelope that is read as a wire message has a packet with a sender. -/
theorem exists_of_ofBinary {topic : Topic} {body : Bytes} {e : Envelope}
    (h : ofBinary topic body = .ok e) :
    ∃ message packet, e.sender ≠ .unknown ∧ e = ofPacket topic message packet := by
  unfold ofBinary at h
  split at h
  · cases h
  · next message _ =>
    split at h
    · cases h
    · next packet _ =>
      split at h
      · cases h
      · next hsender =>
        cases h
        exact ⟨message, packet, fun he => hsender (congrArg NodeId.value he), rfl⟩

theorem decode_cases {topic : Topic} {body : Bytes} {e : Envelope}
    (h : decode topic body = .ok e) :
    (topic.format body = .json ∧ ofObject topic body = .ok e) ∨
      (topic.format body = .binary ∧ ofBinary topic body = .ok e) := by
  unfold decode at h
  split at h
  · cases h
  · split at h
    · next hformat => exact Or.inl ⟨hformat, h⟩
    · next hformat => exact Or.inr ⟨hformat, h⟩

/-- A body that is read with its envelope is a JSON object. -/
theorem exists_of_decoded {topic : Topic} {body : Bytes} {e : Envelope} {p : Payload}
    (h : decode topic body = .ok e) (hp : e.body = .decoded p) :
    topic.format body = .json ∧
      ∃ messageType payload requestId, Payload.ofObject messageType payload requestId = .ok p := by
  rcases decode_cases h with ⟨hformat, he⟩ | ⟨-, he⟩
  · obtain ⟨ms, sender, b, -, -, hb, rfl⟩ := exists_of_ofObject he
    obtain rfl : b = .decoded p := hp
    exact ⟨hformat, exists_of_objectBody hb⟩
  · obtain ⟨message, packet, -, rfl⟩ := exists_of_ofBinary he
    exact absurd hp (wireBody_ne_decoded packet.body p)

theorem plausible_ofPacket (topic : Topic) (e : Wire.ServiceEnvelope) (p : Wire.MeshPacket) :
    (ofPacket topic e p).Plausible := by
  refine ⟨?_, fun r hr => isStrength_of_saneRssi hr, ?_⟩
  · intro x hx
    change wireSnr p.rxSnr.toFloat p.rxRssi = some x at hx
    unfold wireSnr at hx
    split at hx
    · cases hx
    · exact isFinite_of_saneSnr hx
  exact fun q hq => absurd hq (wireBody_ne_decoded p.body q)

theorem plausible_ofMembers {topic : Topic} {ms : Json.Members} {sender : NodeId}
    {body : EnvelopeBody} (h : ∀ p, body = .decoded p → p.Plausible) :
    (ofMembers topic ms sender body).Plausible := by
  refine ⟨?_, ?_, h⟩
  · intro x hx
    obtain ⟨raw, -, hraw⟩ := Option.bind_eq_some_iff.1 hx
    exact isFinite_of_saneSnr hraw
  · intro r hr
    obtain ⟨raw, -, hraw⟩ := Option.bind_eq_some_iff.1 hr
    exact isStrength_of_saneRssi hraw

theorem plausible_decode {topic : Topic} {body : Bytes} {e : Envelope}
    (h : decode topic body = .ok e) : e.Plausible := by
  rcases decode_cases h with ⟨-, he⟩ | ⟨-, he⟩
  · obtain ⟨ms, sender, b, -, -, hb, rfl⟩ := exists_of_ofObject he
    refine plausible_ofMembers ?_
    rintro p rfl
    obtain ⟨_, _, _, hp⟩ := exists_of_objectBody hb
    exact Payload.plausible_ofObject hp
  · obtain ⟨message, packet, -, rfl⟩ := exists_of_ofBinary he
    exact plausible_ofPacket topic message packet

end Envelope

/-! ## Packets -/

theorem Relay.ne_zero_of_ofRaw {raw : UInt32} {b : UInt8} (h : ofRaw raw = some (.lastByte b)) :
    b ≠ 0 := by
  unfold ofRaw at h
  split at h
  · cases h
  · next h0 =>
    split at h
    · next hle =>
      cases h
      intro hb
      apply h0
      have hn := congrArg UInt8.toNat hb
      have hle' : raw.toNat ≤ 255 := UInt32.le_iff_toNat_le.1 hle
      rw [UInt32.toNat_toUInt8] at hn
      apply UInt32.toNat_inj.1
      change raw.toNat % 2 ^ 8 = 0 at hn
      change raw.toNat = 0
      omega
    · cases h

/-- No part of the packet is out of its range. -/
structure Packet.Plausible (p : Packet) : Prop where
  rxSnr : ∀ x ∈ p.rxSnr, x.isFinite = true
  rxRssi : ∀ r ∈ p.rxRssi, IsStrength r
  relay : ∀ b, p.relay = some (.lastByte b) → b ≠ 0
  payload : p.payload.Plausible

namespace Receiver

variable {r : Receiver} {e : Envelope} {ciphertext : Bytes} {p : Payload}

section Keeps

variable {P : Payload → Prop}
  (hbinary : ∀ {port body requestId p}, Payload.ofBinary port body requestId = .ok p → P p)
include hbinary

theorem payloadUnder_keeps {k : ChannelKey} (h : payloadUnder k e ciphertext = .ok p) : P p := by
  unfold payloadUnder at h
  split at h
  · cases h
  · split at h
    · cases h
    · exact hbinary h

theorem tryKeys_keeps {keys : List ChannelKey} (h : tryKeys e ciphertext keys = some p) : P p := by
  obtain ⟨k, -, hk⟩ := List.exists_of_findSome?_eq_some h
  cases ho : payloadUnder k e ciphertext with
  | error fault =>
    rw [ho] at hk
    cases hk
  | ok q =>
    rw [ho] at hk
    cases hk
    exact payloadUnder_keeps hbinary ho

theorem decryptBody_keeps (hsealed : P .sealed) (h : r.decryptBody e ciphertext = .ok p) :
    P p := by
  unfold decryptBody at h
  split at h
  · cases h
    exact hsealed
  · split at h
    · cases h
      exact hsealed
    · split at h
      · exact payloadUnder_keeps hbinary h
      · next own _ _ _ =>
        cases h
        cases ht : tryKeys e ciphertext (otherPresets own) with
        | none => exact hsealed
        | some q => exact tryKeys_keeps hbinary ht

/-- A payload was read with its envelope, or is a binary one in the clear or encrypted, or
stays sealed. -/
theorem payloadOf_keeps (hsealed : P .sealed) (hdecoded : ∀ p, e.body = .decoded p → P p)
    (h : r.payloadOf e = .ok p) : P p := by
  unfold payloadOf at h
  split at h
  · next hb =>
    cases h
    exact hdecoded _ hb
  · exact hbinary h
  · exact decryptBody_keeps hbinary hsealed h
  · cases h
    exact hsealed

end Keeps

theorem plausible_payloadOf (he : e.Plausible) (h : r.payloadOf e = .ok p) : p.Plausible :=
  payloadOf_keeps Payload.plausible_ofBinary trivial he.body h

/-- A packet is made of the envelope of its message and of the payload in it. -/
theorem exists_of_packetOf {topic : String} {body : Bytes} {p : Packet}
    (h : r.packetOf topic body = .ok p) :
    ∃ t e payload, Topic.decode topic = .ok t ∧ Envelope.decode t body = .ok e ∧
      r.payloadOf e = .ok payload ∧ p = packetWith e payload := by
  unfold packetOf at h
  split at h
  · cases h
  · next t ht =>
    split at h
    · unfold packetOfBody at h
      split at h
      · cases h
      · next e he =>
        obtain ⟨payload, hpayload, rfl⟩ := exists_of_map_ok h
        exact ⟨t, e, payload, ht, he, hpayload, rfl⟩
    · cases h

/-- **Packets are plausible.** Whatever a broker message holds, the packet that is read
from it is within its ranges. -/
theorem plausible_packetOf {topic : String} {body : Bytes} {p : Packet}
    (h : (r.packetOf topic body).toOption = some p) : p.Plausible := by
  obtain ⟨t, e, payload, -, he, hpayload, rfl⟩ := exists_of_packetOf (ok_of_toOption h)
  have hplausible := Envelope.plausible_decode he
  exact
    { rxSnr := hplausible.rxSnr
      rxRssi := hplausible.rxRssi
      relay := fun _ hb => Relay.ne_zero_of_ofRaw hb
      payload := plausible_payloadOf hplausible hpayload }

end Receiver

end MeshWatch
