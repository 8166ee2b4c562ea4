import MeshWatch.Proofs.WireRoundTrip
import MeshWatch.Receiver

/-!
# Encrypted packets

A packet that travels encrypted is read by whoever holds the key of its channel as if it
had travelled in the clear. To everybody else it is never a fault: a public channel opens
it, or it stays sealed.

- `packetOfBody_sealed`: both forms of a packet are read alike.
- `packetOfBody_foreign`: a packet of another channel.
- `encrypted_path_agrees`: both, for any secret.
-/

namespace MeshWatch

open Wire (MeshPacket PacketBody ServiceEnvelope)
open Wire.Message (encode)

/-! ## Envelopes with one body or another -/

namespace Wire

/-- The envelope of a packet with a body. -/
def ServiceEnvelope.carrying (p : MeshPacket) (b : PacketBody) (channelId gatewayId : String) :
    ServiceEnvelope :=
  { packet := some { p with body := some b }, channelId := channelId, gatewayId := gatewayId }

theorem length_write_bytes (k : Nat) {bs bs' : Bytes} (h : bs.length = bs'.length) :
    (Field.write ⟨k, .bytes bs⟩).length = (Field.write ⟨k, .bytes bs'⟩).length := by
  simp only [Field.write, FieldValue.write, FieldValue.shape, List.length_append, h]

/-- Data and a ciphertext of the same length take the same room. -/
theorem length_write_sealed (d : Data) {ciphertext : Bytes}
    (h : ciphertext.length = (encode d).length) :
    (PacketBody.encrypted ciphertext).field.write.length
      = (PacketBody.decoded d).field.write.length := by
  have hkeys : (Varint.write (UInt64.ofNat (5 * 8 + 2))).length
      = (Varint.write (UInt64.ofNat (4 * 8 + 2))).length := by decide
  simp only [PacketBody.field, Field.message, Field.write, FieldValue.write, FieldValue.shape,
    List.length_append, h, hkeys]

theorem length_encode_carrying (p : MeshPacket) {b b' : PacketBody} (channelId gatewayId : String)
    (h : b.field.write.length = b'.field.write.length) :
    (encode (ServiceEnvelope.carrying p b channelId gatewayId)).length
      = (encode (ServiceEnvelope.carrying p b' channelId gatewayId)).length := by
  have hpacket : (encode { p with body := some b }).length
      = (encode { p with body := some b' }).length := by
    simp only [encode, Message.fields, writeFields, List.flatMap_append, List.length_append,
      Option.map_some, Option.toList_some, List.flatMap_singleton, h]
  have hbytes : ∀ b : PacketBody,
      (encode (ServiceEnvelope.carrying p b channelId gatewayId)).length
        = (Field.write ⟨1, .bytes (encode { p with body := some b })⟩).length
          + (writeFields (Field.text 2 channelId)).length
          + (writeFields (Field.text 3 gatewayId)).length := by
    intro b
    have hfields : Message.fields (ServiceEnvelope.carrying p b channelId gatewayId)
        = [⟨1, .bytes (encode { p with body := some b })⟩] ++ Field.text 2 channelId
          ++ Field.text 3 gatewayId := rfl
    rw [encode, hfields]
    simp only [writeFields, List.flatMap_append, List.flatMap_singleton, List.length_append]
  rw [hbytes, hbytes, length_write_bytes 1 hpacket]

theorem length_data_le (p : MeshPacket) (d : Data) (channelId gatewayId : String) :
    (encode d).length
      ≤ (encode (ServiceEnvelope.carrying p (.decoded d) channelId gatewayId)).length := by
  have hinner : Field.message 4 d ∈ Message.fields { p with body := some (.decoded d) } := by
    simp [Message.fields, PacketBody.field]
  have houter : Field.message 1 { p with body := some (.decoded d) }
      ∈ Message.fields (ServiceEnvelope.carrying p (.decoded d) channelId gatewayId) := by
    simp [Message.fields, ServiceEnvelope.carrying]
  exact Nat.le_trans (Message.length_le_encode hinner) (Message.length_le_encode houter)

end Wire

namespace Receiver

open Wire (Data)

variable {r : Receiver} {t : Topic} {p : MeshPacket} {b : PacketBody} {channelId gatewayId : String}

theorem decode_carrying (hsender : p.sender ≠ 0)
    (hlen : (encode (ServiceEnvelope.carrying p b channelId gatewayId)).length < UInt64.size)
    (hformat : t.format (encode (ServiceEnvelope.carrying p b channelId gatewayId)) = .binary) :
    Envelope.decode t (encode (ServiceEnvelope.carrying p b channelId gatewayId))
      = .ok (Envelope.ofPacket t (ServiceEnvelope.carrying p b channelId gatewayId)
          { p with body := some b }.settled) := by
  have hread := Wire.ServiceEnvelope.decode_encode _ hlen
  have hne : (encode (ServiceEnvelope.carrying p b channelId gatewayId)).isEmpty = false := by
    cases hbytes : encode (ServiceEnvelope.carrying p b channelId gatewayId) with
    | nil =>
      rw [hbytes] at hread
      cases hread
    | cons => rfl
  simp only [Envelope.decode, hne, hformat, Bool.false_eq_true, if_false, Envelope.ofBinary, hread]
  exact if_neg hsender

theorem encode_ne_nil {d : Data} (hport : 0 < d.portnum) (hlen : (encode d).length < UInt64.size) :
    encode d ≠ [] := by
  intro hnil
  have hread := d.merge_encode 0 hlen
  rw [hnil] at hread
  cases hread
  exact absurd hport (by decide)

/-- What a key makes of data that was encrypted under it. -/
theorem payloadUnder_encrypt (k : ChannelKey) (e : Envelope) (d : Data) (hport : 0 < d.portnum)
    (hlen : (encode d).length < UInt64.size) :
    payloadUnder k e (k.encrypt e.packetId e.sender (encode d))
      = Payload.ofBinary (clampedWord d.portnum) d.payload d.requestId := by
  have hplain : PortData.ofPlaintext (encode d)
      = .ok ⟨clampedWord d.portnum, d.payload, d.requestId⟩ := by
    have hread : (Wire.Message.decode? (encode d) : Option Data) = some d :=
      d.merge_encode Wire.Message.groupRoom hlen
    rw [PortData.ofPlaintext, hread]
    exact if_neg (Int32.not_le.2 hport)
  rw [payloadUnder, k.decrypt_encrypt _ _ _ (encode_ne_nil hport hlen)]
  dsimp only
  rw [hplain]

/-- The envelopes of a packet with one body or another differ in their bodies. -/
theorem ofPacket_carrying (t : Topic) (p : MeshPacket) (b b' : PacketBody)
    (channelId gatewayId : String) :
    Envelope.ofPacket t (ServiceEnvelope.carrying p b' channelId gatewayId)
        { p with body := some b' }.settled
      = { Envelope.ofPacket t (ServiceEnvelope.carrying p b channelId gatewayId)
            { p with body := some b }.settled with
          body := Envelope.wireBody (some b') } := rfl

theorem packetOfEnvelope_encrypted {k : ChannelKey} (hkey : r.key = some k)
    (hcan : r.capabilities.canDecrypt = true) {e : Envelope} (hmarked : isMarkedFor e k = true)
    {d : Data} (hbody : e.body = .data (clampedWord d.portnum) d.payload d.requestId)
    (hport : 0 < d.portnum) (hlen : (encode d).length < UInt64.size) {ciphertext : Bytes}
    (hc : ciphertext = k.encrypt e.packetId e.sender (encode d)) :
    r.packetOfEnvelope { e with body := .encrypted ciphertext }
      = (r.packetOfEnvelope e).map fun q => { q with encrypted := true } := by
  have hmarked' : isMarkedFor { e with body := .encrypted ciphertext } k = true := hmarked
  have hread : payloadUnder k { e with body := .encrypted ciphertext } ciphertext
      = Payload.ofBinary (clampedWord d.portnum) d.payload d.requestId := by
    rw [hc]
    exact payloadUnder_encrypt k { e with body := _ } d hport hlen
  have hsealed : r.payloadOf { e with body := .encrypted ciphertext } = r.payloadOf e := by
    simp only [payloadOf, hbody, decryptBody, hkey, hcan, hmarked', Bool.not_true,
      Bool.false_eq_true, if_false, if_true, hread]
  rw [packetOfEnvelope, packetOfEnvelope, hsealed]
  cases r.payloadOf e <;> rfl

/-- **Both forms** of a packet of the receiver's own channel are read alike. -/
theorem packetOfBody_sealed {k : ChannelKey} (hkey : r.key = some k)
    (hcan : r.capabilities.canDecrypt = true) (hsender : p.sender ≠ 0)
    (hchannel : p.channel = k.hash.toUInt32) {d : Data} (hport : 0 < d.portnum)
    {plain sealed : ServiceEnvelope}
    (hplain : plain = .carrying p (.decoded d) channelId gatewayId)
    (hsealed : sealed =
      .carrying p (.encrypted (k.encrypt p.id ⟨p.sender⟩ (encode d))) channelId gatewayId)
    (hlen : (encode plain).length < UInt64.size)
    (hbinary : t.format (encode plain) = .binary) (hbinary' : t.format (encode sealed) = .binary) :
    r.packetOfBody t (encode sealed)
      = (r.packetOfBody t (encode plain)).map fun q => { q with encrypted := true } := by
  obtain ⟨ciphertext, hc⟩ : ∃ c, c = k.encrypt p.id ⟨p.sender⟩ (encode d) := ⟨_, rfl⟩
  have hsize : ciphertext.length = (encode d).length := hc ▸ Keystream.length_crypt ..
  rw [← hc] at hsealed
  subst hplain hsealed
  have hlen' := Wire.length_encode_carrying p channelId gatewayId (Wire.length_write_sealed d hsize)
  have hdata : (encode d).length < UInt64.size :=
    Nat.lt_of_le_of_lt (Wire.length_data_le p d channelId gatewayId) hlen
  have hbody : Envelope.wireBody (some (.encrypted ciphertext)) = .encrypted ciphertext := by
    have hne : ciphertext.isEmpty = false := by
      rw [List.isEmpty_eq_false_iff, ← List.length_pos_iff, hsize, List.length_pos_iff]
      exact encode_ne_nil hport hdata
    rw [Envelope.wireBody, hne]
    rfl
  unfold packetOfBody
  rw [decode_carrying hsender hlen hbinary,
    decode_carrying hsender (Nat.lt_of_le_of_lt (Nat.le_of_eq hlen') hlen) hbinary',
    ofPacket_carrying t p (.decoded d), hbody]
  generalize he : Envelope.ofPacket t (ServiceEnvelope.carrying p (.decoded d) channelId gatewayId)
    { p with body := some (.decoded d) }.settled = e
  have hid : e.packetId = p.id := by rw [← he]; rfl
  have hfrom : e.sender = ⟨p.sender⟩ := by rw [← he]; rfl
  have hindex : e.channelIndex = p.channel := by rw [← he]; rfl
  have hclear : e.body = .data (clampedWord d.portnum) d.payload d.requestId := by rw [← he]; rfl
  have hmarked : isMarkedFor e k = true := by
    rw [isMarkedFor, hindex, hchannel]
    exact beq_self_eq_true _
  rw [← hid, ← hfrom] at hc
  exact packetOfEnvelope_encrypted hkey hcan hmarked hclear hport hdata hc

/-! ## Packets of other channels -/

theorem tryKeys_some {e : Envelope} {ciphertext : Bytes} {keys : List ChannelKey}
    {payload : Payload} (h : tryKeys e ciphertext keys = some payload) :
    ∃ k ∈ keys, isMarkedFor e k = true ∧ payloadUnder k e ciphertext = .ok payload := by
  obtain ⟨k, hk, hopen⟩ := List.exists_of_findSome?_eq_some h
  obtain ⟨hmem, hmarked⟩ := List.mem_filter.1 hk
  refine ⟨k, hmem, hmarked, ?_⟩
  cases hp : payloadUnder k e ciphertext with
  | error fault =>
    rw [hp] at hopen
    cases hopen
  | ok x =>
    rw [hp] at hopen
    cases hopen
    rfl

/-- **A foreign packet** is no fault, whatever its ciphertext: a public channel that it may
belong to opens it, or it stays sealed. -/
theorem packetOfBody_foreign {own : ChannelKey} (hkey : r.key = some own)
    (hcan : r.capabilities.canDecrypt = true) {body ciphertext : Bytes} {e : Envelope}
    (he : Envelope.decode t body = .ok e) (hbody : e.body = .encrypted ciphertext)
    (hforeign : e.channelIndex ≠ own.hash.toUInt32) :
    ∃ payload, r.packetOfBody t body = .ok (packetWith e payload) ∧
      (payload = .sealed ∨
        ∃ k ∈ ChannelKey.presets, isMarkedFor e k = true ∧
          payloadUnder k e ciphertext = .ok payload) := by
  have hmarked : isMarkedFor e own = false := beq_eq_false_iff_ne.2 hforeign
  have hpayload : r.payloadOf e = .ok ((tryKeys e ciphertext (otherPresets own)).getD .sealed) := by
    simp only [payloadOf, hbody, decryptBody, hkey, hcan, hmarked, Bool.not_true,
      Bool.false_eq_true, if_false]
  refine ⟨(tryKeys e ciphertext (otherPresets own)).getD .sealed, ?_, ?_⟩
  · rw [packetOfBody, he]
    dsimp only
    rw [packetOfEnvelope, hpayload]
    rfl
  · cases ht : tryKeys e ciphertext (otherPresets own) with
    | none => exact Or.inl rfl
    | some payload =>
      obtain ⟨k, hk, hm, hp⟩ := tryKeys_some ht
      exact Or.inr ⟨k, (List.mem_filter.1 hk).1, hm, hp⟩

end Receiver

/-! ## Any secret -/

theorem ChannelKey.ofSecret_ok (name : String) {secret : Bytes} (h : secret ≠ []) :
    ∃ k, ofSecret name secret = .ok k := by
  have hlen : secret.length ≠ 0 := fun hl => h (List.length_eq_zero_iff.1 hl)
  unfold ofSecret stretch
  rw [if_neg hlen]
  split
  · exact ⟨_, rfl⟩
  · split
    · exact ⟨_, rfl⟩
    · exact ⟨_, rfl⟩

/-- **The encrypted path agrees with the plain one.** Every secret that is not empty makes a
key. Whoever holds it reads a packet that was encrypted with it as if its data had come in
the clear, payload and fault alike; only the mark that it was encrypted differs. What was
encrypted under the key decrypts under it, and a packet with another channel number is no
fault, whatever its ciphertext: it stays sealed, or has the payload that the key of a public
channel with its number gives. -/
theorem encrypted_path_agrees (name : String) {secret : Bytes} (hsecret : secret ≠ []) :
    ∃ k, ChannelKey.ofSecret name secret = .ok k ∧
    (∀ (capabilities : Capabilities) (t : Topic) (p : MeshPacket) (d : Wire.Data)
        (channelId gatewayId : String),
      let header := { p with channel := k.hash.toUInt32 }
      let ciphertext := k.encrypt p.id ⟨p.sender⟩ (encode d)
      let plain := encode (ServiceEnvelope.carrying header (.decoded d) channelId gatewayId)
      let sealed := encode (ServiceEnvelope.carrying header (.encrypted ciphertext) channelId gatewayId)
      let r : Receiver := { key := some k, capabilities }
      capabilities.canDecrypt = true → p.sender ≠ 0 → 0 < d.portnum →
      plain.length < UInt64.size → t.format plain = .binary → t.format sealed = .binary →
        r.packetOfBody t sealed
          = (r.packetOfBody t plain).map fun q => { q with encrypted := true }) ∧
    (∀ packetId sender message, message ≠ [] →
      k.decrypt packetId sender (k.encrypt packetId sender message) = .ok message) ∧
    (∀ (capabilities : Capabilities) (t : Topic) (body ciphertext : Bytes) (e : Envelope),
      let r : Receiver := { key := some k, capabilities }
      capabilities.canDecrypt = true → Envelope.decode t body = .ok e →
      e.body = .encrypted ciphertext → e.channelIndex ≠ k.hash.toUInt32 →
        ∃ payload, r.packetOfBody t body = .ok (Receiver.packetWith e payload) ∧
          (payload = .sealed ∨
            ∃ preset ∈ ChannelKey.presets, Receiver.isMarkedFor e preset = true ∧
              Receiver.payloadUnder preset e ciphertext = .ok payload)) := by
  obtain ⟨k, hk⟩ := ChannelKey.ofSecret_ok name hsecret
  refine ⟨k, hk, ?_, ?_, ?_⟩
  · intro capabilities t p d channelId gatewayId header ciphertext plain sealed r hcan hsender hport
      hlen hbinary hbinary'
    have hheader : header.sender ≠ 0 := hsender
    exact Receiver.packetOfBody_sealed rfl hcan hheader rfl hport rfl rfl hlen hbinary hbinary'
  · exact fun packetId sender message h => k.decrypt_encrypt packetId sender message h
  · intro capabilities t body ciphertext e r hcan he hbody hforeign
    exact Receiver.packetOfBody_foreign rfl hcan he hbody hforeign

/-- A greeting on a public channel is read alike in both forms, and so is a text that is not
UTF-8. -/
theorem greeting_agrees :
    ∃ k, ChannelKey.ofSecret "LongFast" ChannelKey.defaultSecret = .ok k ∧
    ∀ text ∈ ([[0x48, 0x69], [0xff]] : List Bytes),
      let t : Topic := ⟨"msh", none, .protobuf, some "LongFast", none, []⟩
      let header : MeshPacket :=
        { sender := 0x1001, recipient := 0xffffffff, id := 7, channel := k.hash.toUInt32 }
      let d : Wire.Data := { portnum := 1, payload := text }
      let ciphertext := k.encrypt 7 ⟨0x1001⟩ (encode d)
      let plain := encode (ServiceEnvelope.carrying header (.decoded d) "LongFast" "!00001001")
      let sealed := encode (ServiceEnvelope.carrying header (.encrypted ciphertext) "LongFast"
        "!00001001")
      let r : Receiver := { key := some k }
      r.packetOfBody t sealed
        = (r.packetOfBody t plain).map fun q => { q with encrypted := true } := by
  obtain ⟨k, hk, hagrees, -⟩ :=
    @encrypted_path_agrees "LongFast" ChannelKey.defaultSecret (by decide)
  have hhash : k.hash = 8 := by
    cases hk
    decide +kernel
  have hlen : ∀ text ∈ ([[0x48, 0x69], [0xff]] : List Bytes),
      (encode (ServiceEnvelope.carrying
        { sender := 0x1001, recipient := 0xffffffff, id := 7, channel := (8 : UInt8).toUInt32 }
        (.decoded { portnum := 1, payload := text }) "LongFast" "!00001001")).length
        < UInt64.size := by decide +kernel
  rw [← hhash] at hlen
  refine ⟨k, hk, fun text htext => ?_⟩
  exact hagrees {} _ { sender := 0x1001, recipient := 0xffffffff, id := 7 }
    { portnum := 1, payload := text } "LongFast" "!00001001" rfl (by decide)
    (by decide : (0 : Int32) < 1) (hlen text htext) rfl rfl

end MeshWatch
