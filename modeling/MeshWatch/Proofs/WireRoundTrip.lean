import Mathlib.Data.List.Basic
import MeshWatch.Wire.Schema

/-!
# Messages are read back

What is written as a wire message is read back from it, as long as no part is longer than
a length on the wire can say. The wire does not tell the two zeros of a float without
presence apart, so a negative one comes back as the other.

- `readFields?_writeFields`: well-formed fields are read back, whatever message they are of.
- `merge_unless`: a field that is left out when it has its default is read back too.
- `Data.merge_encode`, `MeshPacket.merge_encode`, `ServiceEnvelope.decode_encode`: the
  messages that carry a packet.
-/

namespace MeshWatch

/-! ## Numbers -/

namespace Bytes

/-- The bits of one byte of a word, where they stand in the word. -/
theorem getLsbD_byte (w : BitVec 32) {k i : Nat} (hi : i < 32) :
    (((w >>> k).setWidth 8).setWidth 32 <<< k).getLsbD i
      = (decide (k ≤ i ∧ i < k + 8) && w.getLsbD i) := by
  simp only [BitVec.getLsbD_shiftLeft, BitVec.getLsbD_setWidth, BitVec.getLsbD_ushiftRight, hi,
    decide_true, Bool.true_and]
  by_cases hk : k ≤ i
  · have hback : k + (i - k) = i := by omega
    have hlt : i - k < 32 := by omega
    have hbyte : i - k < 8 ↔ i < k + 8 := by omega
    simp [hk, hlt, hback, hbyte]
  · simp [hk, Nat.lt_of_not_le hk]

theorem word32_ofWord32 (w : UInt32) :
    word32 w.toUInt8 (w >>> 8).toUInt8 (w >>> 16).toUInt8 (w >>> 24).toUInt8 = w := by
  apply UInt32.eq_of_toBitVec_eq
  apply BitVec.eq_of_getLsbD_eq
  intro i hi
  have h0 := getLsbD_byte w.toBitVec (k := 0) hi
  have h8 := getLsbD_byte w.toBitVec (k := 8) hi
  have h16 := getLsbD_byte w.toBitVec (k := 16) hi
  have h24 := getLsbD_byte w.toBitVec (k := 24) hi
  rw [BitVec.ushiftRight_zero, BitVec.shiftLeft_zero] at h0
  show (((_ ||| _) ||| _) ||| _ : BitVec 32).getLsbD i = _
  rw [BitVec.getLsbD_or, BitVec.getLsbD_or, BitVec.getLsbD_or]
  show (BitVec.getLsbD ((w.toBitVec.setWidth 8).setWidth 32) i
    || BitVec.getLsbD (((w.toBitVec >>> 8).setWidth 8).setWidth 32 <<< 8) i
    || BitVec.getLsbD (((w.toBitVec >>> 16).setWidth 8).setWidth 32 <<< 16) i
    || BitVec.getLsbD (((w.toBitVec >>> 24).setWidth 8).setWidth 32 <<< 24) i) = _
  rw [h0, h8, h16, h24]
  -- every place of the word is in exactly one of its bytes
  have hplace : i < 8 ∨ (8 ≤ i ∧ i < 16) ∨ (16 ≤ i ∧ i < 24) ∨ (24 ≤ i ∧ i < 32) := by omega
  cases w.toBitVec.getLsbD i with
  | false => simp
  | true => simp; omega

theorem toText?_ofText (s : String) : toText? (ofText s) = some s := by
  have hs : ByteArray.IsValidUTF8 ⟨s.toByteArray.data.toList.toArray⟩ := s.isValidUTF8
  rw [toText?, ofText, String.fromUTF8?, dif_pos hs]
  rfl

end Bytes

namespace Wire

theorem toInt32_ofInt32 (n : Int32) : toInt32 (ofInt32 n) = n := by
  apply Int32.toBitVec_inj.1
  show BitVec.setWidth 32 (BitVec.signExtend 64 n.toBitVec) = n.toBitVec
  apply BitVec.eq_of_getLsbD_eq
  intro i hi
  have hwide : i < 64 := by omega
  rw [BitVec.getLsbD_setWidth, BitVec.getLsbD_signExtend]
  simp [hi, hwide]

/-! ## Fields -/

/-- What can be written: a number that a key can hold, and no group. -/
structure Field.WellFormed (f : Field) : Prop where
  number_pos : 0 < f.number
  number_lt : f.number * 8 + 5 < UInt32.size
  value : match f.value with
    | .fixed64 bs => bs.length = 8
    | .group => False
    | _ => True

theorem Field.wellFormed_of {k : Nat} {v : FieldValue} (hk : 0 < k ∧ k * 8 + 5 < UInt32.size)
    (hv : match v with
      | .fixed64 bs => bs.length = 8
      | .group => False
      | _ => True) : Field.WellFormed ⟨k, v⟩ := ⟨hk.1, hk.2, hv⟩

theorem takeBytes?_append (bs rest : Bytes) :
    takeBytes? bs.length (bs ++ rest) = some (bs, rest) := by
  rw [takeBytes?, if_pos (by simp), List.take_left, List.drop_left]

theorem FieldValue.shape_le (v : FieldValue) : v.shape ≤ 5 := by
  cases v with
  | varint | fixed64 | bytes | group | fixed32 => simp [FieldValue.shape]

theorem readKey?_write {number : Nat} {v : FieldValue} (hpos : 0 < number)
    (hlt : number * 8 + 5 < UInt32.size) (rest : Bytes) :
    readKey? (Varint.write (UInt64.ofNat (number * 8 + v.shape)) ++ rest)
      = some (number, v.shape, rest) := by
  have hs := v.shape_le
  have hsize : UInt32.size = 4294967296 := rfl
  have hkey : (UInt64.ofNat (number * 8 + v.shape)).toNat = number * 8 + v.shape := by
    rw [UInt64.toNat_ofNat']
    omega
  have hnumber : (number * 8 + v.shape) / 8 = number := by omega
  have hshape : (number * 8 + v.shape) % 8 = v.shape := by omega
  rw [readKey?, Varint.read?_write]
  dsimp only
  rw [hkey, if_pos (by omega), hnumber, hshape]

theorem readValue?_write {f : Field} (h : f.WellFormed)
    (hlen : f.value.write.length < UInt64.size) (fuel room : Nat) (rest : Bytes) :
    readValue? fuel room f.number f.value.shape (f.value.write ++ rest)
      = some (f.value, rest) := by
  obtain ⟨number, v⟩ := f
  have hv := h.value
  cases v with
  | varint n =>
    simp only [FieldValue.shape, FieldValue.write, readValue?, Varint.read?_write]
    rfl
  | fixed64 bs =>
    simp only [FieldValue.shape, FieldValue.write, readValue?]
    have hlen : bs.length = 8 := hv
    rw [← hlen, takeBytes?_append]
    rfl
  | bytes bs =>
    have hle : bs.length ≤ (FieldValue.bytes bs).write.length := by
      simp [FieldValue.write]
    have hlen : (UInt64.ofNat bs.length).toNat = bs.length :=
      UInt64.toNat_ofNat_of_lt' (Nat.lt_of_le_of_lt hle hlen)
    simp only [FieldValue.shape, FieldValue.write, readValue?, List.append_assoc,
      Varint.read?_write, hlen, takeBytes?_append]
    rfl
  | group => exact hv.elim
  | fixed32 w =>
    simp only [FieldValue.shape, FieldValue.write, readValue?]
    have htake : takeBytes? 4 (Bytes.ofWord32 w ++ rest) = some (Bytes.ofWord32 w, rest) :=
      takeBytes?_append (Bytes.ofWord32 w) rest
    rw [htake]
    show some (FieldValue.fixed32 (wordOf (Bytes.ofWord32 w)), rest) = _
    rw [Bytes.ofWord32, wordOf, Bytes.word32_ofWord32]

theorem Varint.write_ne_nil (n : UInt64) : Varint.write n ≠ [] := by
  intro h
  unfold Varint.write Varint.writeIn at h
  split at h
  · cases h
  · cases h

theorem writeFields_cons (f : Field) (fs : List Field) :
    writeFields (f :: fs) = Varint.write (UInt64.ofNat (f.number * 8 + f.value.shape))
      ++ (f.value.write ++ writeFields fs) := by
  rw [writeFields, List.flatMap_cons, Field.write, List.append_assoc]
  rfl

theorem length_le_writeFields {f : Field} {fs : List Field} (h : f ∈ fs) :
    f.value.write.length ≤ (writeFields fs).length := by
  induction fs with
  | nil => cases h
  | cons g fs ih =>
    rw [writeFields_cons, List.length_append, List.length_append]
    rcases List.mem_cons.1 h with rfl | h
    · omega
    · have hle := ih h
      omega

/-- A nested message is shorter than the message around it. -/
theorem Message.length_le_encode {α β : Type} [Message α] [Message β] {a : α} {b : β} {k : Nat}
    (h : Field.message k a ∈ fields b) : (encode a).length ≤ (encode b).length := by
  have hle := length_le_writeFields h
  have hpart : (encode a).length ≤ (Field.message k a).value.write.length := by
    simp [Field.message, FieldValue.write]
  exact Nat.le_trans hpart hle

theorem readFieldsIn?_write (room : Nat) : ∀ {fs : List Field} {fuel : Nat},
    (∀ f ∈ fs, f.WellFormed) → (writeFields fs).length < UInt64.size →
      (writeFields fs).length ≤ fuel → readFieldsIn? fuel room (writeFields fs) = some fs := by
  intro fs
  induction fs with
  | nil => intro fuel _ _ _; cases fuel <;> rfl
  | cons f fs ih =>
    intro fuel hwf hlen hfuel
    have hf : f.WellFormed := hwf f (List.mem_cons_self ..)
    have hkey : 0 < (Varint.write (UInt64.ofNat (f.number * 8 + f.value.shape))).length :=
      List.length_pos_iff.2 (Varint.write_ne_nil _)
    rw [writeFields_cons] at hlen hfuel ⊢
    rw [List.length_append, List.length_append] at hlen hfuel
    cases fuel with
    | zero => omega
    | succ fuel =>
      have hbound : (writeFields fs).length ≤ fuel := by omega
      have hrest := ih (fun g hg => hwf g (List.mem_cons_of_mem _ hg)) (by omega) hbound
      unfold readFieldsIn?
      split
      · next hnil => simp [Varint.write_ne_nil] at hnil
      · rw [readKey?_write hf.number_pos hf.number_lt]
        dsimp only
        rw [readValue?_write hf (by omega)]
        dsimp only
        rw [hrest]

/-- **Fields** that were written are read back. -/
theorem readFields?_writeFields (room : Nat) {fs : List Field} (h : ∀ f ∈ fs, f.WellFormed)
    (hlen : (writeFields fs).length < UInt64.size) :
    readFields? room (writeFields fs) = some fs :=
  readFieldsIn?_write room h hlen (Nat.le_refl _)

/-! ## Parts of a message -/

/-- A float that came over the wire without presence: the zeros are one. -/
def Single.settled (x : Single) : Single := if x.isZero then ⟨0⟩ else x

namespace Message

variable {α β : Type} [Message α] [Message β] {room k : Nat} {m : α}

theorem merge_append {m' m'' : α} {fs gs : List Field} (h : mergeFields room m fs = some m')
    (h' : mergeFields room m' gs = some m'') : mergeFields room m (fs ++ gs) = some m'' := by
  rw [merge_append_fields, h]
  exact h'

/-- A field that is left out when the value stands there already. -/
theorem merge_unless {p : Prop} [Decidable p] {f : Field} {m' : α} (hput : put room m f = some m')
    (hskip : p → m = m') : mergeFields room m (if p then [] else [f]) = some m' := by
  by_cases hp : p
  · rw [if_pos hp, hskip hp]
    rfl
  · rw [if_neg hp, mergeFields, hput]
    rfl

theorem merge_int32 (s : α → Int32 → α)
    (hput : ∀ m n, put room m ⟨k, .varint n⟩ = some (s m (toInt32 n))) (h0 : s m 0 = m)
    (v : Int32) : mergeFields room m (Field.int32 k v) = some (s m v) := by
  refine merge_unless ?_ fun h => ?_
  · rw [hput, toInt32_ofInt32]
  · rw [h, h0]

theorem merge_uint32 (s : α → UInt32 → α)
    (hput : ∀ m n, put room m ⟨k, .varint n⟩ = some (s m n.toUInt32)) (h0 : s m 0 = m)
    (v : UInt32) : mergeFields room m (Field.uint32 k v) = some (s m v) := by
  refine merge_unless ?_ fun h => ?_
  · rw [hput, UInt32.toUInt32_toUInt64]
  · rw [h, h0]

theorem merge_fixed (s : α → UInt32 → α)
    (hput : ∀ m w, put room m ⟨k, .fixed32 w⟩ = some (s m w)) (h0 : s m 0 = m) (v : UInt32) :
    mergeFields room m (Field.fixed k v) = some (s m v) := by
  refine merge_unless (hput m v) fun h => ?_
  rw [h, h0]

theorem merge_single (s : α → Single → α)
    (hput : ∀ m w, put room m ⟨k, .fixed32 w⟩ = some (s m ⟨w⟩)) (h0 : s m ⟨0⟩ = m) (x : Single) :
    mergeFields room m (Field.single k x) = some (s m x.settled) := by
  unfold Single.settled Field.single
  cases hx : x.isZero with
  | true => exact congrArg some h0.symm
  | false =>
    show (put room m ⟨k, .fixed32 x.bits⟩).bind _ = _
    rw [hput]
    rfl

theorem merge_bool (s : α → Bool → α)
    (hput : ∀ m n, put room m ⟨k, .varint n⟩ = some (s m (n != 0))) (h0 : s m false = m)
    (b : Bool) : mergeFields room m (Field.bool k b) = some (s m b) := by
  cases b with
  | false => exact congrArg some h0.symm
  | true =>
    show (put room m ⟨k, .varint 1⟩).bind _ = _
    rw [hput]
    rfl

theorem merge_bytes (s : α → Bytes → α)
    (hput : ∀ m bs, put room m ⟨k, .bytes bs⟩ = some (s m bs)) (h0 : s m [] = m) (bs : Bytes) :
    mergeFields room m (Field.bytes k bs) = some (s m bs) := by
  refine merge_unless (hput m bs) fun h => ?_
  rw [List.isEmpty_iff.1 h, h0]

theorem merge_text (s : α → String → α)
    (hput : ∀ m bs, put room m ⟨k, .bytes bs⟩ = (Bytes.toText? bs).map (s m)) (h0 : s m "" = m)
    (t : String) : mergeFields room m (Field.text k t) = some (s m t) := by
  refine merge_unless ?_ fun h => ?_
  · rw [hput, Bytes.toText?_ofText]
    rfl
  · have hread := Bytes.toText?_ofText t
    rw [List.isEmpty_iff.1 h] at hread
    cases hread
    exact h0.symm

theorem merge_message {a a' b : β} (s : α → β → α)
    (hput : ∀ bs, put room m ⟨k, .bytes bs⟩ = (merge (room - 1) b bs).map (s m))
    (hread : merge (room - 1) b (encode a) = some a') :
    mergeFields room m [Field.message k a] = some (s m a') := by
  rw [mergeFields, Field.message, hput, hread]
  rfl

/-- A message is read back if its fields are. -/
theorem merge_encode {a a' : α} (hwf : ∀ f ∈ fields a, f.WellFormed)
    (hlen : (encode a).length < UInt64.size) (hmerge : mergeFields room m (fields a) = some a') :
    merge room m (encode a) = some a' := by
  rw [merge, encode, readFields?_writeFields room hwf hlen]
  exact hmerge

end Message

/-! ## The messages that carry a packet -/

open MeshWatch.Wire.Message

theorem Data.wellFormed (d : Data) : ∀ f ∈ fields d, f.WellFormed := by
  intro f hf
  simp only [fields, Field.int32, Field.bytes, Field.bool, Field.fixed, List.mem_append,
    List.mem_ite_nil_left, List.mem_ite_nil_right, List.mem_singleton, or_assoc] at hf
  rcases hf with ⟨-, rfl⟩ | ⟨-, rfl⟩ | ⟨-, rfl⟩ | ⟨-, rfl⟩ | ⟨-, rfl⟩ | ⟨-, rfl⟩ | ⟨-, rfl⟩
  all_goals exact Field.wellFormed_of (by decide) trivial

/-- **Data** is read back. -/
theorem Data.merge_encode (d : Data) (room : Nat) (hlen : (encode d).length < UInt64.size) :
    merge room ({} : Data) (encode d) = some d := by
  refine Message.merge_encode d.wellFormed hlen ?_
  simp only [fields, List.append_assoc]
  refine merge_append (merge_int32 (fun m v => { m with portnum := v }) (fun _ _ => rfl) rfl _) ?_
  refine merge_append (merge_bytes (fun m v => { m with payload := v }) (fun _ _ => rfl) rfl _) ?_
  refine merge_append
    (merge_bool (fun m v => { m with wantResponse := v }) (fun _ _ => rfl) rfl _) ?_
  refine merge_append (merge_fixed (fun m v => { m with dest := v }) (fun _ _ => rfl) rfl _) ?_
  refine merge_append (merge_fixed (fun m v => { m with source := v }) (fun _ _ => rfl) rfl _) ?_
  refine merge_append (merge_fixed (fun m v => { m with requestId := v }) (fun _ _ => rfl) rfl _) ?_
  exact merge_fixed (fun (m : Data) v => { m with replyId := v }) (fun _ _ => rfl) rfl _

/-- A packet as it comes over the wire. -/
def MeshPacket.settled (p : MeshPacket) : MeshPacket := { p with rxSnr := p.rxSnr.settled }

theorem MeshPacket.wellFormed (p : MeshPacket) : ∀ f ∈ fields p, f.WellFormed := by
  intro f hf
  have hbody : ∀ b : PacketBody, b.field.WellFormed := by
    intro b
    cases b with
    | decoded => exact Field.wellFormed_of (by decide) trivial
    | encrypted => exact Field.wellFormed_of (by decide) trivial
  simp only [fields, Field.int32, Field.uint32, Field.bool, Field.fixed, Field.single,
    List.mem_append, List.mem_ite_nil_left, List.mem_ite_nil_right, List.mem_singleton,
    Option.mem_toList, Option.map_eq_some_iff, or_assoc] at hf
  rcases hf with ⟨-, rfl⟩ | ⟨-, rfl⟩ | ⟨-, rfl⟩ | ⟨b, -, rfl⟩ | ⟨-, rfl⟩ | ⟨-, rfl⟩ | ⟨-, rfl⟩
    | ⟨-, rfl⟩ | ⟨-, rfl⟩ | ⟨-, rfl⟩ | ⟨-, rfl⟩ | ⟨-, rfl⟩ | ⟨-, rfl⟩
  case inr.inr.inr.inl => exact hbody b
  all_goals exact Field.wellFormed_of (by decide) trivial

/-- **A packet** is read back. -/
theorem MeshPacket.merge_encode (p : MeshPacket) (room : Nat)
    (hlen : (encode p).length < UInt64.size) :
    merge room ({} : MeshPacket) (encode p) = some p.settled := by
  refine Message.merge_encode p.wellFormed hlen ?_
  simp only [fields, List.append_assoc]
  refine merge_append (merge_fixed (fun m v => { m with sender := v }) (fun _ _ => rfl) rfl _) ?_
  refine merge_append (merge_fixed (fun m v => { m with recipient := v }) (fun _ _ => rfl) rfl _) ?_
  refine merge_append (merge_uint32 (fun m v => { m with channel := v }) (fun _ _ => rfl) rfl _) ?_
  have hbody : ∀ m : MeshPacket, m.body = none →
      mergeFields room m (p.body.map PacketBody.field).toList = some { m with body := p.body } := by
    intro m hm
    cases hb : p.body with
    | none =>
      show some m = _
      rw [← hm]
    | some b =>
      cases b with
      | encrypted bs => rfl
      | decoded d =>
        have hmem : Field.message 4 d ∈ fields p := by simp [fields, hb, PacketBody.field]
        have hlen' : (encode d).length < UInt64.size :=
          Nat.lt_of_le_of_lt (length_le_encode hmem) hlen
        refine merge_message (fun (m : MeshPacket) v => { m with body := some (.decoded v) })
          (fun bs => ?_)
          (d.merge_encode (room - 1) hlen')
        show (merge (room - 1) (PacketBody.data m.body) bs).map _ = _
        rw [hm]
        rfl
  refine merge_append (hbody _ rfl) ?_
  refine merge_append (merge_fixed (fun m v => { m with id := v }) (fun _ _ => rfl) rfl _) ?_
  refine merge_append (merge_fixed (fun m v => { m with rxTime := v }) (fun _ _ => rfl) rfl _) ?_
  refine merge_append (merge_single (fun m v => { m with rxSnr := v }) (fun _ _ => rfl) rfl _) ?_
  refine merge_append (merge_uint32 (fun m v => { m with hopLimit := v }) (fun _ _ => rfl) rfl _) ?_
  refine merge_append (merge_bool (fun m v => { m with wantAck := v }) (fun _ _ => rfl) rfl _) ?_
  refine merge_append (merge_int32 (fun m v => { m with rxRssi := v }) (fun _ _ => rfl) rfl _) ?_
  refine merge_append (merge_bool (fun m v => { m with viaMqtt := v }) (fun _ _ => rfl) rfl _) ?_
  refine merge_append (merge_uint32 (fun m v => { m with hopStart := v }) (fun _ _ => rfl) rfl _) ?_
  exact merge_uint32 (fun (m : MeshPacket) v => { m with relayNode := v }) (fun _ _ => rfl) rfl _

/-- An envelope as it comes over the wire. -/
def ServiceEnvelope.settled (e : ServiceEnvelope) : ServiceEnvelope :=
  { e with packet := e.packet.map MeshPacket.settled }

theorem ServiceEnvelope.wellFormed (e : ServiceEnvelope) : ∀ f ∈ fields e, f.WellFormed := by
  intro f hf
  simp only [fields, Field.text, Field.bytes, List.mem_append, List.mem_ite_nil_left,
    List.mem_singleton, Option.mem_toList, Option.map_eq_some_iff, or_assoc] at hf
  rcases hf with ⟨p, -, rfl⟩ | ⟨-, rfl⟩ | ⟨-, rfl⟩
  all_goals exact Field.wellFormed_of (by decide) trivial

/-- **An envelope** is read back. -/
theorem ServiceEnvelope.decode_encode (e : ServiceEnvelope)
    (hlen : (encode e).length < UInt64.size) :
    (decode? (encode e) : Option ServiceEnvelope) = some e.settled := by
  refine Message.merge_encode e.wellFormed hlen ?_
  simp only [fields, List.append_assoc]
  have hpacket : ∀ m : ServiceEnvelope, m.packet = none →
      mergeFields groupRoom m (e.packet.map (Field.message 1)).toList
        = some { m with packet := e.packet.map MeshPacket.settled } := by
    intro m hm
    cases hp : e.packet with
    | none => exact congrArg some (by rw [Option.map_none, ← hm])
    | some p =>
      have hmem : Field.message 1 p ∈ fields e := by simp [fields, hp]
      have hlen' : (encode p).length < UInt64.size :=
        Nat.lt_of_le_of_lt (length_le_encode hmem) hlen
      refine merge_message (fun (m : ServiceEnvelope) v => { m with packet := some v })
        (fun bs => ?_) (p.merge_encode (groupRoom - 1) hlen')
      show (merge (groupRoom - 1) (m.packet.getD {}) bs).map _ = _
      rw [hm]
      rfl
  refine merge_append (hpacket _ rfl) ?_
  refine merge_append (merge_text (fun m v => { m with channelId := v }) (fun m bs => ?_) rfl _) ?_
  · rfl
  exact merge_text (fun (m : ServiceEnvelope) v => { m with gatewayId := v }) (fun _ _ => rfl) rfl _

end Wire

end MeshWatch
