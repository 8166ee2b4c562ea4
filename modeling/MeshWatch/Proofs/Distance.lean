import MeshWatch.Proofs.Links
import MeshWatch.Proofs.Plausibility

/-!
# Reported distances

A gateway may report how far a packet has come. An envelope keeps that as a start and a
limit of the hops, and a start of zero stands for one that is not known. So a reported
distance comes through unless it is zero, and unless a start that says otherwise is reported
beside it; and no such report makes a packet one that the gateway heard itself.

- `hopDistance_ofMembers`: the distance of a packet out of what is reported about it.
- `neighbors_apply`: a packet that was not heard directly makes nobody a neighbor, unless it
  says so itself.
- `reported_distance`: when a reported distance comes through, and what comes of it.
-/

namespace MeshWatch

/-! ## Hops -/

theorem clampedByte_of_le {n : UInt32} (h : n ≤ 255) : clampedByte n = n.toUInt8 := if_pos h

theorem clampedByte_eq_zero_iff {n : UInt32} : clampedByte n = 0 ↔ n = 0 := by
  constructor
  · intro h
    unfold clampedByte at h
    split at h
    · next hle =>
      have hn := congrArg UInt8.toNat h
      have hle' : n.toNat ≤ 255 := UInt32.le_iff_toNat_le.1 hle
      refine UInt32.toNat_inj.1 ?_
      simp only [UInt32.toNat_toUInt8, UInt8.toNat_zero, UInt32.toNat_zero] at hn ⊢
      omega
    · cases h
  · rintro rfl
    rfl

theorem hopDistance_zero (d : UInt8) : hopDistance d 0 = if d = 0 then none else some d := by
  by_cases hd : d = 0 <;> simp [hopDistance, hd]

namespace Envelope

open Json (Members field?)

/-- The start of the hops, where a number is reported. -/
def startOf (ms : Members) : Option UInt32 := (field? ms ["hop_start", "hopStart"]).bind Json.word?

/-- What is left of the hops, where a number is reported. -/
def limitOf (ms : Members) : Option UInt32 := (field? ms ["hop_limit", "hopLimit"]).bind Json.word?

/-- How far the packet has come, where a number is reported. -/
def awayOf (ms : Members) : Option UInt32 := (field? ms ["hops_away", "hopsAway"]).bind Json.word?

theorem hops_of_away {hopStart hopLimit : Option UInt32} (n : UInt32)
    (h : hopStart = none ∨ hopLimit = none) :
    hops hopStart hopLimit (some n) = (hopStart.getD n, 0) := by
  cases hopStart with
  | none => rfl
  | some s =>
    obtain rfl := h.resolve_left nofun
    rfl

/-- The distance of a packet of which start and limit are not both reported: the reported
start, or else the reported distance, if that is not zero. -/
theorem hopDistance_ofMembers (t : Topic) (sender : NodeId) (body : EnvelopeBody) {ms : Members}
    {n : UInt32} (haway : awayOf ms = some n) (h : startOf ms = none ∨ limitOf ms = none) :
    hopDistance (ofMembers t ms sender body).hopStart (ofMembers t ms sender body).hopLimit =
      if (startOf ms).getD n = 0 then none else some (clampedByte ((startOf ms).getD n)) := by
  have hhops : hops (startOf ms) (limitOf ms) (awayOf ms) = ((startOf ms).getD n, 0) := by
    rw [haway, hops_of_away n h]
  have hpair : (ofMembers t ms sender body).hopStart = clampedByte ((startOf ms).getD n) ∧
      (ofMembers t ms sender body).hopLimit = 0 := by
    show clampedByte (hops (startOf ms) (limitOf ms) (awayOf ms)).1 = _ ∧
      clampedByte (hops (startOf ms) (limitOf ms) (awayOf ms)).2 = _
    rw [hhops]
    exact ⟨rfl, rfl⟩
  rw [hpair.1, hpair.2, hopDistance_zero]
  simp only [clampedByte_eq_zero_iff]

/-- The body of an object is typed already or missing, so that a packet can be made of it. -/
theorem packetOfEnvelope_ofMembers (r : Receiver) (t : Topic) (sender : NodeId) {ms : Members}
    {body : EnvelopeBody} (h : objectBody ms = .ok body) :
    ∃ payload, r.packetOfEnvelope (ofMembers t ms sender body) =
      .ok (Receiver.packetWith (ofMembers t ms sender body) payload) := by
  have hpayload : body = .empty ∨ ∃ payload, body = .decoded payload := by
    unfold objectBody at h
    dsimp only at h
    split at h
    · exact Or.inl (Except.ok.inj h).symm
    · exact Or.inl (Except.ok.inj h).symm
    all_goals
      obtain ⟨payload, -, he⟩ := exists_of_map_ok h
      exact Or.inr ⟨payload, he.symm⟩
  rcases hpayload with rfl | ⟨payload, rfl⟩
  · exact ⟨.sealed, rfl⟩
  · exact ⟨payload, rfl⟩

/-- What was read from an object with these members. -/
theorem exists_of_ofObject_ok {t : Topic} {body : Bytes} {ms : Members} {e : Envelope}
    (hbody : Json.readBytes? body = some (.object ms)) (he : ofObject t body = .ok e) :
    ∃ sender b, objectBody ms = .ok b ∧ e = ofMembers t ms sender b := by
  obtain ⟨ms', sender, b, hread, -, hb, rfl⟩ := exists_of_ofObject he
  obtain rfl := Json.object.inj (Option.some.inj (hbody.symm.trans hread))
  exact ⟨sender, b, hb, rfl⟩

end Envelope

/-! ## Neighbors -/

namespace Mesh

variable {p : Packet}

/-- Every neighbor of the node was one at the start. -/
def NoNewNeighbor (start : Mesh) (id : NodeId) (n : Node) : Prop :=
  ∀ i ∈ n.neighbors.ids, ∃ n₀, start.nodes[id]? = some n₀ ∧ i ∈ n₀.neighbors.ids

/-- **Neighbors** are not made by a packet that was not heard directly, unless it reports
them itself. -/
theorem neighbors_apply (m : Mesh) (now : Moment) (hdirect : p.isDirect = false)
    (hp : ∀ r, p.payload ≠ .neighborInfo r) :
    EveryNode (NoNewNeighbor m) (m.apply p now).1 := by
  have hbefore : EveryNode (LinksIn (fun a b => b ∈ m.neighborsOf a) fun _ _ => True) m :=
    everyNode_linksIn_iff.2 ⟨fun _ _ hb => hb, fun _ _ _ => trivial⟩
  have hafter : EveryNode (LinksIn (fun a b => b ∈ m.neighborsOf a) fun _ _ => True)
      (m.apply p now).1 := by
    refine linksIn_apply hbefore fun _ a b hshown => ?_
    cases hshown with
    | report payload => exact absurd payload (hp _)
    | direct _ hops => simp [Packet.isDirect, hops] at hdirect
  exact fun id n hn i hi => mem_neighborsOf.1 ((hafter id n hn).neighbors i hi)

end Mesh

/-! ## Reported distances -/

open Envelope (startOf limitOf awayOf)

/-- **A reported distance** of a byte, beside which start and limit of the hops are not both
reported, is the distance of the packet exactly if it is not zero and no other start is
reported. Whatever it is, the packet is none that the gateway heard itself: unless it reports
neighbors, nobody is a neighbor after it who was not before. -/
theorem reported_distance (r : Receiver) (t : Topic) (body : Bytes) (ms : Json.Members)
    (e : Envelope) (n : UInt32) (hbody : Json.readBytes? body = some (.object ms))
    (he : Envelope.ofObject t body = .ok e) (haway : awayOf ms = some n) (hn : n ≤ 255)
    (hboth : startOf ms = none ∨ limitOf ms = none) :
    ∃ p, r.packetOfEnvelope e = .ok p ∧
      (p.hopsAway = some n.toUInt8 ↔
        n ≠ 0 ∧ ∀ s, startOf ms = some s → clampedByte s = n.toUInt8) ∧
      p.isDirect = false ∧
      ((∀ report, p.payload ≠ .neighborInfo report) → ∀ m now,
        Mesh.EveryNode (Mesh.NoNewNeighbor m) (Mesh.apply m p now).1) := by
  obtain ⟨sender, b, hb, rfl⟩ := Envelope.exists_of_ofObject_ok hbody he
  obtain ⟨payload, hp⟩ := Envelope.packetOfEnvelope_ofMembers r t sender hb
  let p := Receiver.packetWith (Envelope.ofMembers t ms sender b) payload
  have hdistance : p.hopsAway = if (startOf ms).getD n = 0 then none
      else some (clampedByte ((startOf ms).getD n)) :=
    Envelope.hopDistance_ofMembers t sender b haway hboth
  have hdirect : p.isDirect = false := by
    rw [Packet.isDirect, hdistance]
    split
    · rfl
    · next h0 => simpa [clampedByte_eq_zero_iff] using h0
  refine ⟨p, hp, ?_, hdirect, fun hreport m now => Mesh.neighbors_apply m now hdirect hreport⟩
  have hbyte : clampedByte n = n.toUInt8 := clampedByte_of_le hn
  -- a start that clamps to the reported distance is zero only if that is
  have hzero : ∀ s : UInt32, clampedByte s = n.toUInt8 → (s = 0 ↔ n = 0) := by
    intro s hs
    rw [← clampedByte_eq_zero_iff, hs, ← hbyte, clampedByte_eq_zero_iff]
  rw [hdistance]
  cases hstart : startOf ms with
  | none =>
    by_cases h0 : n = 0
    · simp [h0]
    · simp [h0, hbyte]
  | some s =>
    constructor
    · intro h
      split at h
      · cases h
      · next h0 =>
        have hs : clampedByte s = n.toUInt8 := Option.some.inj h
        exact ⟨fun hn0 => h0 ((hzero s hs).2 hn0), fun s' hs' => Option.some.inj hs' ▸ hs⟩
    · rintro ⟨h0, hs⟩
      have hs := hs s rfl
      have hs0 : (some s).getD n ≠ 0 := fun h => h0 ((hzero s hs).1 h)
      rw [if_neg hs0]
      exact congrArg some hs

theorem three_hops :
    let t : Topic := ⟨"msh", none, .json, some "LongFast", some ⟨0xbbbbbbbb⟩, []⟩
    let body := Bytes.ofText "\x7b\"from\":2863311530,\"id\":7,\"hops_away\":3\x7d"
    ∃ ms e p, Json.readBytes? body = some (.object ms) ∧ awayOf ms = some 3 ∧
      Envelope.ofObject t body = .ok e ∧ ({} : Receiver).packetOfEnvelope e = .ok p ∧
      p.hopsAway = some 3 := by
  intro t body
  have hread : ((Json.readBytes? body).bind Json.asObject?).map
      (fun ms => (awayOf ms, startOf ms)) = some (some 3, none) := by decide +kernel
  have henvelope : (Envelope.ofObject t body).toOption.isSome = true := by decide +kernel
  obtain ⟨ms, hms, hreported⟩ := Option.map_eq_some_iff.1 hread
  obtain ⟨haway, hstart⟩ := Prod.mk.inj hreported
  obtain ⟨j, hj, hobject⟩ := Option.bind_eq_some_iff.1 hms
  have hbody : Json.readBytes? body = some (.object ms) := by
    cases j with
    | object ms' =>
      obtain rfl : ms' = ms := Option.some.inj hobject
      exact hj
    | _ => cases hobject
  cases he : Envelope.ofObject t body with
  | error fault =>
    rw [he] at henvelope
    cases henvelope
  | ok e =>
    obtain ⟨p, hp, hdistance, -, -⟩ :=
      reported_distance {} t body ms e 3 hbody he haway (by decide) (Or.inl hstart)
    exact ⟨ms, e, p, hbody, haway, rfl, hp, hdistance.2 ⟨by decide, by rw [hstart]; exact nofun⟩⟩

/-- A packet that is reported to have come no hop at all is one of unknown distance, and its
sender is no neighbor of the gateway. -/
theorem no_hops :
    let body := Bytes.ofText "\x7b\"from\":2863311530,\"id\":7,\"hops_away\":0\x7d"
    let read := (({} : Receiver).packetOf "msh/2/json/LongFast/!bbbbbbbb" body).toOption
    let gateway : NodeId := ⟨0xbbbbbbbb⟩
    ((Json.readBytes? body).bind Json.asObject?).map
      (fun ms => (awayOf ms, startOf ms, limitOf ms)) = some (some 0, none, none) ∧
    read.map Packet.hopsAway = some none ∧
    (read.bind fun p => ((Mesh.new {} "" {}).apply p (.ofSecs 10)).1.nodes[gateway]?).map
      (fun n => n.neighbors.ids) = some [] := by
  refine ⟨?_, ?_, ?_⟩ <;> decide +kernel

end MeshWatch
