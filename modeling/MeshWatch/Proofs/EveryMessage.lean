import MeshWatch.Proofs.BodyRoundTrip

/-!
# Every message is read back

Whatever the type of a message, it is read back from what it is written as. Fields with
presence and the members of a choice come back with it, be their value zero or empty; an absent
one stays absent. A float without presence is left out when it is a zero, and the sign of that
zero with it; nothing else is lost.

- `Travels`: a type is read back, up to what becomes of such floats.
- `Travels.of_merge`: what is read as a part of other messages.
- `Single.settled_eq`: what becomes of one float.
- `every_message_travels`: all types.
-/

namespace MeshWatch.Wire

open MeshWatch.Wire.Message (encode decode? merge groupRoom)

/-- Each value that has a length on the wire is read back from its bytes as it is settled. -/
def Travels (α : Type) [Message α] (settled : α → α) : Prop :=
  ∀ m : α, (encode m).length < UInt64.size → decode? (encode m) = some (settled m)

/-- What is read into an empty message within another one is also read on its own. -/
theorem Travels.of_merge {α : Type} [Message α] {settled : α → α}
    (h : ∀ (m : α) (room : Nat), (encode m).length < UInt64.size →
      merge room Message.empty (encode m) = some (settled m)) : Travels α settled :=
  fun m hlen => h m groupRoom hlen

/-- The negative zero comes back as the positive one, and any other float bit for bit. -/
theorem Single.settled_eq (x : Single) : x.settled = if x.bits = 0x80000000 then ⟨0⟩ else x := by
  obtain ⟨bits⟩ := x
  by_cases h0 : bits = 0
  · subst h0
    rfl
  · by_cases hneg : bits = 0x80000000
    · subst hneg
      rfl
    · simp [settled, isZero, h0, hneg]

/-- **Every message** is read back as it was: of all types but those that hold a float without
presence, to the bit, and of those with the sign of a zero in such a float cleared. -/
theorem every_message_travels :
    (Travels ServiceEnvelope ServiceEnvelope.settled ∧ Travels MeshPacket MeshPacket.settled ∧
      Travels Data id) ∧
    (Travels Position id ∧ Travels User id ∧ Travels Telemetry id ∧ Travels DeviceMetrics id ∧
      Travels EnvironmentMetrics id ∧ Travels RouteDiscovery id ∧ Travels Routing id) ∧
    (Travels NeighborInfo NeighborInfo.settled ∧ Travels Neighbor Neighbor.settled) ∧
    (∀ e : ServiceEnvelope, e.settled = { e with packet := e.packet.map MeshPacket.settled }) ∧
    (∀ p : MeshPacket, p.settled = { p with rxSnr := p.rxSnr.settled }) ∧
    (∀ r : NeighborInfo, r.settled = { r with neighbors := r.neighbors.map Neighbor.settled }) ∧
    (∀ n : Neighbor, n.settled = { n with snr := n.snr.settled }) ∧
    ∀ x : Single, x.settled = if x.bits = 0x80000000 then ⟨0⟩ else x := by
  refine ⟨⟨ServiceEnvelope.decode_encode, .of_merge MeshPacket.merge_encode,
      .of_merge Data.merge_encode⟩,
    ⟨Position.decode_encode, User.decode_encode, Telemetry.decode_encode,
      .of_merge DeviceMetrics.merge_encode, .of_merge EnvironmentMetrics.merge_encode,
      RouteDiscovery.decode_encode, Routing.decode_encode⟩,
    ⟨NeighborInfo.decode_encode, .of_merge Neighbor.merge_encode⟩, ?_, ?_, ?_, ?_,
    Single.settled_eq⟩
  · exact fun _ => rfl
  · exact fun _ => rfl
  · exact fun _ => rfl
  · exact fun _ => rfl

/-- Zeros and empty values with presence stay, absent ones stay away, and the sign of a zero
without presence goes. -/
theorem presence_survives :
    let position : Position := { latitudeI := some 0, altitude := some 0 }
    let metrics : Telemetry := { variant := some (.device { voltage := some ⟨0x80000000⟩ }) }
    let routing : Routing := { variant := some (.routeReply {}) }
    let packet : MeshPacket := { body := some (.encrypted []), rxSnr := ⟨0x80000000⟩ }
    decode? (encode position) = some position ∧ decode? (encode metrics) = some metrics ∧
    decode? (encode routing) = some routing ∧
    decode? (encode packet) = some { packet with rxSnr := ⟨0⟩ } := by
  intro position metrics routing packet
  obtain ⟨⟨-, hpacket, -⟩, ⟨hposition, -, htelemetry, -, -, -, hrouting⟩, -⟩ :=
    every_message_travels
  exact ⟨hposition position (by decide), htelemetry metrics (by decide),
    hrouting routing (by decide), hpacket packet (by decide)⟩

end MeshWatch.Wire
