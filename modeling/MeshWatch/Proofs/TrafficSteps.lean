import MeshWatch.Mesh.Operation
import MeshWatch.Traffic

/-!
# Traffic as operations

To its mesh a message of a broker is one operation or none: the packet that it brings, or the
news that a gateway is online. A monitor tells what the operation tells, and of a message that
comes to none it tells the operator at most. So what is known of operations on a mesh holds of
traffic, and what a run brings about is brought about by one of its steps.

- `does_perform`: a step of the traffic as an operation on the mesh.
- `operation?_cases`: the operations that there are.
- `exists_step_of_after`: what holds after a run came with the start or with a step.
-/

namespace MeshWatch.Monitor

/-- A monitor does no more to its mesh than to apply the packet. -/
theorem mesh_applyPacket (m : Monitor) (p : Packet) (now : Moment) :
    (m.applyPacket p now).1.mesh = (m.mesh.apply p now).1 ∧
    (m.applyPacket p now).2.1 = (m.mesh.apply p now).2.1 := by
  unfold applyPacket
  generalize m.mesh.apply p now = r
  obtain ⟨mesh, told, report⟩ := r
  dsimp only
  split
  · exact ⟨rfl, rfl⟩
  · exact ⟨rfl, rfl⟩

/-- A refusal is told to the operator at most. -/
theorem events_reject (m : Monitor) (fault : DecodeFault) (tick : Tick) :
    Journal.events (m.reject fault tick).2.1 = [] := by
  unfold reject
  generalize m.rejections.record tick = r
  obtain ⟨count, rejections⟩ := r
  cases count <;> rfl

/-! ## Operations -/

/-- The gateway that a message tells to be online, if it is such a message. -/
def onlineGateway? (topic : String) (body : Bytes) : Option NodeId :=
  match Topic.decode topic with
  | .error _ => none
  | .ok t => if t.kind = .status ∧ saysOnline body = true then t.gateway else none

/-- What an input comes to for the mesh, if it comes to anything. -/
def Input.operation? (r : Receiver) : Input → Option Mesh.Operation
  | sweep => some .sweep
  | message topic body _ =>
    match (r.packetOf topic body).toOption with
    | some p => some (.packet p)
    | none => (onlineGateway? topic body).map fun id => .update id {}

/-- What a step comes to for the mesh. -/
def Step.operation? (r : Receiver) (s : Step) : Option Mesh.Step :=
  (s.input.operation? r).map fun op => ⟨op, s.now⟩

/-- The operation was done to the mesh and told; or there was none, the mesh was left alone and
no events were told. -/
def Does (m m' : Mesh) (told : Journal) : Option Mesh.Step → Prop
  | some op => m' = (m.perform op).1 ∧ told = (m.perform op).2
  | none => m' = m ∧ Journal.events told = []

theorem does_dispatch (m : Monitor) (topic : String) (body : Bytes) (now : Moment) (tick : Tick) :
    Does m.mesh (m.dispatch topic body now tick).1.mesh (m.dispatch topic body now tick).2.1
      (Step.operation? m.receiver ⟨.message topic body tick, now⟩) := by
  simp only [dispatch, Step.operation?, Input.operation?, Receiver.packetOf, onlineGateway?]
  cases Topic.decode topic with
  | error fault => exact ⟨rfl, events_reject m fault tick⟩
  | ok t =>
    cases hk : t.kind with
    | status =>
      have hnone : t.carriesPackets = false := by rw [Topic.carriesPackets, hk]; rfl
      simp only [hnone, hk, takeStatus]
      cases t.gateway <;> cases saysOnline body <;> exact ⟨rfl, rfl⟩
    | map =>
      have hnone : t.carriesPackets = false := by rw [Topic.carriesPackets, hk]; rfl
      simp only [hnone, hk]
      exact ⟨rfl, rfl⟩
    | protobuf | json | legacy =>
      have hsome : t.carriesPackets = true := by rw [Topic.carriesPackets, hk]; rfl
      simp only [hsome, hk]
      cases m.receiver.packetOfBody t body with
      | error fault => exact ⟨rfl, events_reject m fault tick⟩
      | ok p => exact m.mesh_applyPacket p now

/-- **One step** of the traffic is one operation on the mesh, or none. -/
theorem does_perform (m : Monitor) (s : Step) :
    Does m.mesh (m.perform s).1.mesh (m.perform s).2.1 (s.operation? m.receiver) := by
  obtain ⟨input, now⟩ := s
  cases input with
  | message topic body tick =>
    exact does_dispatch { m with stats := m.stats.received now } topic body now tick
  | sweep => exact ⟨rfl, rfl⟩

/-- What a step comes to is done at its time: a packet, the news of a gateway, or a sweep. -/
theorem operation?_cases {s : Step} {r : Receiver} {op : Mesh.Step}
    (h : s.operation? r = some op) :
    (∃ p, op = ⟨.packet p, s.now⟩) ∨ (∃ id, op = ⟨.update id {}, s.now⟩) ∨
      op = ⟨.sweep, s.now⟩ := by
  obtain ⟨input, now⟩ := s
  obtain ⟨o, ho, rfl⟩ := Option.map_eq_some_iff.1 h
  cases input with
  | sweep =>
    cases ho
    exact Or.inr (Or.inr rfl)
  | message topic body tick =>
    simp only [Input.operation?] at ho
    split at ho
    · next p _ =>
      cases ho
      exact Or.inl ⟨p, rfl⟩
    · obtain ⟨id, -, rfl⟩ := Option.map_eq_some_iff.1 ho
      exact Or.inr (Or.inl ⟨id, rfl⟩)

/-- A packet is brought by a message that is read as one. -/
theorem exists_message_of_packet {s : Step} {r : Receiver} {p : Packet} {now : Moment}
    (h : s.operation? r = some ⟨.packet p, now⟩) :
    ∃ topic body tick, s.input = .message topic body tick ∧
      (r.packetOf topic body).toOption = some p := by
  obtain ⟨input, time⟩ := s
  obtain ⟨op, hop, he⟩ := Option.map_eq_some_iff.1 h
  cases he
  cases input with
  | sweep => cases hop
  | message topic body tick =>
    simp only [Input.operation?] at hop
    split at hop
    · next q hq =>
      cases hop
      exact ⟨topic, body, tick, rfl, hq⟩
    · obtain ⟨id, -, hid⟩ := Option.map_eq_some_iff.1 hop
      cases hid

/-! ## Runs -/

/-- **A run.** What holds at its end and not at its start was brought about by one of its
steps. -/
theorem exists_step_of_after {P : Monitor → Prop} {steps : List Step} : ∀ {m : Monitor},
    ¬ P m → P (m.after steps) → ∃ before s later, steps = before ++ s :: later ∧
      ¬ P (m.after before) ∧ P ((m.after before).perform s).1 := by
  induction steps with
  | nil => exact fun hstart hend => absurd hend hstart
  | cons s steps ih =>
    intro m hstart hend
    by_cases hs : P (m.perform s).1
    · exact ⟨[], s, steps, rfl, hstart, hs⟩
    · obtain ⟨before, s', later, rfl, hbefore, hs'⟩ := ih hs hend
      exact ⟨s :: before, s', later, rfl, hbefore, hs'⟩

end MeshWatch.Monitor
