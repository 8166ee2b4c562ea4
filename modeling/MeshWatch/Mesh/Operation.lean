import MeshWatch.Mesh.Apply
import MeshWatch.Mesh.State
import MeshWatch.Mesh.Sweep

/-!
# Operations

What can be done to a mesh from outside, as data. Several operations, each at its own
time, make a history; nothing says that the times do not run backwards.

- `after_append`, `told_append`: a history may be cut in two anywhere.
- `apply_cases`: what became of a packet.
- `relayNode?_mem_named`, `gatewayNode?_mem_named`: whom a packet hears, it names.
- `relayNode?_spec`, `gatewayNode?_spec`: relay and gateway are nodes of their own.
-/

namespace MeshWatch.Mesh

/-- One thing that is done to a mesh. -/
inductive Operation where
  /-- A packet was received. -/
  | packet (p : Packet)
  /-- An operator tells something about a node. -/
  | update (id : NodeId) (u : NodeUpdate)
  | link (id : NodeId) (snr : Float32) (rssi : Option Int32) (hops : Option UInt8)
  | route (destination : NodeId) (hops : List RouteHop)
  | neighbors (reporter : NodeId) (entries : List NeighborEntry)
  /-- A channel is put into its slot. -/
  | channel (c : Channel)
  /-- Something was received on a slot. -/
  | activity (index : UInt32) (message : Bool)
  /-- A message that did not come in a packet. -/
  | message (message : Message)
  | sweep
  | restore (s : MeshState)

/-- An operation and the time at which it is done. -/
structure Step where
  operation : Operation
  now : Moment

/-- Does one step, and tells what it told. -/
def perform (m : Mesh) (s : Step) : Mesh × Journal :=
  match s.operation with
  | .packet p =>
    let (m, told, _) := m.apply p s.now
    (m, told)
  | .update id u =>
    let (m, told, _) := m.updateNode id u s.now
    (m, told)
  | .link id snr rssi hops => ((m.updateLink id snr rssi hops s.now).1, [])
  | .route destination hops => ((m.updateRoute (Route.new destination hops s.now)).1, [])
  | .neighbors reporter entries => (m.updateNeighbors reporter entries, [])
  | .channel c => (m.setChannel c, [])
  | .activity index message => (m.touchChannel index message s.now, [])
  | .message message => m.addMessage message
  | .sweep =>
    let (m, removed) := m.sweep s.now
    (m, sweepJournal removed)
  | .restore state => (m.restore state, [])

/-- The mesh after several steps. -/
def after (m : Mesh) (steps : List Step) : Mesh := steps.foldl (fun m s => (m.perform s).1) m

/-- What several steps told. -/
def told (m : Mesh) : List Step → Journal
  | [] => []
  | s :: steps => (m.perform s).2 ++ told (m.perform s).1 steps

@[simp] theorem after_nil (m : Mesh) : m.after [] = m := rfl

@[simp] theorem after_cons (m : Mesh) (s : Step) (steps : List Step) :
    m.after (s :: steps) = (m.perform s).1.after steps := rfl

theorem after_append (m : Mesh) (steps more : List Step) :
    m.after (steps ++ more) = (m.after steps).after more := List.foldl_append

theorem told_append (steps more : List Step) : ∀ m : Mesh,
    m.told (steps ++ more) = m.told steps ++ (m.after steps).told more := by
  induction steps with
  | nil => intro m; rfl
  | cons s steps ih =>
    intro m
    simp only [List.cons_append, told, ih, after_cons, List.append_assoc]

/-! ## Whom a step hears -/

/-- The nodes that an operation names; none of them is removed for another one. -/
def Operation.named : Operation → List NodeId
  | .packet p => p.named
  | .update id _ => [id]
  | _ => []

/-- Whether a packet was seen before. -/
def isRepeated (m : Mesh) (p : Packet) (now : Moment) : Bool :=
  p.packetId != 0 && (m.dedup.accept ⟨p.packetId, p.sender⟩ now).1

/-- A packet that was seen before leaves all but the cache alone, and any other one is
applied. -/
theorem apply_cases (m : Mesh) (p : Packet) (now : Moment) : ∃ dedup,
    (m.isRepeated p now = true ∧
      m.apply p now = ({ m with dedup := dedup }, [], { duplicate := true })) ∨
    (m.isRepeated p now = false ∧ m.apply p now = { m with dedup := dedup }.applyNew p now) := by
  unfold apply isRepeated
  split
  · next h0 => exact ⟨m.dedup, Or.inr ⟨by simp [h0], rfl⟩⟩
  · next h0 =>
    generalize m.dedup.accept ⟨p.packetId, p.sender⟩ now = answer
    obtain ⟨seen, dedup⟩ := answer
    refine ⟨dedup, ?_⟩
    cases seen with
    | true => exact Or.inl ⟨by simp [h0], rfl⟩
    | false => exact Or.inr ⟨by simp, rfl⟩

/-- The nodes that a step hears, first heard first: the sender, the relay and the
gateway of a packet that is applied, and a node that is updated. -/
def heard (m : Mesh) (s : Step) : List NodeId :=
  match s.operation with
  | .packet p =>
    if m.isRepeated p s.now || !p.hasUsableSender then []
    else p.sender :: p.relayNode?.toList ++ p.gatewayNode?.toList
  | .update id _ => if id.isUnknown || id.isBroadcast then [] else [id]
  | _ => []

theorem relayNode?_mem_named {p : Packet} {id : NodeId} (h : p.relayNode? = some id) :
    id ∈ p.named := by
  have hr := (Option.filter_eq_some_iff.1 h).1
  simp [Packet.named, hr]

theorem gatewayNode?_mem_named {p : Packet} {id : NodeId} (h : p.gatewayNode? = some id) :
    id ∈ p.named := by
  have hg := (Option.filter_eq_some_iff.1 h).1
  simp [Packet.named, hg]

theorem heard_packet {m : Mesh} {p : Packet} {now : Moment} (hnew : m.isRepeated p now = false)
    (hp : p.hasUsableSender = true) :
    m.heard ⟨.packet p, now⟩ = p.sender :: p.relayNode?.toList ++ p.gatewayNode?.toList := by
  simp only [heard, hnew, hp, Bool.not_true, Bool.or_self, Bool.false_eq_true, if_false]

theorem mem_heardOf {p : Packet} {id : NodeId} :
    id ∈ p.sender :: p.relayNode?.toList ++ p.gatewayNode?.toList ↔
      id = p.sender ∨ p.relayNode? = some id ∨ p.gatewayNode? = some id := by
  simp only [List.cons_append, List.mem_cons, List.mem_append, Option.mem_toList]

/-- Whom a packet hears, it names. -/
theorem mem_named_of_mem_heardOf {p : Packet} {id : NodeId}
    (h : id ∈ p.sender :: p.relayNode?.toList ++ p.gatewayNode?.toList) : id ∈ p.named := by
  rcases mem_heardOf.1 h with rfl | hr | hg
  · exact List.mem_cons_self ..
  · exact relayNode?_mem_named hr
  · exact gatewayNode?_mem_named hg

theorem relayNode?_spec {p : Packet} {id : NodeId} (h : p.relayNode? = some id) :
    id ≠ p.sender ∧ id.isAddressable = true := by
  have hr := (Option.filter_eq_some_iff.1 h).2
  simpa using hr

theorem gatewayNode?_spec {p : Packet} {id : NodeId} (h : p.gatewayNode? = some id) :
    id ≠ p.sender ∧ id.isAddressable = true := by
  have hg := (Option.filter_eq_some_iff.1 h).2
  simpa using hg

end MeshWatch.Mesh
