import MeshWatch.Proofs.EveryNode

/-!
# Links

That a node hears another one is written down twice, with the one that hears and with the one
that is heard. Both come from two kinds of packets: reports of neighbors, which may be about
another node than the one that sends them, and packets that a gateway heard itself. Nothing
else that a packet says makes a link.

- `Packet.Shows`: a packet shows that one node hears another one.
- `LinksIn`: the links of a node are among those of two relations; the edits that keep it.
- `linksIn_apply`: a packet adds the links that it shows.
- `linksIn_updateNode`: an update adds none.
-/

namespace MeshWatch

/-- A packet shows that a node hears another one: it is a report of the neighbors of the
first, which lists the second, or the second sent it and the first, its gateway, heard it
itself. The mesh tells which nodes are known, for a report may name its node. -/
inductive Packet.Shows (p : Packet) (m : Mesh) (hearer heard : NodeId) : Prop where
  | report {r : NeighborReport} (payload : p.payload = .neighborInfo r)
      (listed : heard ∈ r.neighbors.map NeighborEntry.nodeId)
      (reporter : m.reporterOf p.sender r = hearer)
  | direct (sender : p.sender = heard) (hops : p.hopsAway = some 0)
      (gateway : p.gateway = some hearer)

namespace Mesh

variable {m m' : Mesh} {p : Packet} {now : Moment} {N H : NodeId → NodeId → Prop}
  {id : NodeId} {n : Node} {f : Node → Node}

/-- The nodes that a node hears. -/
def neighborsOf (m : Mesh) (id : NodeId) : List NodeId := (m.nodes[id]?).elim [] (·.neighbors.ids)

/-- The nodes that hear a node. -/
def hearersOf (m : Mesh) (id : NodeId) : List NodeId := (m.nodes[id]?).elim [] (·.heardBy.ids)

/-! ## The links of one node -/

/-- A node hears no others than one relation says, and is heard by no others than another one
says; both are between the node that hears and the one that is heard. -/
structure LinksIn (N H : NodeId → NodeId → Prop) (id : NodeId) (n : Node) : Prop where
  neighbors : ∀ b ∈ n.neighbors.ids, N id b
  heardBy : ∀ a ∈ n.heardBy.ids, H a id

namespace LinksIn

theorem new (id : NodeId) (now : Moment) : LinksIn N H id (Node.new id now) where
  neighbors _ hb := absurd hb List.not_mem_nil
  heardBy _ ha := absurd ha List.not_mem_nil

theorem of_kept {n' : Node} (h : LinksIn N H id n) (hneighbors : n'.neighbors = n.neighbors)
    (hheardBy : n'.heardBy = n.heardBy) : LinksIn N H id n' where
  neighbors := hneighbors ▸ h.neighbors
  heardBy := hheardBy ▸ h.heardBy

theorem hears {b : NodeId} (h : LinksIn N H id n) (hb : N id b) : LinksIn N H id (n.hears b) where
  neighbors i hi := by
    rcases NeighborSet.mem_of_mem_insert hi with rfl | hold
    · exact hb
    · exact h.neighbors i hold
  heardBy := h.heardBy

theorem isHeardBy {a : NodeId} (h : LinksIn N H id n) (ha : H a id) :
    LinksIn N H id (n.isHeardBy a) where
  neighbors b hb := h.neighbors b (by simpa only [Node.isHeardBy] using hb)
  heardBy i hi := by
    rcases NeighborSet.mem_of_mem_insert hi with rfl | hold
    · exact ha
    · exact h.heardBy i hold

theorem hears_all {ids : List NodeId} (hids : ∀ b ∈ ids, N id b) (h : LinksIn N H id n) :
    LinksIn N H id (ids.foldl Node.hears n) := by
  induction ids generalizing n with
  | nil => exact h
  | cons b ids ih =>
    obtain ⟨hb, hids⟩ := List.forall_mem_cons.1 hids
    rw [List.foldl_cons]
    exact ih hids (h.hears hb)

theorem takeHeader (h : LinksIn N H id n) (p : Packet) (now : Moment) :
    LinksIn N H id (n.takeHeader p now) :=
  Node.takeHeader_keeps (Q := LinksIn N H id) h (fun _ _ h => h.of_kept rfl rfl)
    (fun _ _ _ h => h.of_kept rfl rfl) fun _ _ _ h => h.of_kept rfl rfl

theorem senderEdit (h : LinksIn N H id n) (hf : SenderEdit p now id f) : LinksIn N H id (f n) := by
  obtain ⟨-, rfl | rfl⟩ := hf
  · exact h.of_kept rfl rfl
  · exact h.takeHeader p now

theorem heardEdit {node : NodeId} (h : LinksIn N H id n) (hf : HeardEdit node now id f) :
    LinksIn N H id (f n) := by
  obtain ⟨-, rfl⟩ := hf
  exact h.of_kept rfl rfl

theorem routeEdit (h : LinksIn N H id n) (hf : RouteEdit id f) : LinksIn N H id (f n) := by
  obtain ⟨routeId, rfl | rfl⟩ := hf
  · exact h.of_kept rfl rfl
  · exact h.of_kept rfl rfl

theorem gatewayEdit {gateway : NodeId} (h : LinksIn N H id n)
    (hlink : N gateway p.sender ∧ H gateway p.sender) (hf : GatewayEdit p gateway now id f) :
    LinksIn N H id (f n) := by
  rcases hf with hf | ⟨rfl, rfl⟩ | ⟨rfl, rfl⟩
  · exact h.heardEdit hf
  · exact h.hears hlink.1
  · exact h.isHeardBy hlink.2

end LinksIn

/-! ## The links of all nodes -/

theorem mem_neighborsOf {a b : NodeId} :
    b ∈ m.neighborsOf a ↔ ∃ n, m.nodes[a]? = some n ∧ b ∈ n.neighbors.ids := by
  cases hn : m.nodes[a]? <;> simp [neighborsOf, hn]

theorem mem_hearersOf {a b : NodeId} :
    a ∈ m.hearersOf b ↔ ∃ n, m.nodes[b]? = some n ∧ a ∈ n.heardBy.ids := by
  cases hn : m.nodes[b]? <;> simp [hearersOf, hn]

theorem everyNode_linksIn_iff :
    EveryNode (LinksIn N H) m ↔
      (∀ a b, b ∈ m.neighborsOf a → N a b) ∧ ∀ a b, a ∈ m.hearersOf b → H a b := by
  constructor
  · intro h
    constructor
    · intro a b hb
      obtain ⟨n, hn, hb⟩ := mem_neighborsOf.1 hb
      exact (h a n hn).neighbors b hb
    · intro a b ha
      obtain ⟨n, hn, ha⟩ := mem_hearersOf.1 ha
      exact (h b n hn).heardBy a ha
  · rintro ⟨hN, hH⟩ id n hn
    constructor
    · exact fun b hb => hN id b (mem_neighborsOf.2 ⟨n, hn, hb⟩)
    · exact fun a ha => hH a id (mem_hearersOf.2 ⟨n, hn, ha⟩)

theorem linksIn_ensure (h : EveryNode (LinksIn N H) m) (id : NodeId) (now : Moment)
    (keep : List NodeId) : EveryNode (LinksIn N H) (m.ensure id now keep).1 :=
  h.ensure (.new id now)

/-- A gateway that did not hear the sender itself is only marked as heard. -/
theorem edits_hearGateway (m : Mesh) (now : Moment) (hp : p.isDirect = false) :
    (m.hearGateway p now).1 = m ∨
    ∃ id, Edits (HeardEdit id now) (m.ensure id now p.named).1 (m.hearGateway p now).1 := by
  unfold hearGateway
  cases p.gatewayNode? with
  | none => exact Or.inl rfl
  | some id =>
    rw [hp]
    exact Or.inr ⟨id, .modify _ ⟨rfl, rfl⟩⟩

/-- A gateway hears the sender, and that only if it heard the packet itself. -/
theorem linksIn_hearGateway (h : EveryNode (LinksIn N H) m)
    (hlink : ∀ a, p.hopsAway = some 0 → p.gateway = some a → N a p.sender ∧ H a p.sender) :
    EveryNode (LinksIn N H) (m.hearGateway p now).1 := by
  cases hdirect : p.isDirect with
  | false =>
    rcases m.edits_hearGateway now hdirect with he | ⟨id, he⟩
    · rw [he]
      exact h
    · exact (linksIn_ensure h _ _ _).edits he fun _ _ _ hf hn => hn.heardEdit hf
  | true =>
    rcases m.hearGateway_cases p now with ⟨-, he⟩ | ⟨id, hid, he, -⟩
    · rw [he]
      exact h
    · have hgateway := hlink id (by simpa [Packet.isDirect] using hdirect)
        (Option.filter_eq_some_iff.1 hid).1
      exact (linksIn_ensure h _ _ _).edits he fun _ _ _ hf hn => hn.gatewayEdit hgateway hf

/-- A report makes the links that it lists, and no other body makes any. -/
theorem linksIn_takePayload (h : EveryNode (LinksIn N H) m) (channel : UInt32)
    (hreport : ∀ r, p.payload = .neighborInfo r → ∀ b ∈ r.neighbors.map NeighborEntry.nodeId,
      N (m.reporterOf p.sender r) b ∧ H (m.reporterOf p.sender r) b) :
    EveryNode (LinksIn N H) (m.takePayload p channel now).1 := by
  unfold takePayload
  split
  · exact h.congr rfl
  · exact h.edits (edits_updateRoute m _) fun _ _ _ hf hn => hn.routeEdit hf
  · next r hr =>
    have he := edits_updateNeighbors_of
      (P := fun id f => ∀ n, LinksIn N H id n → LinksIn N H id (f n))
      (fun ids hids n hn => hn.hears_all fun b hb => (hreport r hr b (hids b hb).1).1)
      (fun b hb _ _ n hn => hn.isHeardBy (hreport r hr b hb).2) m
    exact h.edits he fun _ _ n hf hn => hf n hn
  · exact h

theorem linksIn_applyNew (h : EveryNode (LinksIn N H) m) (hp : p.hasUsableSender = true)
    (hshown : ∀ a b, p.Shows (m.applyNew p now).1 a b → N a b ∧ H a b) :
    EveryNode (LinksIn N H) (m.applyNew p now).1 := by
  obtain ⟨m₀, m₁, told₁, m₂, told₂, m₃, told₃, m₄, told₄, _, hslot, e₁, e₂, e₃, e₄, hm, -⟩ :=
    m.applyNew_stages now hp
  have h₁ : EveryNode (LinksIn N H) m₁ := by
    have he := edits_hearSender m₀ p now
    rw [e₁] at he
    exact (linksIn_ensure (h.congr hslot.nodes) _ _ _).edits he fun _ _ _ hf hn => hn.senderEdit hf
  have h₂ : EveryNode (LinksIn N H) m₂ := by
    rcases m₁.hearRelay_cases p now with ⟨-, he⟩ | ⟨id, -, he, -⟩
    · obtain ⟨rfl, -⟩ := Prod.mk.inj (he.symm.trans e₂)
      exact h₁
    · rw [e₂] at he
      exact (linksIn_ensure h₁ _ _ _).edits he fun _ _ _ hf hn => hn.heardEdit hf
  have h₃ : EveryNode (LinksIn N H) m₃ := by
    have hgateway : EveryNode (LinksIn N H) (m₂.hearGateway p now).1 :=
      linksIn_hearGateway h₂ fun a hops ha => hshown a p.sender (.direct rfl hops ha)
    rw [e₃] at hgateway
    exact hgateway
  -- who is known is the same when the report is read and after the packet
  have hknown : ∀ id, (m.applyNew p now).1.nodes.contains id = m₃.nodes.contains id := by
    have he := edits_takePayload m₃ p (m.resolveChannel p.channelName p.channelIndex).2 now
    rw [e₄] at he
    rw [hm]
    exact he.contains
  have h₄ : EveryNode (LinksIn N H) m₄ := by
    have hpayload : EveryNode (LinksIn N H)
        (m₃.takePayload p (m.resolveChannel p.channelName p.channelIndex).2 now).1 := by
      refine linksIn_takePayload h₃ _ fun r hr b hb => ?_
      exact hshown (m₃.reporterOf p.sender r) b (.report hr hb (by simp only [reporterOf, hknown]))
    rw [e₄] at hpayload
    exact hpayload
  rw [hm]
  exact h₄.congr rfl

/-- **A packet** that was not seen before adds the links that it shows, and any other packet
adds none. -/
theorem linksIn_apply (h : EveryNode (LinksIn N H) m)
    (hshown : m.isRepeated p now = false →
      ∀ a b, p.Shows (m.apply p now).1 a b → N a b ∧ H a b) :
    EveryNode (LinksIn N H) (m.apply p now).1 := by
  obtain ⟨dedup, ⟨-, he⟩ | ⟨hnew, he⟩⟩ := m.apply_cases p now
  · rw [he]
    exact h.congr rfl
  · have hshown := hshown hnew
    rw [he] at hshown ⊢
    have hstart : EveryNode (LinksIn N H) { m with dedup := dedup } := h.congr rfl
    cases hp : p.hasUsableSender with
    | false =>
      rw [applyNew_unusable hp]
      exact hstart
    | true => exact linksIn_applyNew hstart hp hshown

theorem linksIn_updateNode (h : EveryNode (LinksIn N H) m) (id : NodeId) (u : NodeUpdate)
    (now : Moment) : EveryNode (LinksIn N H) (m.updateNode id u now).1 := by
  rcases m.updateNode_cases id u now with ⟨-, he⟩ | ⟨-, he, -⟩
  · rw [he]
    exact h
  · refine (linksIn_ensure h _ _ _).edits he ?_
    rintro _ _ n ⟨-, rfl⟩ hn
    exact hn.of_kept rfl rfl

end Mesh

end MeshWatch
