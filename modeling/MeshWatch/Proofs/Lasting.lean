import MeshWatch.Proofs.EveryNode
import MeshWatch.Proofs.Plausibility
import MeshWatch.Proofs.TrafficSteps

/-!
# What traffic keeps

A value gets to a node by a packet or by the status of a gateway, and there are few ways
in which a node is edited then. The packets that are read are plausible. So what holds of
every new node, and is kept by each of these edits, holds of every node at any time.

- `Lasting`: the edits of nodes, each with what is known of the values that it takes.
- `Lasting.apply`, `Lasting.updateNode`: the operations of the traffic.
- `Monitor.feeds_perform`: what a step does to the mesh, `Monitor.after_keeps`: a run.
- `Monitor.lasting_after`: what lasts holds of every node after any traffic.
-/

namespace MeshWatch

/-! ## Ids of nodes -/

/-- An id that is kept for a node, and stands for neither none nor all of them. -/
def NodeId.IsNode (id : NodeId) : Prop := id ≠ unknown ∧ id ≠ broadcast

theorem NodeId.isNode_iff (id : NodeId) :
    id.IsNode ↔ (id.isUnknown || id.isBroadcast) = false := by
  simp [IsNode, isUnknown, isBroadcast]

theorem NodeId.isNode_of_isAddressable {id : NodeId} (h : id.isAddressable = true) :
    id.IsNode := by
  rw [isNode_iff]
  simp only [isAddressable, Bool.and_eq_true, Bool.not_eq_true'] at h
  rw [h.1.1, h.1.2, Bool.or_self]

theorem Packet.hasUsableSender_iff (p : Packet) :
    p.hasUsableSender = true ↔ p.sender.IsNode := by
  simp [hasUsableSender, NodeId.IsNode, NodeId.isUnknown, NodeId.isBroadcast]

theorem Packet.Plausible.nodeUpdate {p : Packet} (h : p.Plausible) :
    ∀ r ∈ p.nodeUpdate.telemetry, r.Plausible := by
  intro r hr
  have hpayload := h.payload
  unfold Packet.nodeUpdate at hr
  cases hp : p.payload with
  | telemetry report =>
    rw [hp] at hr hpayload
    cases hr
    exact hpayload
  | _ =>
    rw [hp] at hr
    cases hr

namespace Mesh

/-- A property that new nodes have and that the edits of a packet or a status keep. -/
structure Lasting (Q : NodeId → Node → Prop) : Prop where
  new : ∀ {id}, id.IsNode → ∀ now, Q id (Node.new id now)
  heardAt : ∀ {id n} now, Q id n → Q id (n.heardAt now)
  update : ∀ {id n u}, (∀ r ∈ u.telemetry, r.Plausible) → ∀ now, Q id n → Q id (n.update u now)
  takeHeader : ∀ {id n p}, Packet.Plausible p → ∀ now, Q id n → Q id (n.takeHeader p now)
  forgetRoute : ∀ {id n} routeId, Q id n → Q id (n.forgetRoute routeId)
  rememberRoute : ∀ {id n} routeId, Q id n → Q id (n.rememberRoute routeId)
  hears : ∀ {id n i}, i.IsNode → i ≠ id → Q id n → Q id (n.hears i)
  isHeardBy : ∀ {id n i}, i.IsNode → i ≠ id → Q id n → Q id (n.isHeardBy i)

variable {Q : NodeId → Node → Prop} {m : Mesh} {p : Packet} {id : NodeId} {f : Node → Node}
  {n : Node} {now : Moment}

namespace Lasting

/-! ## Edits -/

theorem hears_all (hQ : Lasting Q) {ids : List NodeId} (hids : ∀ i ∈ ids, i.IsNode ∧ i ≠ id)
    (h : Q id n) : Q id (ids.foldl Node.hears n) := by
  induction ids generalizing n with
  | nil => exact h
  | cons i ids ih =>
    obtain ⟨⟨hi, hne⟩, hids⟩ := List.forall_mem_cons.1 hids
    rw [List.foldl_cons]
    exact ih hids (hQ.hears hi hne h)

theorem senderEdit (hQ : Lasting Q) (hp : p.Plausible) (hf : SenderEdit p now id f) (h : Q id n) :
    Q id (f n) := by
  obtain ⟨-, rfl | rfl⟩ := hf
  · exact hQ.update hp.nodeUpdate now h
  · exact hQ.takeHeader hp now h

theorem heardEdit (hQ : Lasting Q) {node : NodeId} (hf : HeardEdit node now id f) (h : Q id n) :
    Q id (f n) := by
  obtain ⟨-, rfl⟩ := hf
  exact hQ.heardAt now h

theorem gatewayEdit (hQ : Lasting Q) {gateway : NodeId} (hs : p.sender.IsNode)
    (hg : gateway.IsNode) (hne : gateway ≠ p.sender) (hf : GatewayEdit p gateway now id f)
    (h : Q id n) : Q id (f n) := by
  rcases hf with hf | ⟨rfl, rfl⟩ | ⟨rfl, rfl⟩
  · exact hQ.heardEdit hf h
  · exact hQ.hears hs hne.symm h
  · exact hQ.isHeardBy hg hne h

theorem routeEdit (hQ : Lasting Q) (hf : RouteEdit id f) (h : Q id n) : Q id (f n) := by
  obtain ⟨routeId, rfl | rfl⟩ := hf
  · exact hQ.forgetRoute routeId h
  · exact hQ.rememberRoute routeId h

theorem neighborEdit (hQ : Lasting Q) {reporter : NodeId} (hr : reporter.IsNode)
    (hf : NeighborEdit reporter id f) (h : Q id n) : Q id (f n) := by
  rcases hf with ⟨ids, hids, rfl, rfl⟩ | ⟨-, hne, rfl⟩
  · exact hQ.hears_all (fun i hi => ⟨NodeId.isNode_of_isAddressable (hids i hi).1, (hids i hi).2⟩) h
  · exact hQ.isHeardBy hr hne.symm h

end Lasting

/-- A report is taken for one of the sender, unless it names a node. -/
theorem isNode_reporterOf {sender : NodeId} (hs : sender.IsNode) (r : NeighborReport) :
    (m.reporterOf sender r).IsNode := by
  unfold reporterOf
  split
  · split
    · next h => exact NodeId.isNode_of_isAddressable (Bool.and_eq_true_iff.1 h).1
    · exact hs
  · exact hs

namespace Lasting

theorem payloadEdit (hQ : Lasting Q) (hs : p.sender.IsNode) (hf : PayloadEdit m p id f)
    (h : Q id n) : Q id (f n) := by
  rcases hf with hf | ⟨r, hf⟩
  · exact hQ.routeEdit hf h
  · exact hQ.neighborEdit (isNode_reporterOf hs r) hf h

/-! ## Operations -/

theorem hearSender (hQ : Lasting Q) (h : EveryNode Q m) (hp : p.Plausible)
    (hs : p.sender.IsNode) (now : Moment) : EveryNode Q (m.hearSender p now).1 :=
  (h.ensure (hQ.new hs now)).edits (edits_hearSender m p now) fun _ _ _ hf hn =>
    hQ.senderEdit hp hf hn

theorem hearRelay (hQ : Lasting Q) (h : EveryNode Q m) (p : Packet) (now : Moment) :
    EveryNode Q (m.hearRelay p now).1 := by
  rcases m.hearRelay_cases p now with ⟨-, he⟩ | ⟨id, hr, he, -⟩
  · rw [he]
    exact h
  · have hid : id.IsNode := NodeId.isNode_of_isAddressable (relayNode?_spec hr).2
    exact (h.ensure (hQ.new hid now)).edits he fun _ _ _ hf hn => hQ.heardEdit hf hn

theorem hearGateway (hQ : Lasting Q) (h : EveryNode Q m) (hs : p.sender.IsNode)
    (now : Moment) : EveryNode Q (m.hearGateway p now).1 := by
  rcases m.hearGateway_cases p now with ⟨-, he⟩ | ⟨id, hg, he, -⟩
  · rw [he]
    exact h
  · obtain ⟨hne, haddr⟩ := gatewayNode?_spec hg
    have hid : id.IsNode := NodeId.isNode_of_isAddressable haddr
    exact (h.ensure (hQ.new hid now)).edits he fun _ _ _ hf hn => hQ.gatewayEdit hs hid hne hf hn

theorem takePayload (hQ : Lasting Q) (h : EveryNode Q m) (hs : p.sender.IsNode)
    (channel : UInt32) (now : Moment) : EveryNode Q (m.takePayload p channel now).1 := by
  have hedits := h.edits (edits_takePayload m p channel now) fun _ _ _ hf hn =>
    hQ.payloadEdit hs hf hn
  exact hedits.congr rfl

/-- Each stage of a plausible packet keeps what lasts. -/
theorem applyNew (hQ : Lasting Q) (h : EveryNode Q m) (hp : p.Plausible) (now : Moment) :
    EveryNode Q (m.applyNew p now).1 := by
  by_cases husable : p.hasUsableSender = true
  · have hs : p.sender.IsNode := p.hasUsableSender_iff.1 husable
    -- only the stage of the sender uses that the packet is plausible
    refine applyNew_of_stages m now husable (fun m₀ hslot => ?_) (fun m' h' => ?_)
      (fun m' h' => ?_) (fun m' channel h' => ?_) fun m' h' => h'.congr rfl
    · exact hQ.hearSender (h.congr hslot.nodes) hp hs now
    · exact hQ.hearRelay h' p now
    · exact hQ.hearGateway h' hs now
    · exact hQ.takePayload h' hs channel now
  · rw [applyNew_unusable (Bool.eq_false_iff.2 husable)]
    exact h

theorem apply (hQ : Lasting Q) (h : EveryNode Q m) (hp : p.Plausible) (now : Moment) :
    EveryNode Q (m.apply p now).1 := by
  obtain ⟨dedup, ⟨-, he⟩ | ⟨-, he⟩⟩ := m.apply_cases p now
  · rw [he]
    exact h.congr rfl
  · rw [he]
    have h' : EveryNode Q { m with dedup := dedup } := h.congr rfl
    exact hQ.applyNew h' hp now

theorem updateNode (hQ : Lasting Q) (h : EveryNode Q m) {u : NodeUpdate}
    (hu : ∀ r ∈ u.telemetry, r.Plausible) (id : NodeId) (now : Moment) :
    EveryNode Q (m.updateNode id u now).1 := by
  rcases m.updateNode_cases id u now with ⟨-, he⟩ | ⟨hid, he, -⟩
  · rw [he]
    exact h
  · refine (h.ensure (hQ.new ((NodeId.isNode_iff id).2 hid) now)).edits he ?_
    rintro i f n ⟨-, rfl⟩ hn
    exact hQ.update hu now hn

end Lasting

theorem EveryNode.sweep (h : EveryNode Q m) (now : Moment) : EveryNode Q (m.sweep now).1 :=
  h.fewer (Fewer.trans (fewer_removeNodes _ _) (fewer_removeNodes _ _))

end Mesh

/-! ## Traffic -/

namespace Monitor

open Mesh (EveryNode Lasting)

/-- What one step may do to a mesh. -/
inductive Feeds (now : Moment) : Mesh → Mesh → Prop where
  | nothing (m : Mesh) : Feeds now m m
  | packet (m : Mesh) {p : Packet} (hp : p.Plausible) : Feeds now m (m.apply p now).1
  | status (m : Mesh) (id : NodeId) : Feeds now m (m.updateNode id {} now).1
  | sweep (m : Mesh) : Feeds now m (m.sweep now).1

theorem plausible_of_operation? {s : Step} {r : Receiver} {p : Packet} {now : Moment}
    (h : s.operation? r = some ⟨.packet p, now⟩) : p.Plausible := by
  obtain ⟨topic, body, tick, -, hp⟩ := exists_message_of_packet h
  exact Receiver.plausible_packetOf hp

/-- **One step.** A message brings a plausible packet to the mesh, or the news that a node
was heard, or nothing. -/
theorem feeds_perform (m : Monitor) (s : Step) : Feeds s.now m.mesh (m.perform s).1.mesh := by
  have hdoes := m.does_perform s
  cases hop : s.operation? m.receiver with
  | none =>
    rw [hop] at hdoes
    rw [hdoes.1]
    exact .nothing m.mesh
  | some op =>
    rw [hop] at hdoes
    rw [hdoes.1]
    rcases operation?_cases hop with ⟨p, rfl⟩ | ⟨id, rfl⟩ | rfl
    · exact .packet m.mesh (plausible_of_operation? hop)
    · exact .status m.mesh id
    · exact .sweep m.mesh

/-- **A run.** What a step keeps is kept by any traffic. -/
theorem after_keeps {P : Mesh → Prop} (h : ∀ {now m m'}, Feeds now m m' → P m → P m')
    (steps : List Step) : ∀ m : Monitor, P m.mesh → P (m.after steps).mesh := by
  induction steps with
  | nil => exact fun _ hm => hm
  | cons s steps ih => exact fun m hm => ih _ (h (feeds_perform m s) hm)

theorem lasting_feeds {Q : NodeId → Node → Prop} (hQ : Lasting Q) {now : Moment} {m m' : Mesh}
    (h : Feeds now m m') (hm : EveryNode Q m) : EveryNode Q m' := by
  cases h with
  | nothing => exact hm
  | packet hp => exact hQ.apply hm hp now
  | status id => exact hQ.updateNode hm (fun _ hr => by cases hr) id now
  | sweep => exact hm.sweep now

theorem lasting_after {Q : NodeId → Node → Prop} (hQ : Lasting Q) (steps : List Step) :
    ∀ m : Monitor, EveryNode Q m.mesh → EveryNode Q (m.after steps).mesh :=
  after_keeps (lasting_feeds hQ) steps

end Monitor

end MeshWatch
