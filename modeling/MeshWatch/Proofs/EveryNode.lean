import MeshWatch.Mesh.Operation

/-!
# What a step can do to the nodes

Nodes change in three ways: a node that is heard is stored if it was not, single nodes
are edited, and nodes are removed. What all nodes have in common, and what nothing but
hearing changes, follows for each operation from the ways that it uses.

- `Edits`: single nodes were edited, by changes of some kind, and little else was done.
  `edits_updateRoute`, `edits_updateNeighbors_of`: the edits of a route and of a report of
  neighbors.
- `updateNode_cases`, `hearRelay_cases`, `hearGateway_cases`: what was done, if anything.
- `applyNew_stages`: a packet, stage by stage.
- `makeRoom_keeps`: what removing one node keeps is kept while room is made.
- `EveryNode.edits`, `EveryNode.ensure`, `EveryNode.fewer`: what holds of every node
  is kept if each edit keeps it and new nodes have it.
- `OffNodes.ensure`: the limits and the messages have no part in it.
-/

namespace MeshWatch.Mesh

variable {m : Mesh}

/-! ## The node under an id -/

theorem getElem?_modifyNode (m : Mesh) (id id' : NodeId) (f : Node → Node) :
    (m.modifyNode id f).nodes[id']?
      = if id = id' then (m.nodes[id']?).map f else m.nodes[id']? := by
  show (m.nodes.modify id f)[id']? = _
  rw [Std.ExtTreeMap.getElem?_modify]
  by_cases he : id = id'
  · subst he
    simp
  · have hc : compare id id' ≠ .eq := fun hc => he (Std.LawfulEqOrd.eq_of_compare hc)
    rw [if_neg hc, if_neg he]

theorem getElem?_removeNode (m : Mesh) (id id' : NodeId) :
    (m.removeNode id).nodes[id']? = if id = id' then none else m.nodes[id']? := by
  rw [nodes_removeNode, Std.ExtTreeMap.getElem?_erase]
  by_cases he : id = id'
  · subst he
    simp
  · have hc : compare id id' ≠ .eq := fun hc => he (Std.LawfulEqOrd.eq_of_compare hc)
    rw [if_neg hc, if_neg he]

theorem nodes_sight (m : Mesh) (id : NodeId) (now : Moment) :
    (m.sight id now).nodes = m.nodes.insertIfNew id (Node.new id now) := by
  unfold sight
  split
  · rfl
  · rfl

theorem getElem?_sight (m : Mesh) (id id' : NodeId) (now : Moment) :
    (m.sight id now).nodes[id']?
      = if id = id' ∧ m.nodes.contains id = false then some (Node.new id now)
        else m.nodes[id']? := by
  rw [nodes_sight, Std.ExtTreeMap.getElem?_insertIfNew]
  by_cases he : id = id'
  · subst he
    simp [Std.ExtTreeMap.contains_iff_mem, ← Bool.not_eq_true]
  · have hc : compare id id' ≠ .eq := fun hc => he (Std.LawfulEqOrd.eq_of_compare hc)
    simp [hc, he]

theorem getElem?_sight_of_ne {id id' : NodeId} (h : id' ≠ id) (now : Moment) :
    (m.sight id now).nodes[id']? = m.nodes[id']? := by
  rw [getElem?_sight, if_neg fun he => h he.1.symm]

theorem size_sight (m : Mesh) (id : NodeId) (now : Moment) :
    (m.sight id now).nodes.size
      = if m.nodes.contains id then m.nodes.size else m.nodes.size + 1 := by
  rw [nodes_sight, Std.ExtTreeMap.size_insertIfNew]
  cases h : m.nodes.contains id with
  | true => rw [if_pos (Std.ExtTreeMap.mem_iff_contains.2 h), if_pos rfl]
  | false =>
    have hnot : id ∉ m.nodes := by
      rw [Std.ExtTreeMap.mem_iff_contains, h]
      exact nofun
    rw [if_neg hnot, if_neg nofun]

theorem contains_iff (m : Mesh) (id : NodeId) :
    m.nodes.contains id = true ↔ ∃ n, m.nodes[id]? = some n := by
  rw [Std.ExtTreeMap.contains_eq_isSome_getElem?, Option.isSome_iff_exists]

theorem contains_sight_iff (m : Mesh) (id id' : NodeId) (now : Moment) :
    (m.sight id now).nodes.contains id' = true ↔ m.nodes.contains id' = true ∨ id' = id := by
  rw [contains_iff, contains_iff, getElem?_sight]
  by_cases he : id = id'
  · subst he
    cases hc : m.nodes.contains id with
    | true => simpa using (m.contains_iff id).1 hc
    | false => simp
  · simp [he, Ne.symm he]

theorem contains_removeNode (m : Mesh) (id id' : NodeId) :
    (m.removeNode id).nodes.contains id' = true ↔ m.nodes.contains id' = true ∧ id' ≠ id := by
  rw [contains_iff, contains_iff, getElem?_removeNode]
  by_cases he : id = id'
  · simp [he]
  · simp [he, Ne.symm he]

theorem contains_modifyNode (m : Mesh) (id id' : NodeId) (f : Node → Node) :
    (m.modifyNode id f).nodes.contains id' = m.nodes.contains id' := by
  exact Std.ExtTreeMap.contains_modify

/-! ## Edits -/

/-- At most slots, routes and the time of the last update are different. -/
structure Framed (m m' : Mesh) : Prop where
  nodes : m'.nodes = m.nodes
  sightings : m'.sightings = m.sightings
  limits : m'.limits = m.limits
  messages : m'.messages = m.messages
  dedup : m'.dedup = m.dedup

/-- A kind of changes of the node that is stored under an id. -/
abbrev Edit := NodeId → (Node → Node) → Prop

/-- Single nodes were changed, each by a change of the kind `P`, and apart from that the
mesh was framed. -/
inductive Edits (P : Edit) : Mesh → Mesh → Prop where
  | frame {m m' : Mesh} (h : Framed m m') : Edits P m m'
  | modify (m : Mesh) {id : NodeId} {f : Node → Node} (h : P id f) :
    Edits P m (m.modifyNode id f)
  | trans {m m₁ m₂ : Mesh} (h : Edits P m m₁) (h' : Edits P m₁ m₂) : Edits P m m₂

variable {P : Edit} {m' : Mesh}

theorem Edits.refl (m : Mesh) : Edits P m m := .frame ⟨rfl, rfl, rfl, rfl, rfl⟩

theorem Edits.imp {R : Edit} (h : Edits P m m') (himp : ∀ id f, P id f → R id f) :
    Edits R m m' := by
  induction h with
  | frame h => exact .frame h
  | modify m h => exact .modify m (himp _ _ h)
  | trans _ _ ih ih' => exact .trans ih ih'

theorem Edits.sightings (h : Edits P m m') : m'.sightings = m.sightings := by
  induction h with
  | frame h => exact h.sightings
  | modify => rfl
  | trans _ _ ih ih' => exact ih'.trans ih

theorem Edits.limits (h : Edits P m m') : m'.limits = m.limits := by
  induction h with
  | frame h => exact h.limits
  | modify => rfl
  | trans _ _ ih ih' => exact ih'.trans ih

theorem Edits.messages (h : Edits P m m') : m'.messages = m.messages := by
  induction h with
  | frame h => exact h.messages
  | modify => rfl
  | trans _ _ ih ih' => exact ih'.trans ih

theorem Edits.contains (h : Edits P m m') (id : NodeId) :
    m'.nodes.contains id = m.nodes.contains id := by
  induction h with
  | frame h => rw [h.nodes]
  | modify m => exact contains_modifyNode m _ id _
  | trans _ _ ih ih' => exact ih'.trans ih

theorem Edits.size (h : Edits P m m') : m'.nodes.size = m.nodes.size := by
  induction h with
  | frame h => rw [h.nodes]
  | modify => exact Std.ExtTreeMap.size_modify
  | trans _ _ ih ih' => exact ih'.trans ih

/-- What every edit leaves alone is left alone. -/
theorem Edits.map_getElem? {α : Type} {view : Node → α} {id : NodeId} (h : Edits P m m')
    (hP : ∀ f n, P id f → view (f n) = view n) :
    (m'.nodes[id]?).map view = (m.nodes[id]?).map view := by
  induction h with
  | frame h => rw [h.nodes]
  | @modify m i f hf =>
    rw [getElem?_modifyNode]
    split
    · next he =>
      subst he
      cases m.nodes[i]? with
      | none => rfl
      | some n => exact congrArg some (hP f n hf)
    · rfl
  | trans _ _ ih ih' => exact ih'.trans ih

/-- A route is noted on its destination, and notes of others are dropped. -/
def RouteEdit : Edit := fun _ f => ∃ routeId, f = (·.forgetRoute routeId) ∨ f = (·.rememberRoute routeId)

theorem edits_removeRoute (m : Mesh) (destination : NodeId) :
    Edits RouteEdit m (m.removeRoute destination) := by
  unfold removeRoute
  split
  · exact (Edits.modify m ⟨_, Or.inl rfl⟩).trans (.frame ⟨rfl, rfl, rfl, rfl, rfl⟩)
  · exact .refl m

theorem edits_makeRouteRoom (fuel : Nat) : ∀ m : Mesh, Edits RouteEdit m (makeRouteRoom fuel m) := by
  induction fuel with
  | zero => exact Edits.refl
  | succ fuel ih =>
    intro m
    rw [makeRouteRoom]
    split
    · exact .refl m
    · split
      · exact (edits_removeRoute m _).trans (ih _)
      · exact .refl m

theorem edits_updateRoute (m : Mesh) (r : Route) : Edits RouteEdit m (m.updateRoute r).1 := by
  unfold updateRoute
  split
  · -- first what the route takes the place of, then the route itself
    unfold storeRoute
    extract_lets m'
    have hroom : Edits RouteEdit m m' := by
      unfold m'
      split
      · exact .modify m ⟨_, Or.inl rfl⟩
      · exact edits_makeRouteRoom _ m
    exact (hroom.trans (.modify _ ⟨r.routeId, Or.inr rfl⟩)).trans
      (.frame ⟨rfl, rfl, rfl, rfl, rfl⟩)
  · exact .refl m

/-- A node hears nodes other than itself, and each of these is heard by it. -/
def NeighborEdit (reporter : NodeId) : Edit := fun id f =>
  (∃ ids : List NodeId, (∀ i ∈ ids, i.isAddressable = true ∧ i ≠ reporter) ∧ id = reporter ∧
    f = fun n => ids.foldl Node.hears n) ∨
  (id.isAddressable = true ∧ id ≠ reporter ∧ f = (·.isHeardBy reporter))

/-- A report is the edit of its reporter, which hears the nodes that it lists, and then those
of each node that is heard by it. -/
theorem edits_updateNeighbors_of {reporter : NodeId} {entries : List NeighborEntry}
    (hreporter : ∀ ids : List NodeId, (∀ i ∈ ids, i ∈ entries.map NeighborEntry.nodeId ∧
      i.isAddressable = true ∧ i ≠ reporter) → P reporter fun n => ids.foldl Node.hears n)
    (hlisted : ∀ i ∈ entries.map NeighborEntry.nodeId, i.isAddressable = true → i ≠ reporter →
      P i (·.isHeardBy reporter)) (m : Mesh) :
    Edits P m (m.updateNeighbors reporter entries) := by
  have hids : ∀ i ∈ (entries.map NeighborEntry.nodeId).filter
      (fun id => id.isAddressable && id != reporter), i ∈ entries.map NeighborEntry.nodeId ∧
        i.isAddressable = true ∧ i ≠ reporter := by
    intro i hi
    obtain ⟨hlisted, hi⟩ := List.mem_filter.1 hi
    exact ⟨hlisted, by simpa using hi⟩
  have hheard : ∀ (ids : List NodeId), (∀ i ∈ ids, P i (·.isHeardBy reporter)) →
      ∀ m : Mesh, Edits P m
        (ids.foldl (fun m id => m.modifyNode id fun n => n.isHeardBy reporter) m) := by
    intro ids
    induction ids with
    | nil => intro _; exact Edits.refl
    | cons id ids ih =>
      intro h m
      exact (Edits.modify m (h id (List.mem_cons_self ..))).trans
        (ih (fun i hi => h i (List.mem_cons_of_mem _ hi)) _)
  exact (Edits.modify m (hreporter _ hids)).trans
    (hheard _ (fun i hi => hlisted i (hids i hi).1 (hids i hi).2.1 (hids i hi).2.2) _)

theorem edits_updateNeighbors (m : Mesh) (reporter : NodeId) (entries : List NeighborEntry) :
    Edits (NeighborEdit reporter) m (m.updateNeighbors reporter entries) :=
  edits_updateNeighbors_of (fun ids hids => Or.inl ⟨ids, fun i hi => (hids i hi).2, rfl, rfl⟩)
    (fun _ _ haddr hne => Or.inr ⟨haddr, hne, rfl⟩) m

/-- A slot is found for a packet without a look at the nodes. -/
theorem framed_resolveChannel (m : Mesh) (name : String) (index : UInt32) :
    Framed m (m.resolveChannel name index).1 := by
  rcases m.resolveChannel_cases name index with he | ⟨c, -, he⟩
  · rw [he]
    exact ⟨rfl, rfl, rfl, rfl, rfl⟩
  · rw [he]
    exact ⟨rfl, rfl, rfl, rfl, rfl⟩

/-! ### The stages of a packet -/

/-- What a packet tells about its sender. -/
def SenderEdit (p : Packet) (now : Moment) : Edit := fun id f =>
  id = p.sender ∧ (f = (·.update p.nodeUpdate now) ∨ f = (·.takeHeader p now))

/-- A relay, or a gateway that did not hear the sender itself, was heard. -/
def HeardEdit (node : NodeId) (now : Moment) : Edit := fun id f =>
  id = node ∧ f = (·.heardAt now)

/-- A gateway was heard, and it may be a neighbor of the sender. -/
def GatewayEdit (p : Packet) (gateway : NodeId) (now : Moment) : Edit := fun id f =>
  HeardEdit gateway now id f ∨ (id = gateway ∧ f = (·.hears p.sender)) ∨
    (id = p.sender ∧ f = (·.isHeardBy gateway))

/-- What the body of a packet says about nodes. -/
def PayloadEdit (m : Mesh) (p : Packet) : Edit := fun id f =>
  RouteEdit id f ∨ ∃ r, NeighborEdit (m.reporterOf p.sender r) id f

/-- An id of no node is refused, and any other one is stored and updated. -/
theorem updateNode_cases (m : Mesh) (id : NodeId) (u : NodeUpdate) (now : Moment) :
    ((id.isUnknown || id.isBroadcast) = true ∧ m.updateNode id u now = (m, [], false)) ∨
    ((id.isUnknown || id.isBroadcast) = false ∧
      Edits (fun i f => i = id ∧ f = (·.update u now)) (m.ensure id now [id]).1
        (m.updateNode id u now).1 ∧
      (m.updateNode id u now).2.1 = (m.ensure id now [id]).2
        ++ ((m.ensure id now [id]).1.applyUpdate id u now).2 ++ [.event (.nodeUpdated id)]) := by
  unfold updateNode
  cases hid : id.isUnknown || id.isBroadcast with
  | true => exact Or.inl ⟨rfl, rfl⟩
  | false =>
    rw [if_neg nofun]
    exact Or.inr ⟨rfl, (Edits.modify _ ⟨rfl, rfl⟩).trans (.frame ⟨rfl, rfl, rfl, rfl, rfl⟩), rfl⟩

theorem edits_hearSender (m : Mesh) (p : Packet) (now : Moment) :
    Edits (SenderEdit p now) (m.ensure p.sender now p.named).1 (m.hearSender p now).1 :=
  (Edits.modify _ ⟨rfl, Or.inl rfl⟩).trans (.modify _ ⟨rfl, Or.inr rfl⟩)

/-- The relay is stored and marked as heard, if there is one that can be a node. -/
theorem hearRelay_cases (m : Mesh) (p : Packet) (now : Moment) :
    (p.relayNode? = none ∧ m.hearRelay p now = (m, [])) ∨
    ∃ id, p.relayNode? = some id ∧
      Edits (HeardEdit id now) (m.ensure id now p.named).1 (m.hearRelay p now).1 ∧
      (m.hearRelay p now).2
        = (m.ensure id now p.named).2 ++ [.event (.nodeUpdated id)] := by
  unfold hearRelay
  cases p.relayNode? with
  | none => exact Or.inl ⟨rfl, rfl⟩
  | some id => exact Or.inr ⟨id, rfl, .modify _ ⟨rfl, rfl⟩, rfl⟩

/-- The gateway is stored and marked as heard, if there is one other than the sender, and
says nothing about it. -/
theorem hearGateway_cases (m : Mesh) (p : Packet) (now : Moment) :
    (p.gatewayNode? = none ∧ m.hearGateway p now = (m, [])) ∨
    ∃ id, p.gatewayNode? = some id ∧
      Edits (GatewayEdit p id now) (m.ensure id now p.named).1 (m.hearGateway p now).1 ∧
      (m.hearGateway p now).2 = (m.ensure id now p.named).2 := by
  unfold hearGateway
  cases p.gatewayNode? with
  | none => exact Or.inl ⟨rfl, rfl⟩
  | some id =>
    have hheard : Edits (GatewayEdit p id now) (m.ensure id now p.named).1
        ((m.ensure id now p.named).1.modifyNode id (·.heardAt now)) :=
      .modify _ (Or.inl ⟨rfl, rfl⟩)
    refine Or.inr ⟨id, rfl, ?_⟩
    dsimp only
    split
    · -- the gateway heard the sender itself, so each is a neighbor of the other
      exact ⟨(hheard.trans (.modify _ (Or.inr (Or.inl ⟨rfl, rfl⟩)))).trans
        (.modify _ (Or.inr (Or.inr ⟨rfl, rfl⟩))), rfl⟩
    · exact ⟨hheard, rfl⟩

/-- Apart from a message, a body has nothing but edits of nodes to it. -/
theorem edits_takePayload (m : Mesh) (p : Packet) (channel : UInt32) (now : Moment) :
    Edits (PayloadEdit m p) m
      { (m.takePayload p channel now).1 with messages := m.messages } := by
  have hkeep : ∀ {m' : Mesh}, Edits (PayloadEdit m p) m m' →
      Edits (PayloadEdit m p) m { m' with messages := m.messages } := by
    intro m' h
    exact h.trans (.frame ⟨rfl, rfl, rfl, h.messages.symm, rfl⟩)
  unfold takePayload
  split
  · exact .frame ⟨rfl, rfl, rfl, rfl, rfl⟩
  · exact hkeep ((edits_updateRoute m _).imp fun _ _ h => Or.inl h)
  · next r _ => exact hkeep ((edits_updateNeighbors m _ _).imp fun _ _ h => Or.inr ⟨r, h⟩)
  · exact hkeep (.refl m)

/-- **The stages of a packet.** Once its slot is found, a packet passes through four
stages, and at the end its sender was heard. -/
theorem applyNew_stages (m : Mesh) {p : Packet} (now : Moment) (hp : p.hasUsableSender = true) :
    ∃ m₀ m₁ told₁ m₂ told₂ m₃ told₃ m₄ told₄ taken,
      Framed m m₀ ∧ m₀.hearSender p now = (m₁, told₁) ∧ m₁.hearRelay p now = (m₂, told₂) ∧
      m₂.hearGateway p now = (m₃, told₃) ∧
      m₃.takePayload p (m.resolveChannel p.channelName p.channelIndex).2 now
        = (m₄, told₄, taken) ∧
      (m.applyNew p now).1 = { m₄ with lastUpdate := some now } ∧
      (m.applyNew p now).2.1
        = told₁ ++ told₂ ++ told₃ ++ told₄ ++ [.event (.nodeUpdated p.sender)] := by
  have hslot := framed_resolveChannel m p.channelName p.channelIndex
  unfold applyNew
  rw [if_pos hp]
  generalize m.resolveChannel p.channelName p.channelIndex = r at hslot
  obtain ⟨m₀, channel⟩ := r
  dsimp only at hslot ⊢
  cases h₁ : (m₀.touchChannel channel false now).hearSender p now with | mk m₁ told₁
  cases h₂ : m₁.hearRelay p now with | mk m₂ told₂
  cases h₃ : m₂.hearGateway p now with | mk m₃ told₃
  rcases h₄ : m₃.takePayload p channel now with ⟨m₄, told₄, taken⟩
  exact ⟨m₀.touchChannel channel false now, m₁, told₁, m₂, told₂, m₃, told₃, m₄, told₄, taken,
    ⟨hslot.nodes, hslot.sightings, hslot.limits, hslot.messages, hslot.dedup⟩, h₁, h₂, h₃, h₄,
    rfl, rfl⟩

/-- What the stage of the sender brings about, and the later ones keep, holds after a packet. -/
theorem applyNew_of_stages {Q : Mesh → Prop} (m : Mesh) {p : Packet} (now : Moment)
    (hp : p.hasUsableSender = true)
    (hsender : ∀ m₀, Framed m m₀ → Q (m₀.hearSender p now).1)
    (hrelay : ∀ m', Q m' → Q (m'.hearRelay p now).1)
    (hgateway : ∀ m', Q m' → Q (m'.hearGateway p now).1)
    (hpayload : ∀ m' channel, Q m' → Q (m'.takePayload p channel now).1)
    (hdone : ∀ m', Q m' → Q { m' with lastUpdate := some now }) : Q (m.applyNew p now).1 := by
  obtain ⟨m₀, m₁, told₁, m₂, told₂, m₃, told₃, m₄, told₄, _, hslot, e₁, e₂, e₃, e₄, hm, -⟩ :=
    m.applyNew_stages now hp
  have h₁ := hsender m₀ hslot
  rw [e₁] at h₁
  have h₂ := hrelay m₁ h₁
  rw [e₂] at h₂
  have h₃ := hgateway m₂ h₂
  rw [e₃] at h₃
  have h₄ := hpayload m₃ (m.resolveChannel p.channelName p.channelIndex).2 h₃
  rw [e₄] at h₄
  rw [hm]
  exact hdone m₄ h₄

/-! ## Every node -/

variable {Q : NodeId → Node → Prop}

/-- Every stored node has a property, which may depend on its id. -/
def EveryNode (Q : NodeId → Node → Prop) (m : Mesh) : Prop :=
  ∀ id n, m.nodes[id]? = some n → Q id n

theorem everyNode_new (Q : NodeId → Node → Prop) (limits : Limits) (primary : String)
    (orders : HashOrders) : EveryNode Q (new limits primary orders) := by
  intro id n h
  simp [new] at h

theorem EveryNode.congr (h : EveryNode Q m) (he : m'.nodes = m.nodes) : EveryNode Q m' := by
  unfold EveryNode
  rw [he]
  exact h

theorem EveryNode.modifyNode {id : NodeId} {f : Node → Node} (h : EveryNode Q m)
    (hf : ∀ n, Q id n → Q id (f n)) : EveryNode Q (m.modifyNode id f) := by
  intro id' n hn
  rw [getElem?_modifyNode] at hn
  split at hn
  · next he =>
    subst he
    obtain ⟨n', hn', rfl⟩ := Option.map_eq_some_iff.1 hn
    exact hf n' (h id n' hn')
  · exact h id' n hn

theorem EveryNode.edits (h : EveryNode Q m) (he : Edits P m m')
    (hP : ∀ id f n, P id f → Q id n → Q id (f n)) : EveryNode Q m' := by
  induction he with
  | frame hf => exact h.congr hf.nodes
  | modify m hf => exact h.modifyNode fun n => hP _ _ n hf
  | trans _ _ ih ih' => exact ih' (ih h)

/-! ## Removals -/

/-- Nothing is stored that was not stored before. -/
def Fewer (m' m : Mesh) : Prop :=
  ∀ (id : NodeId) (n : Node), m'.nodes[id]? = some n → m.nodes[id]? = some n

theorem Fewer.refl (m : Mesh) : Fewer m m := fun _ _ h => h

theorem Fewer.trans {m₁ m₂ m₃ : Mesh} (h : Fewer m₁ m₂) (h' : Fewer m₂ m₃) : Fewer m₁ m₃ :=
  fun id n hn => h' id n (h id n hn)

theorem EveryNode.fewer (h : EveryNode Q m) (hs : Fewer m' m) : EveryNode Q m' :=
  fun id n hn => h id n (hs id n hn)

theorem fewer_removeNode (m : Mesh) (id : NodeId) : Fewer (m.removeNode id) m := by
  intro id' n hn
  rw [getElem?_removeNode] at hn
  split at hn
  · cases hn
  · exact hn

theorem fewer_removeNodes (ids : List NodeId) : ∀ m : Mesh, Fewer (m.removeNodes ids) m := by
  induction ids with
  | nil => intro m; exact Fewer.refl m
  | cons id ids ih => intro m; exact (ih (m.removeNode id)).trans (fewer_removeNode m id)

/-- The search of the heap finds a node to remove, or leaves the nodes alone. -/
theorem removeOldest_eq (m : Mesh) (keep : List NodeId) : ∃ found rest,
    m.sightings.oldest m.isUpToDate keep.contains m.sightings.size [] = (found, rest) ∧
    m.removeOldest keep = match found with
      | some id => ({ m with sightings := rest }.removeNode id, some id)
      | none => ({ m with sightings := rest }, none) :=
  ⟨_, _, rfl, rfl⟩

theorem fewer_removeOldest (m : Mesh) (keep : List NodeId) : Fewer (m.removeOldest keep).1 m := by
  obtain ⟨found, rest, -, he⟩ := m.removeOldest_eq keep
  rw [he]
  cases found with
  | some id => exact fewer_removeNode { m with sightings := rest } id
  | none => exact Fewer.refl m

/-- What removing one old node keeps is kept while room is made. -/
theorem makeRoom_keeps {P : Mesh → Prop} {keep : List NodeId}
    (h : ∀ m, P m → P (m.removeOldest keep).1) (fuel : Nat) : ∀ {m : Mesh}, P m →
      P (makeRoom keep fuel m).1 := by
  induction fuel with
  | zero => intro m hm; exact hm
  | succ fuel ih =>
    intro m hm
    have hr := h m hm
    rw [makeRoom]
    split
    · exact hm
    · split
      · next he => rw [he] at hr; exact hr
      · next he => rw [he] at hr; exact ih hr

theorem announce_keeps {P : Mesh → Prop} {keep : List NodeId}
    (h : ∀ m, P m → P (m.removeOldest keep).1) {m : Mesh} (hm : P m) (id : NodeId) :
    P (m.announce id keep).1 := by
  unfold announce
  split
  · exact hm
  · exact makeRoom_keeps h _ hm

theorem fewer_makeRoom (keep : List NodeId) (fuel : Nat) (m : Mesh) :
    Fewer (makeRoom keep fuel m).1 m :=
  makeRoom_keeps (fun m' h => (fewer_removeOldest m' keep).trans h) fuel (Fewer.refl m)

theorem fewer_announce (m : Mesh) (id : NodeId) (keep : List NodeId) :
    Fewer (m.announce id keep).1 m :=
  announce_keeps (fun m' h => (fewer_removeOldest m' keep).trans h) (Fewer.refl m) id

/-! ## Hearing a node -/

theorem EveryNode.sight {id : NodeId} {now : Moment} (h : EveryNode Q m)
    (hnew : Q id (Node.new id now)) : EveryNode Q (m.sight id now) := by
  intro id' n hn
  rw [getElem?_sight] at hn
  split at hn
  · next he =>
    obtain ⟨rfl, -⟩ := he
    cases hn
    exact hnew
  · exact h id' n hn

theorem EveryNode.ensure {id : NodeId} {now : Moment} {keep : List NodeId} (h : EveryNode Q m)
    (hnew : Q id (Node.new id now)) : EveryNode Q (m.ensure id now keep).1 :=
  (h.fewer (fewer_announce m id keep)).sight hnew

/-! ## What is not about nodes -/

/-- Something about a mesh that nodes, routes and sightings have no part in. -/
def OffNodes {α : Type} (view : Mesh → α) : Prop :=
  ∀ (m : Mesh) nodes routes sightings,
    view { m with nodes := nodes, routes := routes, sightings := sightings } = view m

theorem limits_offNodes : OffNodes Mesh.limits := fun _ _ _ _ => rfl

theorem messages_offNodes : OffNodes Mesh.messages := fun _ _ _ _ => rfl

section OffNodes

variable {α : Type} {view : Mesh → α}

theorem OffNodes.removeNodes (h : OffNodes view) (ids : List NodeId) : ∀ m : Mesh,
    view (m.removeNodes ids) = view m := by
  induction ids with
  | nil => intro m; rfl
  | cons id ids ih =>
    intro m
    exact (ih (m.removeNode id)).trans (h m (m.nodes.erase id) (m.routes.erase id) m.sightings)

theorem OffNodes.removeOldest (h : OffNodes view) (m : Mesh) (keep : List NodeId) :
    view (m.removeOldest keep).1 = view m := by
  obtain ⟨found, rest, -, he⟩ := m.removeOldest_eq keep
  rw [he]
  cases found with
  | some id => exact h m (m.nodes.erase id) (m.routes.erase id) rest
  | none => exact h m m.nodes m.routes rest

theorem OffNodes.makeRoom (h : OffNodes view) (keep : List NodeId) (fuel : Nat) (m : Mesh) :
    view (makeRoom keep fuel m).1 = view m :=
  makeRoom_keeps (P := fun m' => view m' = view m)
    (fun m' he => (h.removeOldest m' keep).trans he) fuel rfl

theorem OffNodes.sight (h : OffNodes view) (m : Mesh) (id : NodeId) (now : Moment) :
    view (m.sight id now) = view m := by
  unfold Mesh.sight
  split
  · exact h m _ m.routes _
  · exact h m _ m.routes _

theorem OffNodes.ensure (h : OffNodes view) (m : Mesh) (id : NodeId) (now : Moment)
    (keep : List NodeId) : view (m.ensure id now keep).1 = view m :=
  (h.sight ..).trans (announce_keeps (P := fun m' => view m' = view m)
    (fun m' he => (h.removeOldest m' keep).trans he) rfl id)

end OffNodes

end MeshWatch.Mesh
