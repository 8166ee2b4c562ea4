import MeshWatch.Proofs.Carried
import MeshWatch.Proofs.StoredState

/-!
# Routes noted on nodes

The id of a route is noted on the node to which it leads, apart from the table in which
the route is stored. A route that is taken, one that gives way to a better one or to a
newer one, and a node that is removed change both. So the two never tell of different
routes, as long as routes are given to nodes only.

- `RoutesNoted`: the notes are those of the table, and every stored route leads to a node.
- `RoutesNoted.removeNode`, `RoutesNoted.removeRoute`, `RoutesNoted.noted`: what goes from
  both, and what comes to both.
- `RoutesNoted.apply`, `RoutesNoted.perform`: packets, and the other operations.
- `routes_follow_table`: any run of them.
-/

namespace MeshWatch

namespace Node

theorem routes_takeHeader (n : Node) (p : Packet) (now : Moment) :
    (n.takeHeader p now).routes = n.routes := by
  refine takeHeader_keeps (Q := fun n' => n'.routes = n.routes) rfl ?_ ?_ ?_
  · exact fun _ _ h => h
  · exact fun _ _ _ h => h
  · exact fun _ _ _ h => h

theorem routes_hears (n : Node) (id : NodeId) : (n.hears id).routes = n.routes := by
  simp only [hears]

theorem routes_isHeardBy (n : Node) (id : NodeId) : (n.isHeardBy id).routes = n.routes := by
  simp only [isHeardBy]

theorem routes_hears_all (ids : List NodeId) : ∀ n : Node,
    (ids.foldl hears n).routes = n.routes := by
  induction ids with
  | nil => exact fun _ => rfl
  | cons id ids ih =>
    intro n
    rw [List.foldl_cons, ih, routes_hears]

end Node

namespace Mesh

variable {m m' : Mesh}

/-- What the table says of the routes to a node: the id of the one route, or nothing. -/
def routeIdsTo (m : Mesh) (id : NodeId) : List String :=
  (m.routes[id]?.map Route.routeId).toList

theorem routeIdsTo_congr {id : NodeId} (h : m'.routes[id]? = m.routes[id]?) :
    m'.routeIdsTo id = m.routeIdsTo id := by
  unfold routeIdsTo
  rw [h]

/-- Every route lies under its destination, which is a node, and every node lists the
routes to it. -/
structure RoutesNoted (m : Mesh) : Prop where
  destination : ∀ (id : NodeId) (r : Route), m.routes[id]? = some r →
    r.destination = id ∧ m.nodes.contains id = true
  notes : ∀ (id : NodeId) (n : Node), m.nodes[id]? = some n → n.routes = m.routeIdsTo id

theorem routesNoted_new (limits : Limits) (primary : String) (orders : HashOrders) :
    RoutesNoted (new limits primary orders) where
  destination id r hr := by simp [new] at hr
  notes id n hn := by simp [new] at hn

namespace RoutesNoted

theorem congr (h : RoutesNoted m) (hn : m'.nodes = m.nodes) (hr : m'.routes = m.routes) :
    RoutesNoted m' where
  destination := by
    rw [hn, hr]
    exact h.destination
  notes := by
    rw [hn]
    intro id n hid
    rw [routeIdsTo_congr (m := m) (by rw [hr])]
    exact h.notes id n hid

/-- No route leads to a node that is not stored. -/
theorem getElem?_routes_of_not_contains (h : RoutesNoted m) {id : NodeId}
    (hid : m.nodes.contains id = false) : m.routes[id]? = none := by
  cases hr : m.routes[id]? with
  | none => rfl
  | some r =>
    rw [(h.destination id r hr).2] at hid
    cases hid

/-! ### Nodes -/

theorem modifyNode (h : RoutesNoted m) (id : NodeId) {f : Node → Node}
    (hf : ∀ n, (f n).routes = n.routes) : RoutesNoted (m.modifyNode id f) where
  destination i r hr := by
    rw [contains_modifyNode]
    exact h.destination i r hr
  notes i n hn := by
    rw [getElem?_modifyNode] at hn
    split at hn
    · obtain ⟨n', hn', rfl⟩ := Option.map_eq_some_iff.1 hn
      rw [hf]
      exact h.notes i n' hn'
    · exact h.notes i n hn

/-- A node that is removed takes the route to it along. -/
theorem removeNode (h : RoutesNoted m) (id : NodeId) : RoutesNoted (m.removeNode id) := by
  have hroutes : ∀ i : NodeId, i ≠ id → (m.removeNode id).routes[i]? = m.routes[i]? := by
    intro i hi
    rw [routes_removeNode, Table.getElem?_erase, if_neg (Ne.symm hi)]
  constructor
  · intro i r hr
    have hi : i ≠ id := by
      rintro rfl
      rw [routes_removeNode, Std.ExtTreeMap.getElem?_erase_self] at hr
      cases hr
    rw [hroutes i hi] at hr
    exact ⟨(h.destination i r hr).1, (contains_removeNode m id i).2 ⟨(h.destination i r hr).2, hi⟩⟩
  · intro i n hn
    rw [getElem?_removeNode] at hn
    split at hn
    · cases hn
    · next hi =>
      rw [routeIdsTo_congr (hroutes i (Ne.symm hi))]
      exact h.notes i n hn

theorem removeNodes (ids : List NodeId) : ∀ {m : Mesh}, RoutesNoted m →
    RoutesNoted (m.removeNodes ids) := by
  induction ids with
  | nil => exact fun h => h
  | cons id ids ih => exact fun h => ih (h.removeNode id)

theorem removeOldest (h : RoutesNoted m) (keep : List NodeId) :
    RoutesNoted (m.removeOldest keep).1 := by
  obtain ⟨found, rest, -, he⟩ := m.removeOldest_eq keep
  have hrest : RoutesNoted { m with sightings := rest } := h.congr rfl rfl
  rw [he]
  cases found with
  | some id => exact hrest.removeNode id
  | none => exact hrest

/-- A node that was not known has no notes, and there is no route to it. -/
theorem sight (h : RoutesNoted m) (id : NodeId) (now : Moment) : RoutesNoted (m.sight id now) := by
  have hroutes : (m.sight id now).routes = m.routes := by
    unfold Mesh.sight
    split <;> rfl
  constructor
  · intro i r hr
    rw [hroutes] at hr
    obtain ⟨hd, hi⟩ := h.destination i r hr
    exact ⟨hd, (contains_sight_iff m id i now).2 (Or.inl hi)⟩
  · intro i n hn
    rw [routeIdsTo_congr (m := m) (by rw [hroutes])]
    rw [getElem?_sight] at hn
    split at hn
    · next hnew =>
      obtain ⟨rfl, hnot⟩ := hnew
      cases hn
      rw [routeIdsTo, h.getElem?_routes_of_not_contains hnot]
      rfl
    · exact h.notes i n hn

theorem ensure (h : RoutesNoted m) (id : NodeId) (now : Moment) (keep : List NodeId) :
    RoutesNoted (m.ensure id now keep).1 :=
  (announce_keeps (fun _ h => h.removeOldest keep) h id).sight id now

/-! ### Routes -/

/-- A route that is dropped is dropped from its destination's notes. -/
theorem removeRoute (h : RoutesNoted m) (destination : NodeId) :
    RoutesNoted (m.removeRoute destination) := by
  unfold Mesh.removeRoute
  split
  · next r hr =>
    constructor
    · intro i r' hr'
      rw [Table.getElem?_erase] at hr'
      split at hr'
      · cases hr'
      · obtain ⟨hd, hi⟩ := h.destination i r' hr'
        exact ⟨hd, (contains_modifyNode m destination i _).trans hi⟩
    · intro i n hn
      rw [getElem?_modifyNode] at hn
      rw [routeIdsTo, Table.getElem?_erase]
      split at hn
      · next hi =>
        subst hi
        obtain ⟨n', hn', rfl⟩ := Option.map_eq_some_iff.1 hn
        have hold := h.notes destination n' hn'
        rw [routeIdsTo, hr] at hold
        rw [if_pos rfl, Node.forgetRoute, hold]
        simp
      · next hi =>
        rw [if_neg hi]
        exact h.notes i n hn
  · exact h

theorem makeRouteRoom (fuel : Nat) : ∀ {m : Mesh}, RoutesNoted m →
    RoutesNoted (Mesh.makeRouteRoom fuel m) := by
  induction fuel with
  | zero => exact fun h => h
  | succ fuel ih =>
    intro m h
    rw [Mesh.makeRouteRoom]
    split
    · exact h
    · split
      · next r _ => exact ih (h.removeRoute r.destination)
      · exact h

/-- The first route to a node comes to the table and to the notes. -/
theorem noted (h : RoutesNoted m) {r : Route} (hnone : m.routes[r.destination]? = none)
    (hnode : m.nodes.contains r.destination = true) :
    RoutesNoted { m.modifyNode r.destination (·.rememberRoute r.routeId) with
      routes := m.routes.insert r.destination { r with preferred := true } } := by
  constructor
  · intro i r' hr'
    rw [Table.getElem?_insert] at hr'
    split at hr'
    · next hi =>
      cases hr'
      exact ⟨hi, (contains_modifyNode m r.destination i _).trans (hi ▸ hnode)⟩
    · obtain ⟨hd, hi⟩ := h.destination i r' hr'
      exact ⟨hd, (contains_modifyNode m r.destination i _).trans hi⟩
  · intro i n hn
    rw [getElem?_modifyNode] at hn
    rw [routeIdsTo, Table.getElem?_insert]
    split at hn
    · next hi =>
      obtain ⟨n', hn', rfl⟩ := Option.map_eq_some_iff.1 hn
      have hempty := h.notes i n' hn'
      rw [← hi, routeIdsTo, hnone] at hempty
      rw [if_pos hi, Node.rememberRoute, hempty]
      rfl
    · next hi =>
      rw [if_neg hi]
      exact h.notes i n hn

/-- A route takes the place of the one to the same node, as if that had been dropped
before. -/
theorem storeRoute_of_stored {r old : Route} (hold : m.routes[r.destination]? = some old) :
    m.storeRoute r = { (m.removeRoute r.destination).modifyNode r.destination
        (·.rememberRoute r.routeId) with
      routes := (m.removeRoute r.destination).routes.insert r.destination
        { r with preferred := true } } := by
  have htwice : m.routes.insert r.destination { r with preferred := true }
      = (m.routes.erase r.destination).insert r.destination { r with preferred := true } := by
    apply Std.ExtTreeMap.ext_getElem?
    intro i
    simp only [Std.ExtTreeMap.getElem?_insert, Std.ExtTreeMap.getElem?_erase]
    split <;> rfl
  unfold storeRoute Mesh.removeRoute
  simp only [hold]
  rw [← htwice]
  rfl

theorem updateRoute (h : RoutesNoted m) {r : Route}
    (hnode : m.nodes.contains r.destination = true) : RoutesNoted (m.updateRoute r).1 := by
  unfold Mesh.updateRoute
  split
  · cases hold : m.routes[r.destination]? with
    | some old =>
      rw [storeRoute_of_stored hold]
      refine (h.removeRoute r.destination).noted ?_ ?_
      · simp [Mesh.removeRoute, hold]
      · rw [(edits_removeRoute m r.destination).contains]
        exact hnode
    | none =>
      have hroom := h.makeRouteRoom m.routes.size
      have hfree : (Mesh.makeRouteRoom m.routes.size m).routes[r.destination]? = none := by
        rw [Option.eq_none_iff_forall_ne_some]
        intro r' hr'
        rw [(Spares.makeRouteRoom _ m).routes _ r' hr'] at hold
        cases hold
      simp only [storeRoute, hold]
      refine hroom.noted hfree ?_
      rw [(edits_makeRouteRoom _ m).contains]
      exact hnode
  · exact h

/-! ### Operations -/

theorem updateNode (h : RoutesNoted m) (id : NodeId) (u : NodeUpdate) (now : Moment) :
    RoutesNoted (m.updateNode id u now).1 := by
  unfold Mesh.updateNode
  split
  · exact h
  · have hupdated := (h.ensure id now [id]).modifyNode id (f := (·.update u now)) fun _ => rfl
    exact hupdated.congr rfl rfl

theorem updateNeighbors (h : RoutesNoted m) (reporter : NodeId) (entries : List NeighborEntry) :
    RoutesNoted (m.updateNeighbors reporter entries) := by
  have hheard : ∀ (ids : List NodeId) {m : Mesh}, RoutesNoted m →
      RoutesNoted (ids.foldl (fun m id => m.modifyNode id fun n => n.isHeardBy reporter) m) := by
    intro ids
    induction ids with
    | nil => exact fun h => h
    | cons id ids ih => exact fun h => ih (h.modifyNode id fun n => n.routes_isHeardBy reporter)
  exact hheard _ (h.modifyNode reporter fun n => Node.routes_hears_all _ n)

theorem hearSender (h : RoutesNoted m) (p : Packet) (now : Moment) :
    RoutesNoted (m.hearSender p now).1 := by
  have hupdated := (h.ensure p.sender now p.named).modifyNode p.sender
    (f := (·.update p.nodeUpdate now)) fun _ => rfl
  exact hupdated.modifyNode p.sender fun n => n.routes_takeHeader p now

theorem hearRelay (h : RoutesNoted m) (p : Packet) (now : Moment) :
    RoutesNoted (m.hearRelay p now).1 := by
  unfold Mesh.hearRelay
  split
  · next id _ => exact (h.ensure id now p.named).modifyNode id fun _ => rfl
  · exact h

theorem hearGateway (h : RoutesNoted m) (p : Packet) (now : Moment) :
    RoutesNoted (m.hearGateway p now).1 := by
  unfold Mesh.hearGateway
  split
  · next id _ =>
    have hheard := (h.ensure id now p.named).modifyNode id (f := (·.heardAt now)) fun _ => rfl
    dsimp only
    split
    · exact (hheard.modifyNode id fun n => n.routes_hears p.sender).modifyNode p.sender
        fun n => n.routes_isHeardBy id
    · exact hheard
  · exact h

/-- The route of a traceroute leads to the sender, which is stored. -/
theorem takePayload (h : RoutesNoted m) {p : Packet}
    (hsender : m.nodes.contains p.sender = true) (channel : UInt32) (now : Moment) :
    RoutesNoted (m.takePayload p channel now).1 := by
  unfold Mesh.takePayload
  split
  · exact h.congr rfl rfl
  · exact h.updateRoute hsender
  · exact h.updateNeighbors _ _
  · exact h

theorem routes_resolveChannel (m : Mesh) (name : String) (index : UInt32) :
    (m.resolveChannel name index).1.routes = m.routes := by
  rcases m.resolveChannel_cases name index with he | ⟨c, -, he⟩
  · rw [he]
  · rw [he]
    rfl

theorem applyNew (h : RoutesNoted m) (p : Packet) (now : Moment) :
    RoutesNoted (m.applyNew p now).1 := by
  have hnamed : p.sender ∈ p.named := List.mem_cons_self ..
  have hslot : RoutesNoted ((m.resolveChannel p.channelName p.channelIndex).1.touchChannel
      (m.resolveChannel p.channelName p.channelIndex).2 false now) :=
    h.congr (framed_resolveChannel ..).nodes (routes_resolveChannel ..)
  unfold Mesh.applyNew
  split
  · -- the sender is still there when the body is taken: no other node takes its place
    have hheard := hslot.hearSender p now
    have hsender := heardAt_hearSender ((m.resolveChannel p.channelName p.channelIndex).1.touchChannel
      (m.resolveChannel p.channelName p.channelIndex).2 false now) p now
    have hrelayed := hsender.moves (moves_hearRelay _ p now) hnamed
    obtain ⟨n, hn, -⟩ := hrelayed.moves (moves_hearGateway _ p now) hnamed
    have htaken := ((hheard.hearRelay p now).hearGateway p now).takePayload
      ((contains_iff _ _).2 ⟨n, hn⟩) (m.resolveChannel p.channelName p.channelIndex).2 now
    exact htaken.congr rfl rfl
  · exact h

theorem apply (h : RoutesNoted m) (p : Packet) (now : Moment) : RoutesNoted (m.apply p now).1 := by
  obtain ⟨dedup, ⟨-, he⟩ | ⟨-, he⟩⟩ := m.apply_cases p now
  · rw [he]
    exact h.congr rfl rfl
  · rw [he]
    have h' : RoutesNoted { m with dedup := dedup } := h.congr rfl rfl
    exact h'.applyNew p now

theorem sweep (h : RoutesNoted m) (now : Moment) : RoutesNoted (m.sweep now).1 :=
  (h.removeNodes _).removeNodes _

end RoutesNoted

/-! ## Runs -/

/-- Whether an operation gives a route to a node, if to anything; nothing is put back. -/
def Operation.leadsToNode (m : Mesh) : Operation → Bool
  | .route destination _ => m.nodes.contains destination
  | .restore _ => false
  | _ => true

/-- Whether every route of a run is given to what is a node at that time. -/
def leadsToNodes (m : Mesh) : List Step → Bool
  | [] => true
  | s :: steps => s.operation.leadsToNode m && leadsToNodes (m.perform s).1 steps

/-- **One step.** Notes and table are changed together. -/
theorem RoutesNoted.perform (h : RoutesNoted m) {s : Step} (hs : s.operation.leadsToNode m = true) :
    RoutesNoted (m.perform s).1 := by
  obtain ⟨op, now⟩ := s
  cases op with
  | packet p => exact h.apply p now
  | update id u => exact h.updateNode id u now
  | link id snr rssi hops => exact h.modifyNode id fun _ => rfl
  | route destination hops => exact h.updateRoute (r := Route.new destination hops now) hs
  | neighbors reporter entries => exact h.updateNeighbors reporter entries
  | channel c => exact h.congr rfl rfl
  | activity index message => exact h.congr rfl rfl
  | message message => exact h.congr rfl rfl
  | sweep => exact h.sweep now
  | restore state => cases hs

theorem RoutesNoted.after {steps : List Step} : ∀ {m : Mesh}, RoutesNoted m →
    leadsToNodes m steps = true → RoutesNoted (m.after steps) := by
  induction steps with
  | nil => exact fun h _ => h
  | cons s steps ih =>
    intro m h hs
    obtain ⟨hstep, hrest⟩ := Bool.and_eq_true_iff.1 hs
    exact ih (h.perform hstep) hrest

/-- **Notes follow the table.** After any run that gives routes to nodes only, each stored
route lies under its destination, which is a node, and the notes of a node are the id of
the route that is stored to it, or none if there is no such route. -/
theorem routes_follow_table (limits : Limits) (primary : String) (orders : HashOrders)
    (steps : List Step) (hsteps : leadsToNodes (new limits primary orders) steps = true) :
    let m := (new limits primary orders).after steps
    (∀ (id : NodeId) (r : Route), m.routes[id]? = some r →
      r.destination = id ∧ m.nodes.contains id = true) ∧
    ∀ (id : NodeId) (n : Node), m.nodes[id]? = some n →
      n.routes = (m.routes[id]?.map Route.routeId).toList := by
  intro m
  have h : RoutesNoted m := (routesNoted_new limits primary orders).after hsteps
  exact ⟨h.destination, h.notes⟩

/-- Two nodes and one route fit: a better route to the first node, then a traceroute of the
second takes the place of that, and then a third node takes the place of the first. -/
theorem notes_of_full_table :
    let hop (id : UInt32) (snr : Float32) (now : Moment) : RouteHop := ⟨⟨id⟩, snr, now⟩
    let traceroute : Packet :=
      { packetId := 7, sender := ⟨0x1002⟩, recipient := .broadcast, gateway := none
        channelName := "LongFast", channelIndex := 0, hopLimit := 0, hopStart := 0
        rxSnr := none, rxRssi := none, rxTime := none, relay := none, wantAck := false
        encrypted := false
        payload := .traceroute { route := [⟨0x2003⟩], snrTowards := [4, 2] } }
    let steps : List Step := [
      ⟨.update ⟨0x1001⟩ {}, .ofSecs 10⟩,
      ⟨.route ⟨0x1001⟩ [hop 0x2001 5 (.ofSecs 11)], .ofSecs 11⟩,
      ⟨.route ⟨0x1001⟩ [hop 0x2002 9 (.ofSecs 12)], .ofSecs 12⟩,
      ⟨.packet traceroute, .ofSecs 13⟩,
      ⟨.update ⟨0x1003⟩ {}, .ofSecs 14⟩,
      ⟨.sweep, .ofSecs 15⟩]
    let start := new { maxNodes := 2, maxRoutes := 1 } "LongFast" {}
    let m := start.after steps
    leadsToNodes start steps = true ∧
    (m.nodeList.map fun n => (n.id.value, n.routes))
      = [(0x1002, ["!00002003>!00001002"]), (0x1003, [])] ∧
    (∀ (id : NodeId) (r : Route), m.routes[id]? = some r →
      r.destination = id ∧ m.nodes.contains id = true) ∧
    ∀ (id : NodeId) (n : Node), m.nodes[id]? = some n →
      n.routes = (m.routes[id]?.map Route.routeId).toList := by
  intro hop traceroute steps start m
  obtain ⟨hsteps, hnotes⟩ : leadsToNodes start steps = true ∧
      (m.nodeList.map fun n => (n.id.value, n.routes))
        = [(0x1002, ["!00002003>!00001002"]), (0x1003, [])] := by decide +kernel
  exact ⟨hsteps, hnotes,
    routes_follow_table { maxNodes := 2, maxRoutes := 1 } "LongFast" {} steps hsteps⟩

end Mesh

end MeshWatch
