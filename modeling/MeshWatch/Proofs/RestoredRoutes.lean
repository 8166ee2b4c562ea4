import MeshWatch.Proofs.RouteNotes
import MeshWatch.Proofs.SaveRestore

/-!
# Routes that are put back

A mesh that is put back under smaller limits keeps the nodes that were heard last and the
routes that were discovered last. Each cut is made without a look at the other, so a node
may be kept without the route that is noted on it, and a route without its destination.
Notes and table agree exactly when both cuts keep the same routes.

- `getElem?_nodes_restore`, `getElem?_routes_restore`: what is kept lies where it lay.
- `routesNoted_feeds`: traffic changes notes and table together.
- `restored_routes_agree_iff`: when a mesh is put back without a loose end.
-/

namespace MeshWatch

namespace Mesh

/-- Every id that is noted on a node is that of the route stored to it, and every route
leads to a node. -/
structure RoutesAgree (m : Mesh) : Prop where
  notes : ∀ (id : NodeId) (n : Node), m.nodes[id]? = some n → ∀ routeId ∈ n.routes,
    ∃ r, m.routes[id]? = some r ∧ r.routeId = routeId
  destination : ∀ (id : NodeId) (r : Route), m.routes[id]? = some r → m.nodes.contains id = true

/-- The nodes that are kept under limits, those heard last. -/
def keptNodes (limits : Limits) (s : MeshState) : List Node :=
  (newestNodes s.nodes).take limits.maxNodes

/-- The routes that are kept under limits, those discovered last. -/
def keptRoutes (limits : Limits) (s : MeshState) : List Route :=
  (newestRoutes s.routes).take limits.maxRoutes

section Restore

variable {m : Mesh} {s : MeshState} {limits : Limits}

theorem mem_of_mem_keptNodes {n : Node} (h : n ∈ keptNodes limits s) : n ∈ s.nodes :=
  (List.mergeSort_perm ..).mem_iff.1 (List.mem_of_mem_take h)

theorem mem_of_mem_keptRoutes {r : Route} (h : r ∈ keptRoutes limits s) : r ∈ s.routes :=
  (List.mergeSort_perm ..).mem_iff.1 (List.mem_of_mem_take h)

/-- A cut of what was sorted has no key twice if there was none before. -/
theorem nodup_keys_take {α β : Type} {key : α → β} {xs : List α} (h : (xs.map key).Nodup)
    (le : α → α → Bool) (n : Nat) : (((xs.mergeSort le).take n).map key).Nodup := by
  have hsorted : ((xs.mergeSort le).map key).Nodup :=
    ((List.mergeSort_perm xs le).map key).nodup_iff.2 h
  exact ((List.take_sublist n _).map key).nodup hsorted

theorem getElem?_nodes_restore (base : Mesh) (h : (s.nodes.map Node.id).Nodup) (id : NodeId)
    (n : Node) : (base.restore s).nodes[id]? = some n ↔
      n ∈ keptNodes base.limits s ∧ n.id = id :=
  Table.getElem?_fill_empty (nodup_keys_take h _ _) id n

theorem getElem?_routes_restore (base : Mesh) (h : (s.routes.map Route.destination).Nodup)
    (id : NodeId) (r : Route) : (base.restore s).routes[id]? = some r ↔
      r ∈ keptRoutes base.limits s ∧ r.destination = id :=
  Table.getElem?_fill_empty (nodup_keys_take h _ _) id r

theorem keptNodes_of_newestFirst (limits : Limits)
    (h : s.nodes.Pairwise fun a b => b.lastHeard ≤ a.lastHeard) :
    keptNodes limits s = s.nodes.take limits.maxNodes := by
  rw [keptNodes, newestNodes, List.mergeSort_of_pairwise (h.imp decide_eq_true)]

theorem keptRoutes_of_newestFirst (limits : Limits)
    (h : s.routes.Pairwise fun a b => b.discovered ≤ a.discovered) :
    keptRoutes limits s = s.routes.take limits.maxRoutes := by
  rw [keptRoutes, newestRoutes, List.mergeSort_of_pairwise (h.imp decide_eq_true)]

/-- What was taken from a mesh, listed in any order. -/
structure ListedFrom (s : MeshState) (m : Mesh) : Prop where
  nodes : s.nodes.Perm m.exported.nodes
  routes : s.routes.Perm m.exported.routes

theorem ListedFrom.nodes_perm (hs : ListedFrom s m) : s.nodes.Perm m.nodeList :=
  hs.nodes.trans m.walkedNodes_perm

theorem ListedFrom.routes_perm (hs : ListedFrom s m) : s.routes.Perm m.routeList :=
  hs.routes.trans m.walkedRoutes_perm

theorem ListedFrom.mem_nodes (hs : ListedFrom s m) {n : Node} :
    n ∈ s.nodes ↔ ∃ id : NodeId, m.nodes[id]? = some n := by
  rw [hs.nodes_perm.mem_iff]
  exact Table.mem_values

theorem ListedFrom.mem_routes (hs : ListedFrom s m) {r : Route} :
    r ∈ s.routes ↔ ∃ id : NodeId, m.routes[id]? = some r := by
  rw [hs.routes_perm.mem_iff]
  exact Table.mem_values

/-- **Loose ends.** A mesh with all routes noted is put back with all routes noted if and
only if the kept routes are those to the kept nodes. -/
theorem RoutesNoted.routesAgree_restore_iff (h : RoutesNoted m)
    (hid : ∀ (id : NodeId) (n : Node), m.nodes[id]? = some n → n.id = id)
    (hs : ListedFrom s m) (base : Mesh) : RoutesAgree (base.restore s) ↔
      ∀ r ∈ s.routes, r ∈ keptRoutes base.limits s ↔
        ∃ n ∈ keptNodes base.limits s, n.id = r.destination := by
  have hdestination : ∀ (id : NodeId) (r : Route), m.routes[id]? = some r → r.destination = id :=
    fun id r hr => (h.destination id r hr).1
  have hnodes := getElem?_nodes_restore (s := s) base
    ((hs.nodes_perm.map _).nodup_iff.2 (Table.nodup_keys hid))
  have hroutes := getElem?_routes_restore (s := s) base
    ((hs.routes_perm.map _).nodup_iff.2 (Table.nodup_keys hdestination))
  -- a listed node notes the routes that the mesh had to it
  have hnotes : ∀ n ∈ s.nodes, n.routes = m.routeIdsTo n.id := by
    intro n hn
    obtain ⟨id, hm⟩ := hs.mem_nodes.1 hn
    rw [hid id n hm]
    exact h.notes id n hm
  constructor
  · intro hagree r hr
    obtain ⟨id, hm⟩ := hs.mem_routes.1 hr
    obtain rfl := hdestination id r hm
    constructor
    · intro hkept
      have hnode := hagree.destination _ r ((hroutes _ r).2 ⟨hkept, rfl⟩)
      obtain ⟨n, hn⟩ := (contains_iff _ _).1 hnode
      exact ⟨n, (hnodes _ n).1 hn⟩
    · rintro ⟨n, hn, hdest⟩
      have hlist := hnotes n (mem_of_mem_keptNodes hn)
      rw [hdest, routeIdsTo, hm] at hlist
      obtain ⟨r', hr', -⟩ := hagree.notes _ n ((hnodes _ n).2 ⟨hn, hdest⟩) r.routeId
        (hlist ▸ List.mem_singleton_self _)
      obtain ⟨hkept, hd⟩ := (hroutes _ r').1 hr'
      -- the mesh had one route to this destination, so it is that one
      obtain ⟨id', hm'⟩ := hs.mem_routes.1 (mem_of_mem_keptRoutes hkept)
      rw [← hdestination id' r' hm', hd, hm] at hm'
      cases hm'
      exact hkept
  · intro hcuts
    constructor
    · intro id n hn routeId hlisted
      obtain ⟨hkept, rfl⟩ := (hnodes id n).1 hn
      rw [hnotes n (mem_of_mem_keptNodes hkept), routeIdsTo, Option.mem_toList] at hlisted
      obtain ⟨r, hr, rfl⟩ := Option.map_eq_some_iff.1 hlisted
      have hd := hdestination n.id r hr
      exact ⟨r, (hroutes _ r).2 ⟨(hcuts r (hs.mem_routes.2 ⟨_, hr⟩)).2 ⟨n, hkept, hd.symm⟩, hd⟩, rfl⟩
    · intro id r hr
      obtain ⟨hkept, rfl⟩ := (hroutes id r).1 hr
      obtain ⟨n, hn, hd⟩ := (hcuts r (mem_of_mem_keptRoutes hkept)).1 hkept
      exact (contains_iff _ _).2 ⟨n, (hnodes _ n).2 ⟨hn, hd⟩⟩

end Restore

end Mesh

namespace Monitor

open Mesh

/-- **One step** of traffic changes notes and table together. -/
theorem routesNoted_feeds {now : Moment} {m m' : Mesh} (h : Feeds now m m')
    (hm : RoutesNoted m) : RoutesNoted m' := by
  cases h with
  | nothing => exact hm
  | packet => exact hm.apply _ now
  | status id => exact hm.updateNode id {} now
  | sweep => exact hm.sweep now

/-- **Putting back under other limits.** Whatever traffic a mesh went through, when its
records are put back, listed in any order, into a new mesh of any limits, then the notes on
the nodes are of the routes that are stored to them, and all these routes lead to nodes, if
and only if the routes discovered last that fit are exactly those to the nodes heard last
that fit. -/
theorem restored_routes_agree_iff (limits : Limits) (primary : String) (orders : HashOrders)
    (receiver : Receiver) (stats : Stats) (rejections : RejectionWindow) (steps : List Step)
    (s : MeshState) (hs : ListedFrom s
      (after ⟨Mesh.new limits primary orders, receiver, stats, rejections⟩ steps).mesh)
    (others : Limits) (channel : String) (orders' : HashOrders) :
    RoutesAgree ((Mesh.new others channel orders').restore s) ↔
      ∀ r ∈ s.routes, r ∈ keptRoutes others s ↔ ∃ n ∈ keptNodes others s, n.id = r.destination := by
  have hnoted : RoutesNoted
      (after ⟨Mesh.new limits primary orders, receiver, stats, rejections⟩ steps).mesh :=
    after_keeps routesNoted_feeds steps _ (routesNoted_new limits primary orders)
  refine hnoted.routesAgree_restore_iff (fun id n hn => ?_) hs (Mesh.new others channel orders')
  exact (clean_after steps _ (Mesh.everyNode_new _ limits primary orders) id n hn).id_eq

/-- A gateway publishes the reply of a node to a traceroute. -/
def replyHeard (sender packetId : UInt32) (now : Moment) : Step :=
  let path : Wire.RouteDiscovery := { route := [0x2001], snrTowards := [26, -3] }
  let packet : Wire.MeshPacket :=
    { sender := sender, recipient := 0xffffffff, id := packetId, rxSnr := ⟨0x40d00000⟩
      body := some (.decoded { portnum := 70, payload := Wire.Message.encode path }) }
  let envelope : Wire.ServiceEnvelope :=
    { packet := some packet, channelId := "LongFast", gatewayId := "!00001003" }
  ⟨.message "msh/2/e/LongFast/!00001003" (Wire.Message.encode envelope) 0, now⟩

/-- What a mesh is after two nodes replied, one after the other. -/
def afterTwoReplies : Mesh :=
  (after ⟨Mesh.new {} "LongFast" {}, {}, {}, .standard⟩
    [replyHeard 0x1001 7 (.ofSecs 10), replyHeard 0x1002 8 (.ofSecs 20),
      ⟨.sweep, .ofSecs 30⟩]).mesh

/-- Its records, the newest first. -/
def twoReplies : MeshState :=
  { afterTwoReplies.exported with
    nodes := afterTwoReplies.exported.nodes.reverse
    routes := afterTwoReplies.exported.routes.reverse }

theorem listedFrom_twoReplies : ListedFrom twoReplies afterTwoReplies :=
  ⟨List.reverse_perm _, List.reverse_perm _⟩

theorem newestFirst_twoReplies :
    (twoReplies.nodes.Pairwise fun a b => b.lastHeard ≤ a.lastHeard) ∧
    twoReplies.routes.Pairwise fun a b => b.discovered ≤ a.discovered := by decide +kernel

/-- Of the gateway and the two nodes that replied two nodes are kept, and of the routes one:
both cuts drop the node that replied first. -/
theorem restored_routes_of_two_replies :
    let limits : Limits := { maxNodes := 2, maxRoutes := 1 }
    ListedFrom twoReplies afterTwoReplies ∧
    ((keptNodes limits twoReplies).map fun n => n.id.value) = [0x1003, 0x1002] ∧
    ((keptRoutes limits twoReplies).map fun r => r.destination.value) = [0x1002] ∧
    RoutesAgree ((Mesh.new limits "LongFast" {}).restore twoReplies) := by
  intro limits
  have hnodes := keptNodes_of_newestFirst limits newestFirst_twoReplies.1
  have hroutes := keptRoutes_of_newestFirst limits newestFirst_twoReplies.2
  obtain ⟨hn, hr, hcuts⟩ :
      ((twoReplies.nodes.take 2).map fun n => n.id.value) = [0x1003, 0x1002] ∧
      ((twoReplies.routes.take 1).map fun r => r.destination.value) = [0x1002] ∧
      ∀ r ∈ twoReplies.routes, r ∈ twoReplies.routes.take 1 ↔
        ∃ n ∈ twoReplies.nodes.take 2, n.id = r.destination := by decide +kernel
  refine ⟨listedFrom_twoReplies, hnodes ▸ hn, hroutes ▸ hr, ?_⟩
  refine (restored_routes_agree_iff {} "LongFast" {} {} {} .standard _ _ listedFrom_twoReplies
    limits "LongFast" {}).2 ?_
  rw [hnodes, hroutes]
  exact hcuts

/-- If only nodes are cut, a route stays without the node to which it leads, and if only
routes are cut, a node stays with the note of a route that is gone. -/
theorem loose_ends_of_two_replies :
    ListedFrom twoReplies afterTwoReplies ∧
    ¬ RoutesAgree ((Mesh.new { maxNodes := 2 } "LongFast" {}).restore twoReplies) ∧
    ¬ RoutesAgree ((Mesh.new { maxRoutes := 1 } "LongFast" {}).restore twoReplies) := by
  have hids : (twoReplies.nodes.map Node.id).Nodup := by decide +kernel
  have hdestinations : (twoReplies.routes.map Route.destination).Nodup := by decide +kernel
  obtain ⟨hnodes, hroutes⟩ := newestFirst_twoReplies
  refine ⟨listedFrom_twoReplies, ?_, ?_⟩
  · obtain ⟨r, hr, hdropped⟩ : ∃ r ∈ twoReplies.routes.take ({} : Limits).maxRoutes,
        ∀ n ∈ twoReplies.nodes.take 2, n.id ≠ r.destination := by decide +kernel
    intro hagree
    have hstored := (getElem?_routes_restore (Mesh.new { maxNodes := 2 } "LongFast" {})
      hdestinations _ r).2 ⟨(keptRoutes_of_newestFirst _ hroutes).symm ▸ hr, rfl⟩
    obtain ⟨n, hn⟩ := (contains_iff _ _).1 (hagree.destination _ r hstored)
    obtain ⟨hkept, hid⟩ := (getElem?_nodes_restore _ hids _ n).1 hn
    rw [keptNodes_of_newestFirst _ hnodes] at hkept
    exact hdropped n hkept hid
  · obtain ⟨n, hn, hnotes, hdropped⟩ : ∃ n ∈ twoReplies.nodes.take ({} : Limits).maxNodes,
        "!00002001>!00001001" ∈ n.routes ∧
        ∀ r ∈ twoReplies.routes.take 1, r.destination ≠ n.id := by decide +kernel
    intro hagree
    have hstored := (getElem?_nodes_restore (Mesh.new { maxRoutes := 1 } "LongFast" {})
      hids _ n).2 ⟨(keptNodes_of_newestFirst _ hnodes).symm ▸ hn, rfl⟩
    obtain ⟨r, hr, -⟩ := hagree.notes _ n hstored _ hnotes
    obtain ⟨hkept, hdestination⟩ := (getElem?_routes_restore _ hdestinations _ r).1 hr
    rw [keptRoutes_of_newestFirst _ hroutes] at hkept
    exact hdropped r hkept hdestination

end Monitor

end MeshWatch
