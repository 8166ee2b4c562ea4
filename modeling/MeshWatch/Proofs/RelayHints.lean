import MeshWatch.Proofs.EveryNode
import MeshWatch.Proofs.Tables

/-!
# Relays that are known by one byte

The last byte of a relay identifies no node. It is noted on the sender and that is all: a
packet does what it would have done without it, on a mesh where nothing is missing but the
note. The note may be made before or after anything else that the packet does, as nothing
looks at it.

- `withHint`: a mesh with the note. `modifyNode_withHint`, `ensure_withHint`,
  `takePayload_withHint`: what is done to it is done as without.
- `hearSender_lastByte`: how the note is made, and `perform_lastByte`: whole packets.
-/

namespace MeshWatch

/-- A packet without its relay. -/
def Packet.withoutRelay (p : Packet) : Packet := { p with relay := none }

theorem Node.takeHeader_lastByte {p : Packet} {hint : UInt8} (h : p.relay = some (.lastByte hint))
    (n : Node) (now : Moment) :
    n.takeHeader p now = (n.takeHeader p.withoutRelay now).rememberRelayHint hint := by
  simp only [takeHeader, h, Packet.withoutRelay]
  rfl

theorem Node.hears_rememberRelayHint (n : Node) (hint : UInt8) (id : NodeId) :
    (n.rememberRelayHint hint).hears id = (n.hears id).rememberRelayHint hint := by
  simp only [hears, rememberRelayHint]

theorem Node.isHeardBy_rememberRelayHint (n : Node) (hint : UInt8) (id : NodeId) :
    (n.rememberRelayHint hint).isHeardBy id = (n.isHeardBy id).rememberRelayHint hint := by
  simp only [isHeardBy, rememberRelayHint]

theorem Node.hears_all_rememberRelayHint (hint : UInt8) (ids : List NodeId) : ∀ n : Node,
    ids.foldl hears (n.rememberRelayHint hint) = (ids.foldl hears n).rememberRelayHint hint := by
  induction ids with
  | nil => intro n; rfl
  | cons id ids ih =>
    intro n
    rw [List.foldl_cons, hears_rememberRelayHint, ih, List.foldl_cons]

namespace Mesh

variable {s : NodeId} {hint : UInt8}

/-- A mesh in which the last byte of a relay was noted on one node. -/
def withHint (m : Mesh) (s : NodeId) (hint : UInt8) : Mesh :=
  m.modifyNode s (·.rememberRelayHint hint)

/-! ## Nodes -/

theorem getElem?_withHint (m : Mesh) (s : NodeId) (hint : UInt8) (id : NodeId) :
    (m.withHint s hint).nodes[id]?
      = if s = id then (m.nodes[id]?).map (·.rememberRelayHint hint) else m.nodes[id]? :=
  getElem?_modifyNode m s id _

/-- Two meshes are the same if they are so under each id and in all other parts. -/
theorem eq_of_nodes {m m' : Mesh} (hn : ∀ id : NodeId, m'.nodes[id]? = m.nodes[id]?)
    (hrest : m' = { m with nodes := m'.nodes }) : m' = m := by
  rw [hrest, Std.ExtTreeMap.ext_getElem? fun id => hn id]

/-- A change that does not look at the note may be made before it. -/
theorem modifyNode_withHint (m : Mesh) (id : NodeId) {f : Node → Node}
    (hf : ∀ n : Node, f (n.rememberRelayHint hint) = (f n).rememberRelayHint hint) :
    (m.withHint s hint).modifyNode id f = (m.modifyNode id f).withHint s hint := by
  refine eq_of_nodes (fun i => ?_) rfl
  rw [getElem?_modifyNode, getElem?_withHint, getElem?_withHint, getElem?_modifyNode]
  by_cases hs : s = i
  · by_cases hid : id = i
    · cases m.nodes[i]? with
      | none => simp
      | some n => simp [hs, hid, hf]
    · simp [hs, hid]
  · simp [hs]

theorem removeNode_withHint (m : Mesh) (id : NodeId) :
    (m.withHint s hint).removeNode id = (m.removeNode id).withHint s hint := by
  refine eq_of_nodes (fun i => ?_) rfl
  rw [getElem?_removeNode, getElem?_withHint, getElem?_withHint, getElem?_removeNode]
  by_cases hid : id = i
  · simp [hid]
  · simp [hid]

theorem contains_withHint (m : Mesh) (id : NodeId) :
    (m.withHint s hint).nodes.contains id = m.nodes.contains id := contains_modifyNode m s id _

theorem size_withHint (m : Mesh) : (m.withHint s hint).nodes.size = m.nodes.size :=
  Std.ExtTreeMap.size_modify

theorem isUpToDate_withHint (m : Mesh) : (m.withHint s hint).isUpToDate = m.isUpToDate := by
  funext x
  unfold isUpToDate
  rw [getElem?_withHint]
  by_cases hs : s = x.id
  · rw [if_pos hs]
    cases m.nodes[x.id]? <;> rfl
  · rw [if_neg hs]

theorem lastSightings_withHint (m : Mesh) :
    (m.withHint s hint).lastSightings = m.lastSightings := by
  have hmap : (m.withHint s hint).nodes
      = m.nodes.map fun id n => if s = id then n.rememberRelayHint hint else n := by
    apply Std.ExtTreeMap.ext_getElem?
    intro id
    rw [getElem?_withHint, Std.ExtTreeMap.getElem?_map]
    by_cases hs : s = id
    · simp only [hs, if_true]
    · simp [hs]
  unfold lastSightings nodeList
  rw [hmap, Std.ExtTreeMap.toList_map, List.map_map, List.map_map, List.map_map]
  refine List.map_congr_left fun e _ => ?_
  by_cases hs : s = e.1
  · simp only [Function.comp_apply, hs, if_true]
    rfl
  · simp only [Function.comp_apply, hs, if_false]

theorem removeOldest_withHint (m : Mesh) (keep : List NodeId) :
    (m.withHint s hint).removeOldest keep
      = ((m.removeOldest keep).1.withHint s hint, (m.removeOldest keep).2) := by
  have hsightings : (m.withHint s hint).sightings = m.sightings := rfl
  unfold removeOldest
  rw [isUpToDate_withHint, hsightings]
  generalize m.sightings.oldest m.isUpToDate keep.contains m.sightings.size [] = r
  obtain ⟨found, rest⟩ := r
  cases found with
  | none => rfl
  | some id =>
    refine Prod.ext ?_ rfl
    exact removeNode_withHint { m with sightings := rest } id

theorem makeRoom_withHint (keep : List NodeId) (fuel : Nat) : ∀ m : Mesh,
    makeRoom keep fuel (m.withHint s hint)
      = ((makeRoom keep fuel m).1.withHint s hint, (makeRoom keep fuel m).2) := by
  induction fuel with
  | zero => intro m; rfl
  | succ fuel ih =>
    intro m
    have hlim : (m.withHint s hint).limits = m.limits := rfl
    simp only [makeRoom, removeOldest_withHint, size_withHint, hlim]
    split
    · rfl
    · rcases m.removeOldest keep with ⟨m', _ | id⟩
      · rfl
      · simp only [ih]

/-- Another node is stored as if the note were not there. -/
theorem sight_withHint (m : Mesh) {id : NodeId} (hid : id ≠ s) (now : Moment) :
    (m.withHint s hint).sight id now = (m.sight id now).withHint s hint := by
  have hnodes : ((m.withHint s hint).sight id now).nodes
      = ((m.sight id now).withHint s hint).nodes := by
    apply Std.ExtTreeMap.ext_getElem?
    intro i
    rw [getElem?_sight, getElem?_withHint, getElem?_withHint, getElem?_sight, contains_withHint]
    by_cases hs : s = i
    · have hne : id ≠ i := fun he => hid (he.trans hs.symm)
      simp [hs, hne]
    · simp [hs]
  have hbound : (m.withHint s hint).sightingBound = m.sightingBound := by
    unfold sightingBound
    rw [size_withHint]
  have hsize : (m.withHint s hint).sightings.size = m.sightings.size := rfl
  have hrefresh : (m.withHint s hint).refreshSightings = m.refreshSightings.withHint s hint := by
    unfold refreshSightings
    rw [lastSightings_withHint]
    rfl
  refine eq_of_nodes (fun i => by rw [hnodes]) ?_
  unfold sight
  rw [hbound, hsize]
  split
  · rw [hrefresh]
    rfl
  · rfl

theorem ensure_withHint (m : Mesh) {id : NodeId} (hid : id ≠ s) (now : Moment)
    (keep : List NodeId) :
    (m.withHint s hint).ensure id now keep
      = ((m.ensure id now keep).1.withHint s hint, (m.ensure id now keep).2) := by
  simp only [ensure, announce, contains_withHint, size_withHint, makeRoom_withHint]
  split <;> simp only [sight_withHint _ hid]

/-! ## Routes and neighbors -/

theorem removeRoute_withHint (m : Mesh) (id : NodeId) :
    (m.withHint s hint).removeRoute id = (m.removeRoute id).withHint s hint := by
  have hroutes : (m.withHint s hint).routes = m.routes := rfl
  unfold removeRoute
  rw [hroutes]
  split
  · next r _ =>
    rw [modifyNode_withHint m id (f := (·.forgetRoute r.routeId)) fun _ => rfl]
    rfl
  · rfl

theorem makeRouteRoom_withHint (fuel : Nat) : ∀ m : Mesh,
    makeRouteRoom fuel (m.withHint s hint) = (makeRouteRoom fuel m).withHint s hint := by
  induction fuel with
  | zero => intro m; rfl
  | succ fuel ih =>
    intro m
    have hlim : (m.withHint s hint).limits = m.limits := rfl
    have hroutes : (m.withHint s hint).routes = m.routes := rfl
    have holdest : (m.withHint s hint).oldestRoute? = m.oldestRoute? := rfl
    simp only [makeRouteRoom, hlim, hroutes, holdest, removeRoute_withHint]
    split
    · rfl
    · split
      · exact ih _
      · rfl

theorem updateRoute_withHint (m : Mesh) (r : Route) :
    (m.withHint s hint).updateRoute r
      = ((m.updateRoute r).1.withHint s hint, (m.updateRoute r).2) := by
  have hbetter : (m.withHint s hint).isBetterRoute r = m.isBetterRoute r := rfl
  have hroutes : (m.withHint s hint).routes = m.routes := rfl
  have hremember : ∀ m : Mesh,
      (m.withHint s hint).modifyNode r.destination (·.rememberRoute r.routeId)
        = (m.modifyNode r.destination (·.rememberRoute r.routeId)).withHint s hint :=
    fun m => modifyNode_withHint m _ fun _ => rfl
  have hstore : (m.withHint s hint).storeRoute r = (m.storeRoute r).withHint s hint := by
    unfold storeRoute
    rw [hroutes, makeRouteRoom_withHint]
    split
    · next old _ =>
      dsimp only
      rw [modifyNode_withHint m r.destination (f := (·.forgetRoute old.routeId)) fun _ => rfl,
        hremember]
      rfl
    · dsimp only
      rw [hremember]
      rfl
  unfold updateRoute
  rw [hbetter, hstore]
  split <;> rfl

theorem updateNeighbors_withHint (m : Mesh) (reporter : NodeId) (entries : List NeighborEntry) :
    (m.withHint s hint).updateNeighbors reporter entries
      = (m.updateNeighbors reporter entries).withHint s hint := by
  have hheard : ∀ (ids : List NodeId) (m : Mesh),
      ids.foldl (fun m i => m.modifyNode i fun n => n.isHeardBy reporter) (m.withHint s hint)
        = (ids.foldl (fun m i => m.modifyNode i fun n => n.isHeardBy reporter) m).withHint
          s hint := by
    intro ids
    induction ids with
    | nil => intro m; rfl
    | cons i ids ih =>
      intro m
      rw [List.foldl_cons,
        modifyNode_withHint m i fun n => n.isHeardBy_rememberRelayHint hint reporter, ih,
        List.foldl_cons]
  unfold updateNeighbors
  dsimp only
  rw [modifyNode_withHint m reporter (Node.hears_all_rememberRelayHint hint _), hheard]

theorem takePayload_withHint (m : Mesh) (p : Packet) (channel : UInt32) (now : Moment) :
    (m.withHint s hint).takePayload p channel now
      = ((m.takePayload p channel now).1.withHint s hint, (m.takePayload p channel now).2) := by
  have hreporter : ∀ r, (m.withHint s hint).reporterOf p.sender r = m.reporterOf p.sender r := by
    intro r
    simp only [reporterOf, contains_withHint]
  unfold takePayload
  split
  · rfl
  · simp only [updateRoute_withHint]
  · simp only [hreporter, updateNeighbors_withHint]
  · rfl

/-! ## Packets -/

section Packet

variable {p : Packet}

theorem named_withoutRelay (h : p.relay = some (.lastByte hint)) :
    p.withoutRelay.named = p.named := by
  simp only [Packet.named, Packet.withoutRelay, Relay.fullId?, h]

theorem relayNode?_lastByte (h : p.relay = some (.lastByte hint)) : p.relayNode? = none := by
  simp only [Packet.relayNode?, Relay.fullId?, h, Option.filter_none]

/-- The note is made when the sender was heard. -/
theorem hearSender_lastByte (m : Mesh) (now : Moment) (h : p.relay = some (.lastByte hint)) :
    m.hearSender p now = ((m.hearSender p.withoutRelay now).1.withHint p.sender hint,
      (m.hearSender p.withoutRelay now).2) := by
  have hheader : ∀ m : Mesh, m.modifyNode p.sender (·.takeHeader p now)
      = (m.modifyNode p.sender (·.takeHeader p.withoutRelay now)).withHint p.sender hint := by
    intro m
    refine eq_of_nodes (fun i => ?_) rfl
    rw [getElem?_modifyNode, getElem?_withHint, getElem?_modifyNode]
    split
    · rw [Option.map_map]
      refine congrArg (Option.map · _) (funext fun n => ?_)
      exact n.takeHeader_lastByte h now
    · rfl
  unfold hearSender
  rw [named_withoutRelay h]
  dsimp only
  rw [hheader]
  rfl

theorem hearRelay_lastByte (m : Mesh) (now : Moment) (h : p.relay = some (.lastByte hint)) :
    (m.withHint s hint).hearRelay p now = ((m.hearRelay p.withoutRelay now).1.withHint s hint,
      (m.hearRelay p.withoutRelay now).2) := by
  have hnone : p.withoutRelay.relayNode? = none := rfl
  simp only [hearRelay, relayNode?_lastByte h, hnone]

/-- The gateway is another node than the sender. -/
theorem hearGateway_lastByte (m : Mesh) (now : Moment) (h : p.relay = some (.lastByte hint)) :
    (m.withHint p.sender hint).hearGateway p now
      = ((m.hearGateway p.withoutRelay now).1.withHint p.sender hint,
        (m.hearGateway p.withoutRelay now).2) := by
  have hgateway : p.withoutRelay.gatewayNode? = p.gatewayNode? := rfl
  have hdirect : p.withoutRelay.isDirect = p.isDirect := rfl
  have hsender : p.withoutRelay.sender = p.sender := rfl
  unfold hearGateway
  rw [hgateway, hdirect, named_withoutRelay h, hsender]
  split
  · next id hid =>
    rw [ensure_withHint m (gatewayNode?_spec hid).1]
    dsimp only
    rw [modifyNode_withHint _ id fun _ => rfl]
    split
    · rw [modifyNode_withHint _ id fun n => n.hears_rememberRelayHint hint p.sender,
        modifyNode_withHint _ p.sender fun n => n.isHeardBy_rememberRelayHint hint id]
    · rfl
  · rfl

/-- **Packets.** A relay that is known by its last byte is noted on the sender. -/
theorem applyNew_lastByte (m : Mesh) (now : Moment) (hp : p.hasUsableSender = true)
    (h : p.relay = some (.lastByte hint)) :
    m.applyNew p now = ((m.applyNew p.withoutRelay now).1.withHint p.sender hint,
      (m.applyNew p.withoutRelay now).2) := by
  have hp' : p.withoutRelay.hasUsableSender = true := hp
  unfold applyNew
  rw [if_pos hp, if_pos hp']
  dsimp only
  rw [hearSender_lastByte _ now h]
  dsimp only
  rw [hearRelay_lastByte _ now h]
  dsimp only
  rw [hearGateway_lastByte _ now h]
  dsimp only
  rw [takePayload_withHint]
  rfl

theorem perform_lastByte (m : Mesh) (now : Moment) (hnew : m.isRepeated p now = false)
    (hp : p.hasUsableSender = true) (h : p.relay = some (.lastByte hint)) :
    m.perform ⟨.packet p, now⟩
      = ((m.perform ⟨.packet p.withoutRelay, now⟩).1.withHint p.sender hint,
        (m.perform ⟨.packet p.withoutRelay, now⟩).2) := by
  have hid : p.withoutRelay.packetId = p.packetId := rfl
  have hsender : p.withoutRelay.sender = p.sender := rfl
  have happly : m.apply p now = ((m.apply p.withoutRelay now).1.withHint p.sender hint,
      (m.apply p.withoutRelay now).2) := by
    unfold isRepeated at hnew
    unfold apply
    rw [hid, hsender]
    generalize m.dedup.accept ⟨p.packetId, p.sender⟩ now = answer at hnew ⊢
    obtain ⟨seen, dedup⟩ := answer
    split
    · exact applyNew_lastByte m now hp h
    · next h0 =>
      obtain rfl : seen = false := by simpa [h0] using hnew
      exact applyNew_lastByte { m with dedup := dedup } now hp h
  simp only [perform, happly]

end Packet

end Mesh

end MeshWatch
