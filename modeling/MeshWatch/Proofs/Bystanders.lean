import MeshWatch.Proofs.FirstSlot
import MeshWatch.Proofs.OneNode
import MeshWatch.Proofs.RelayHints
import MeshWatch.Proofs.RouteNotes

/-!
# What a packet leaves alone

A packet is heard by three nodes at most, and its body may be about others. To every node but
its sender little can happen: it gives way to one that is new, it was heard as a relay or a
gateway, a report says whom it hears or who hears it, or the route to it gives way to another
one. Its record is otherwise as it was, and so are the history, the slots and the routes that
the packet has nothing to say about.

- `Brushed`: what may be different in the record of a node other than the sender.
- `Stamps.hearNamed` and `shown_takePayload`, for one part of a record after another: a packet
  before its body, and the body. `routeGone_updateRoute`: a route that gave way.
- `TouchesNamed`: the whole mesh. `packet_touches_named`: any mesh and any packet.
-/

namespace MeshWatch

namespace Node

/-- A record without its neighbors and routes. -/
def bare (n : Node) : Node := { n with neighbors := {}, heardBy := {}, routes := [] }

theorem eq_of_bare_eq {n n' : Node} (h : n'.bare = n.bare) :
    n' = { n with neighbors := n'.neighbors, heardBy := n'.heardBy, routes := n'.routes } := by
  cases n
  cases n'
  simp only [bare, Node.mk.injEq] at h ⊢
  tauto

theorem bare_hears (n : Node) (id : NodeId) : (n.hears id).bare = n.bare := by
  simp only [hears, bare]

theorem bare_isHeardBy (n : Node) (id : NodeId) : (n.isHeardBy id).bare = n.bare := by
  simp only [isHeardBy, bare]

theorem heardBy_hears (n : Node) (id : NodeId) : (n.hears id).heardBy = n.heardBy := by
  simp only [hears]

theorem neighbors_isHeardBy (n : Node) (id : NodeId) :
    (n.isHeardBy id).neighbors = n.neighbors := by
  simp only [isHeardBy]

end Node

namespace Mesh

variable {m m' : Mesh} {p : Packet} {now : Moment} {x : NodeId}

/-! ## The nodes of a packet -/

theorem bare_stamps (now : Moment) (hx : x ≠ p.sender) :
    Stamps Node.bare (·.heardAt now) p now x where
  again _ := rfl
  sender he := absurd he hx
  heardAt _ _ := rfl
  hears _ _ n := n.bare_hears p.sender
  isHeardBy he := absurd he hx

/-- A gateway that heard the sender itself has it for a neighbor, and nobody else has. -/
theorem neighbors_stamps (hx : x ≠ p.sender)
    (hdirect : ¬(p.gatewayNode? = some x ∧ p.isDirect = true)) :
    Stamps Node.neighbors id p now x where
  again _ := rfl
  sender he := absurd he hx
  heardAt _ _ := rfl
  hears hg hd := absurd ⟨hg, hd⟩ hdirect
  isHeardBy he := absurd he hx

theorem heardBy_stamps (hx : x ≠ p.sender) : Stamps Node.heardBy id p now x where
  again _ := rfl
  sender he := absurd he hx
  heardAt _ _ := rfl
  hears _ _ n := n.heardBy_hears p.sender
  isHeardBy he := absurd he hx

theorem routes_stamps (hx : x ≠ p.sender) : Stamps Node.routes id p now x where
  again _ := rfl
  sender he := absurd he hx
  heardAt _ _ := rfl
  hears _ _ n := n.routes_hears p.sender
  isHeardBy he := absurd he hx

theorem capped_hearNamed (m : Mesh) (p : Packet) (now : Moment) :
    Capped m.limits.nodeCap p.named (m.hearNamed p now).2 := by
  have hsender : Capped m.limits.nodeCap p.named (m.hearSender p now).2 :=
    (capped_ensure m p.sender now p.named).append (capped_of_quiet (changesOfNodes_applyUpdate ..))
  have hrelay : ∀ m : Mesh, Capped m.limits.nodeCap p.named (m.hearRelay p now).2 := by
    intro m
    rcases m.hearRelay_cases p now with ⟨-, he⟩ | ⟨id, -, -, ht⟩
    · rw [he]
      exact capped_of_quiet rfl
    · rw [ht]
      exact (capped_ensure m id now p.named).append (capped_of_quiet rfl)
  have hgateway : ∀ m : Mesh, Capped m.limits.nodeCap p.named (m.hearGateway p now).2 := by
    intro m
    rcases m.hearGateway_cases p now with ⟨-, he⟩ | ⟨id, -, -, ht⟩
    · rw [he]
      exact capped_of_quiet rfl
    · rw [ht]
      exact capped_ensure m id now p.named
  have hlim₁ := (Spares.hearSender m p now).limits
  have hlim₂ := ((Spares.hearSender m p now).trans (.hearRelay _ p now)).limits
  have hall := (hsender.append (hlim₁ ▸ hrelay _)).append (hlim₂ ▸ hgateway _)
  exact hall

/-- The route to a node is dropped with the node, and left alone otherwise. -/
def RouteKept (x : NodeId) (m m' : Mesh) (told : Journal) : Prop :=
  m'.routes[x]? = if x ∈ removed told then none else m.routes[x]?

theorem RouteKept.trans {m₁ : Mesh} {told told' : Journal} (h : RouteKept x m m₁ told)
    (h' : RouteKept x m₁ m' told') : RouteKept x m m' (told ++ told') := by
  unfold RouteKept at h h' ⊢
  rw [h', h, removed_append]
  by_cases hgone : x ∈ removed told'
  · simp [hgone]
  · simp [hgone]

theorem RouteKept.of_eq {told : Journal} (h : m'.routes[x]? = m.routes[x]?)
    (ht : changesOfNodes told = []) : RouteKept x m m' told := by
  unfold RouteKept
  rw [removed_of_quiet ht]
  exact h

theorem routeKept_hearNamed (m : Mesh) (p : Packet) (now : Moment) (x : NodeId) :
    RouteKept x m (m.hearNamed p now).1 (m.hearNamed p now).2 := by
  have hensure : ∀ (m : Mesh) id, RouteKept x m (m.ensure id now p.named).1
      (m.ensure id now p.named).2 := fun m id => getElem?_routes_ensure m id now p.named x
  have hsender : RouteKept x m (m.hearSender p now).1 (m.hearSender p now).2 :=
    (hensure m p.sender).trans (.of_eq rfl (changesOfNodes_applyUpdate ..))
  have hrelay : ∀ m : Mesh, RouteKept x m (m.hearRelay p now).1 (m.hearRelay p now).2 := by
    intro m
    unfold hearRelay
    split
    · next id _ => exact (hensure m id).trans (.of_eq rfl rfl)
    · exact .of_eq rfl rfl
  have hgateway : ∀ m : Mesh, RouteKept x m (m.hearGateway p now).1 (m.hearGateway p now).2 := by
    intro m
    unfold hearGateway
    split
    · next id _ =>
      dsimp only
      split
      · exact hensure m id
      · exact hensure m id
    · exact .of_eq rfl rfl
  exact (hsender.trans (hrelay _)).trans (hgateway _)

theorem Spares.hearNamed (m : Mesh) (p : Packet) (now : Moment) : Spares m (m.hearNamed p now).1 :=
  ((Spares.hearSender m p now).trans (.hearRelay _ p now)).trans (.hearGateway _ p now)

/-! ## The body -/

/-- A report changes whom its reporter hears, and who hears those that it lists. -/
def ReportEdit (reporter : NodeId) (entries : List NeighborEntry) : Edit := fun id f =>
  (id = reporter ∧ ∃ ids : List NodeId, f = fun n => ids.foldl Node.hears n) ∨
    (id ∈ entries.map NeighborEntry.nodeId ∧ f = (·.isHeardBy reporter))

theorem edits_report (m : Mesh) (reporter : NodeId) (entries : List NeighborEntry) :
    Edits (ReportEdit reporter entries) m (m.updateNeighbors reporter entries) :=
  edits_updateNeighbors_of (fun ids _ => Or.inl ⟨rfl, ids, rfl⟩)
    (fun _ hi _ _ => Or.inr ⟨hi, rfl⟩) m

theorem shown_takePayload {α : Type} {view : Node → α} (m : Mesh) (channel : UInt32)
    (hroute : (∃ d, p.payload = .traceroute d) → ∀ f n, RouteEdit x f → view (f n) = view n)
    (hreport : ∀ r, p.payload = .neighborInfo r →
      ∀ f n, ReportEdit (m.reporterOf p.sender r) r.neighbors x f → view (f n) = view n) :
    (m.takePayload p channel now).1.shown view x = m.shown view x := by
  unfold takePayload
  split
  · rfl
  · next d hd => exact (edits_updateRoute m _).map_getElem? fun f n => hroute ⟨d, hd⟩ f n
  · next r hr => exact (edits_report m _ _).map_getElem? (hreport r hr)
  · rfl

/-! ### Routes that give way -/

/-- The table of routes was full, and the route to a node was dropped from it and from the
node. -/
def RouteGone (x : NodeId) (m m' : Mesh) : Prop :=
  m.limits.routeCap ≤ m.routes.size ∧ ∃ old, m.routes[x]? = some old ∧ m'.routes[x]? = none ∧
    m'.nodes[x]? = (m.nodes[x]?).map (·.forgetRoute old.routeId)

/-- The route to a node is the one that is dropped, or its place is left alone. -/
theorem removeRoute_cases (m : Mesh) (d x : NodeId) :
    ((m.removeRoute d).nodes[x]? = m.nodes[x]? ∧ (m.removeRoute d).routes[x]? = m.routes[x]?) ∨
    ∃ old, m.routes[x]? = some old ∧ (m.removeRoute d).routes[x]? = none ∧
      (m.removeRoute d).nodes[x]? = (m.nodes[x]?).map (·.forgetRoute old.routeId) := by
  unfold removeRoute
  split
  · next old hold =>
    have hnode : (m.modifyNode d (·.forgetRoute old.routeId)).nodes[x]?
        = if d = x then (m.nodes[x]?).map (·.forgetRoute old.routeId) else m.nodes[x]? :=
      getElem?_modifyNode ..
    have hroute : (m.routes.erase d)[x]? = if d = x then none else m.routes[x]? :=
      Table.getElem?_erase ..
    by_cases hx : d = x
    · rw [if_pos hx] at hnode hroute
      exact Or.inr ⟨old, hx ▸ hold, hroute, hnode⟩
    · rw [if_neg hx] at hnode hroute
      exact Or.inl ⟨hnode, hroute⟩
  · exact Or.inl ⟨rfl, rfl⟩

theorem routeGone_makeRouteRoom (fuel : Nat) : ∀ m : Mesh,
    (makeRouteRoom fuel m).nodes[x]? = m.nodes[x]? ∨ RouteGone x m (makeRouteRoom fuel m) := by
  induction fuel with
  | zero => intro m; exact Or.inl rfl
  | succ fuel ih =>
    intro m
    rw [makeRouteRoom]
    split
    · exact Or.inl rfl
    · next hfull =>
      split
      · next r _ =>
        have hcap : m.limits.routeCap ≤ m.routes.size := Nat.not_lt.1 hfull
        have hrest := ih (m.removeRoute r.destination)
        rcases m.removeRoute_cases r.destination x with ⟨hnode, hroute⟩ | ⟨old, hold, hnone, hnode⟩
        · rcases hrest with he | ⟨-, old, hold, hgone, hforgot⟩
          · exact Or.inl (he.trans hnode)
          · exact Or.inr ⟨hcap, old, hroute ▸ hold, hgone, hnode ▸ hforgot⟩
        · -- no other route leads to the node, so it loses no more
          refine Or.inr ⟨hcap, old, hold, ?_, ?_⟩
          · rw [Option.eq_none_iff_forall_ne_some]
            intro r' hr'
            have hthere := (Spares.makeRouteRoom fuel _).routes x r' hr'
            rw [hnone] at hthere
            cases hthere
          · rcases hrest with he | ⟨-, old', hold', -⟩
            · exact he.trans hnode
            · rw [hnone] at hold'
              cases hold'
      · exact Or.inl rfl

/-- A route that leads to another node leaves a node alone, unless it takes the place of the
route to it. -/
theorem routeGone_updateRoute (m : Mesh) {r : Route} (hx : x ≠ r.destination) :
    (m.updateRoute r).1.nodes[x]? = m.nodes[x]? ∨ RouteGone x m (m.updateRoute r).1 := by
  unfold updateRoute
  split
  · unfold storeRoute
    extract_lets m'
    have hroom : m'.nodes[x]? = m.nodes[x]? ∨ RouteGone x m m' := by
      unfold m'
      split
      · refine Or.inl ?_
        rw [getElem?_modifyNode, if_neg hx.symm]
      · exact routeGone_makeRouteRoom _ m
    have hnode : (m'.modifyNode r.destination (·.rememberRoute r.routeId)).nodes[x]?
        = m'.nodes[x]? := by
      rw [getElem?_modifyNode, if_neg hx.symm]
    rcases hroom with he | ⟨hcap, old, hold, hgone, hforgot⟩
    · exact Or.inl (hnode.trans he)
    · refine Or.inr ⟨hcap, old, hold, ?_, hnode.trans hforgot⟩
      show (m'.routes.insert r.destination _)[x]? = none
      rw [Table.getElem?_insert, if_neg hx.symm, hgone]
  · exact Or.inl rfl

/-! ## Slots and messages -/

/-- A name gets no other slot than the one that is found for it. -/
theorem getElem?_resolveChannel {i : UInt32} {name : String} {index : UInt32}
    (hi : i ≠ (m.resolveChannel name index).2) :
    (m.resolveChannel name index).1.channels[i]? = m.channels[i]? := by
  rcases m.resolveChannel_cases name index with he | ⟨c, -, he⟩
  · rw [he]
  · rw [he] at hi ⊢
    rw [getElem?_setChannel]
    exact if_neg hi.symm

theorem getElem?_channels_takePayload (m : Mesh) (p : Packet) (now : Moment) {i channel : UInt32}
    (hi : i ≠ channel) : (m.takePayload p channel now).1.channels[i]? = m.channels[i]? := by
  unfold takePayload
  split
  · exact (getElem?_touchChannel m channel i true now).trans (if_neg hi.symm)
  · rw [channels_updateRoute]
  · rw [(Spares.updateNeighbors m _ _).channels]
  · rfl

theorem messages_takePayload (m : Mesh) (channel : UInt32) (now : Moment)
    (ht : ∀ t, p.payload ≠ .text t) :
    (m.takePayload p channel now).1.messages = m.messages := by
  unfold takePayload
  split
  · next t h => exact absurd h (ht t)
  · exact (edits_updateRoute m _).messages
  · exact (edits_updateNeighbors m _ _).messages
  · rfl

theorem routes_takePayload (m : Mesh) (channel : UInt32) (now : Moment)
    (ht : ∀ d, p.payload ≠ .traceroute d) :
    (m.takePayload p channel now).1.routes = m.routes := by
  have hfold : ∀ (ids : List NodeId) (reporter : NodeId) (m : Mesh),
      (ids.foldl (fun m id => m.modifyNode id fun n => n.isHeardBy reporter) m).routes
        = m.routes := by
    intro ids reporter
    induction ids with
    | nil => intro m; rfl
    | cons id ids ih => intro m; exact ih (m.modifyNode id _)
  unfold takePayload
  split
  · rfl
  · next d hd => exact absurd hd (ht d)
  · exact hfold _ _ _
  · rfl

/-! ## Bystanders -/

/-- What may be different in the record of a node other than the sender of a packet: when it
was heard, if it is the relay or the gateway; its neighbors, if it is a gateway that heard the
sender itself, or the reporter; who hears it, if it is on the list of the reporter; and its
routes, if the one that is stored gave way to that of a traceroute. -/
structure Brushed (m m' : Mesh) (p : Packet) (now : Moment) (x : NodeId) (n n' : Node) : Prop where
  rest : n' =
    { n with
      lastHeard := n'.lastHeard, neighbors := n'.neighbors, heardBy := n'.heardBy
      routes := n'.routes }
  lastHeard : n'.lastHeard
    = if p.relayNode? = some x ∨ p.gatewayNode? = some x then now else n.lastHeard
  neighbors : n'.neighbors = n.neighbors ∨ (p.gatewayNode? = some x ∧ p.isDirect = true) ∨
    ∃ r, p.payload = .neighborInfo r ∧ r.nodeId = some x
  heardBy : n'.heardBy = n.heardBy ∨
    ∃ r, p.payload = .neighborInfo r ∧ x ∈ r.neighbors.map NeighborEntry.nodeId
  routes : n'.routes = n.routes ∨ (∃ d, p.payload = .traceroute d) ∧
    m.limits.routeCap ≤ m.routes.size ∧ ∃ old, m.routes[x]? = some old ∧ m'.routes[x]? = none ∧
      n'.routes = n.routes.filter (· != old.routeId)

theorem Brushed.congr {m₁ m₁' : Mesh} {n n' : Node} (h : Brushed m₁ m₁' p now x n n')
    (hl : m₁.limits = m.limits) (hr : m₁.routes = m.routes) (hr' : m₁'.routes = m'.routes) :
    Brushed m m' p now x n n' where
  rest := h.rest
  lastHeard := h.lastHeard
  neighbors := h.neighbors
  heardBy := h.heardBy
  routes := by
    rw [← hl, ← hr, ← hr']
    exact h.routes

section Bystander

variable {n : Node} {channel : UInt32}

/-- A part of a record that no hearing changes is as it was before the body. -/
theorem Stamps.kept {α : Type} {view : Node → α} (h : Stamps view id p now x)
    (hn : m.nodes[x]? = some n) (hkept : x ∉ removed (m.hearNamed p now).2) :
    (m.hearNamed p now).1.shown view x = some (view n) := by
  rw [(h.hearNamed m).shown, shown, hn, if_neg hkept]
  split <;> rfl

theorem shown_bare (channel : UInt32) (hx : x ≠ p.sender) (hn : m.nodes[x]? = some n)
    (hkept : x ∉ removed (m.hearNamed p now).2) :
    (m.takePacket p channel now).1.shown Node.bare x = some (Node.bare
      { n with
        lastHeard := if p.relayNode? = some x ∨ p.gatewayNode? = some x then now
          else n.lastHeard }) := by
  have hbody : (m.takePacket p channel now).1.shown Node.bare x
      = (m.hearNamed p now).1.shown Node.bare x := by
    refine shown_takePayload _ channel (fun _ f n' hf => ?_) fun r _ f n' hf => ?_
    · exact routeEdit_keeps (fun _ _ => rfl) (fun _ _ => rfl) hf n'
    · rcases hf with ⟨-, ids, rfl⟩ | ⟨-, rfl⟩
      · exact Node.hears_all_keeps Node.bare_hears ids n'
      · exact n'.bare_isHeardBy _
  rw [hbody, ((bare_stamps now hx).hearNamed m).shown, shown, hn, if_neg hkept]
  simp only [List.cons_append, List.mem_cons, List.mem_append, Option.mem_toList, hx, false_or]
  split <;> rfl

theorem reporterOf_ne {r : NeighborReport} (hx : x ≠ p.sender) (hr : r.nodeId ≠ some x) :
    x ≠ m.reporterOf p.sender r := by
  unfold reporterOf
  split
  · next id hid =>
    split
    · rintro rfl
      exact hr hid
    · exact hx
  · exact hx

theorem shown_neighbors (hx : x ≠ p.sender) (hn : m.nodes[x]? = some n)
    (hkept : x ∉ removed (m.hearNamed p now).2)
    (hdirect : ¬(p.gatewayNode? = some x ∧ p.isDirect = true))
    (hreport : ∀ r, p.payload = .neighborInfo r → r.nodeId ≠ some x) :
    (m.takePacket p channel now).1.shown Node.neighbors x = some n.neighbors := by
  rw [← (neighbors_stamps hx hdirect).kept hn hkept]
  refine shown_takePayload _ channel (fun _ f n' hf => ?_) fun r hr f n' hf => ?_
  · exact routeEdit_keeps (fun _ _ => rfl) (fun _ _ => rfl) hf n'
  · rcases hf with ⟨he, -⟩ | ⟨-, rfl⟩
    · exact absurd he (reporterOf_ne hx (hreport r hr))
    · exact n'.neighbors_isHeardBy _

theorem shown_heardBy (hx : x ≠ p.sender) (hn : m.nodes[x]? = some n)
    (hkept : x ∉ removed (m.hearNamed p now).2)
    (hlisted : ∀ r, p.payload = .neighborInfo r → x ∉ r.neighbors.map NeighborEntry.nodeId) :
    (m.takePacket p channel now).1.shown Node.heardBy x = some n.heardBy := by
  rw [← (heardBy_stamps hx).kept hn hkept]
  refine shown_takePayload _ channel (fun _ f n' hf => ?_) fun r hr f n' hf => ?_
  · exact routeEdit_keeps (fun _ _ => rfl) (fun _ _ => rfl) hf n'
  · rcases hf with ⟨-, ids, rfl⟩ | ⟨he, -⟩
    · exact Node.hears_all_keeps Node.heardBy_hears ids n'
    · exact absurd he (hlisted r hr)

theorem shown_routes (hx : x ≠ p.sender) (hn : m.nodes[x]? = some n)
    (hkept : x ∉ removed (m.hearNamed p now).2) (ht : ∀ d, p.payload ≠ .traceroute d) :
    (m.takePacket p channel now).1.shown Node.routes x = some n.routes := by
  rw [← (routes_stamps hx).kept hn hkept]
  refine shown_takePayload _ channel (fun ⟨d, hd⟩ => absurd hd (ht d)) fun r hr f n' hf => ?_
  rcases hf with ⟨-, ids, rfl⟩ | ⟨-, rfl⟩
  · exact Node.hears_all_keeps Node.routes_hears ids n'
  · exact n'.routes_isHeardBy _

/-- The route of a traceroute leads to the sender, so a route to another node can only give
way to it. -/
theorem shown_routes_traceroute (channel : UInt32) (hx : x ≠ p.sender) (hn : m.nodes[x]? = some n)
    (hkept : x ∉ removed (m.hearNamed p now).2) {d : RouteDiscovery}
    (hd : p.payload = .traceroute d) :
    let m' := (m.takePacket p channel now).1
    m'.shown Node.routes x = some n.routes ∨ m.limits.routeCap ≤ m.routes.size ∧
      ∃ old, m.routes[x]? = some old ∧ m'.routes[x]? = none ∧
        m'.shown Node.routes x = some (n.routes.filter (· != old.routeId)) := by
  intro m'
  have hbefore := (routes_stamps hx).kept hn hkept
  have hspares := Spares.hearNamed m p now
  have htaken : m' = ((m.hearNamed p now).1.updateRoute (Route.ofDiscovery p.sender d now)).1 := by
    show ((m.hearNamed p now).1.takePayload p channel now).1 = _
    simp only [takePayload, hd]
  rw [htaken]
  rcases routeGone_updateRoute (m.hearNamed p now).1 (r := Route.ofDiscovery p.sender d now) hx with
    he | ⟨hcap, old, hold, hgone, hnode⟩
  · refine Or.inl ?_
    rw [← hbefore, shown, he]
    rfl
  · rw [hspares.limits] at hcap
    refine Or.inr ⟨Nat.le_trans hcap (Table.size_le hspares.routes), old,
      hspares.routes x old hold, hgone, ?_⟩
    obtain ⟨n₁, hn₁, he⟩ := Option.map_eq_some_iff.1 hbefore
    rw [shown, hnode, hn₁, ← he]
    rfl

/-- **A node other than the sender** that does not give way. -/
theorem brushed_takePacket (channel : UInt32) (hx : x ≠ p.sender) (hn : m.nodes[x]? = some n)
    (hkept : x ∉ removed (m.hearNamed p now).2) :
    let m' := (m.takePacket p channel now).1
    ∃ n', m'.nodes[x]? = some n' ∧ Brushed m m' p now x n n' := by
  intro m'
  obtain ⟨n', hn', hbare⟩ := Option.map_eq_some_iff.1 (shown_bare channel hx hn hkept)
  have hpart : ∀ {α : Type} {view : Node → α} {a : α}, m'.shown view x = some a → view n' = a := by
    intro α view a h
    rw [shown, hn'] at h
    exact Option.some.inj h
  have hlast : n'.lastHeard
      = if p.relayNode? = some x ∨ p.gatewayNode? = some x then now else n.lastHeard :=
    congrArg Node.lastHeard hbare
  refine ⟨n', hn', ?_, hlast, ?_, ?_, ?_⟩
  · rw [hlast]
    exact Node.eq_of_bare_eq hbare
  · by_cases hdirect : p.gatewayNode? = some x ∧ p.isDirect = true
    · exact Or.inr (Or.inl hdirect)
    · by_cases hreport : ∃ r, p.payload = .neighborInfo r ∧ r.nodeId = some x
      · exact Or.inr (Or.inr hreport)
      · simp only [not_exists, not_and] at hreport
        exact Or.inl (hpart (shown_neighbors hx hn hkept hdirect hreport))
  · by_cases hlisted : ∃ r, p.payload = .neighborInfo r ∧ x ∈ r.neighbors.map NeighborEntry.nodeId
    · exact Or.inr hlisted
    · simp only [not_exists, not_and] at hlisted
      exact Or.inl (hpart (shown_heardBy hx hn hkept hlisted))
  · by_cases htraced : ∃ d, p.payload = .traceroute d
    · obtain ⟨d, hd⟩ := htraced
      rcases shown_routes_traceroute channel hx hn hkept hd with
        hsame | ⟨hcap, old, hold, hgone, hforgot⟩
      · exact Or.inl (hpart hsame)
      · exact Or.inr ⟨⟨d, hd⟩, hcap, old, hold, hgone, hpart hforgot⟩
    · rw [not_exists] at htraced
      exact Or.inl (hpart (shown_routes hx hn hkept htraced))

end Bystander

/-! ## The whole mesh -/

/-- A packet touches nothing but what it names, and what gives way to that. -/
structure TouchesNamed (m m' : Mesh) (p : Packet) (now : Moment) (told : Journal) : Prop where
  /-- A node gives way, with a warning, or it is brushed at most. -/
  others : ∀ (x : NodeId) (n : Node), x ≠ p.sender → m.nodes[x]? = some n →
    (x ∈ removed told ∧ x ∉ p.named ∧ m'.nodes[x]? = none ∧
      ∃ stored, m.limits.nodeCap ≤ stored ∧ .warning (.nodeCap x stored) ∈ told) ∨
    (x ∉ removed told ∧ ∃ n', m'.nodes[x]? = some n' ∧ Brushed m m' p now x n n')
  strangers : ∀ x : NodeId, m.nodes[x]? = none → x ≠ p.sender → p.relayNode? ≠ some x →
    p.gatewayNode? ≠ some x → m'.nodes[x]? = none
  messages : (∀ t, p.payload ≠ .text t) → m'.messages = m.messages
  channels : ∀ i, i ≠ (m.resolveChannel p.channelName p.channelIndex).2 →
    m'.channels[i]? = m.channels[i]?
  routes : (∀ d, p.payload ≠ .traceroute d) →
    ∀ x : NodeId, m'.routes[x]? = if x ∈ removed told then none else m.routes[x]?

/-- Whoever was not heard is not there if it was not there before or gave way. -/
theorem getElem?_takePacket_none (m : Mesh) (channel : UInt32) (now : Moment)
    (hheard : x ∉ p.sender :: p.relayNode?.toList ++ p.gatewayNode?.toList)
    (h : x ∈ removed (m.hearNamed p now).2 ∨ m.nodes[x]? = none) :
    (m.takePacket p channel now).1.nodes[x]? = none := by
  let there : Node → Unit := fun _ => ()
  have hstamps : Stamps there id p now x :=
    ⟨fun _ => rfl, fun _ _ => rfl, fun _ _ => rfl, fun _ _ _ => rfl, fun _ _ _ => rfl⟩
  have hbody : (m.takePacket p channel now).1.shown there x = (m.hearNamed p now).1.shown there x :=
    shown_takePayload _ channel (fun _ _ _ _ => rfl) fun _ _ _ _ _ => rfl
  have hnone : (m.takePacket p channel now).1.shown there x = none := by
    rw [hbody, (hstamps.hearNamed m).shown, if_neg hheard]
    split
    · rfl
    · next hkept => rw [shown, h.resolve_left hkept, Option.map_none]
  exact Option.map_eq_none_iff.1 hnone

/-- A packet that was received on a slot, which was found for it before. -/
theorem touchesNamed_takePacket {m₀ : Mesh} {channel : UInt32}
    (hslot : (m.resolveChannel p.channelName p.channelIndex).2 = channel)
    (hn : m₀.nodes = m.nodes) (hl : m₀.limits = m.limits) (hr : m₀.routes = m.routes)
    (hm : m₀.messages = m.messages)
    (hc : ∀ i, i ≠ channel → m₀.channels[i]? = m.channels[i]?) :
    let taken := m₀.takePacket p channel now
    TouchesNamed m { taken.1 with lastUpdate := some now } p now
      (taken.2 ++ [.event (.nodeUpdated p.sender)]) := by
  intro taken
  have hspares := Spares.hearNamed m₀ p now
  have htold : removed (taken.2 ++ [.event (.nodeUpdated p.sender)])
      = removed (m₀.hearNamed p now).2 := by
    have hquiet : removed [.event (.nodeUpdated p.sender)] = [] := rfl
    rw [removed_append, hquiet, List.append_nil]
    exact removed_takePacket m₀ p channel now
  constructor
  · intro x n hx hnode
    rw [htold]
    by_cases hgone : x ∈ removed (m₀.hearNamed p now).2
    · obtain ⟨hnamed, stored, hcap, hwarned⟩ := capped_hearNamed m₀ p now x hgone
      refine Or.inl ⟨hgone, hnamed, ?_, stored, hl ▸ hcap, ?_⟩
      · have hnot := fun hheard => hnamed (mem_named_of_mem_heardOf hheard)
        exact getElem?_takePacket_none m₀ channel now hnot (Or.inl hgone)
      · exact List.mem_append_left _ (List.mem_append_left _ hwarned)
    · obtain ⟨n', hn', hb⟩ := brushed_takePacket channel hx (hn ▸ hnode) hgone
      exact Or.inr ⟨hgone, n', hn', hb.congr hl hr rfl⟩
  · intro x hnone hsender hrelay hgateway
    refine getElem?_takePacket_none m₀ channel now (fun hheard => ?_) (Or.inr (hn ▸ hnone))
    rcases mem_heardOf.1 hheard with h | h | h
    · exact hsender h
    · exact hrelay h
    · exact hgateway h
  · intro ht
    exact (messages_takePayload _ channel now ht).trans (hspares.messages.trans hm)
  · intro i hi
    rw [hslot] at hi
    have hbody := getElem?_channels_takePayload (m₀.hearNamed p now).1 p now hi
    rw [hspares.channels, hc i hi] at hbody
    exact hbody
  · intro ht x
    have hbody := routes_takePayload (m₀.hearNamed p now).1 channel now ht
    have hkept : RouteKept x m₀ _ _ := routeKept_hearNamed m₀ p now x
    rw [htold, ← hr, ← hkept, ← hbody]
    rfl

/-- **A packet touches only what it names.** Take any mesh, and a packet that is not repeated
and has a usable sender. A node other than the sender gives way to one that is new, because
there are as many as fit, or its record is brushed at most. No other node comes, the history
changes for a text only, of the slots that one only on which the packet was received, and the
routes for a traceroute only, apart from those to nodes that give way. A relay that is known
by its last byte is noted on the sender, and makes no other difference. -/
theorem packet_touches_named (m : Mesh) (p : Packet) (now : Moment)
    (hnew : m.isRepeated p now = false) (hp : p.hasUsableSender = true) :
    let after := m.perform ⟨.packet p, now⟩
    TouchesNamed m after.1 p now after.2 ∧
    ∀ hint, p.relay = some (.lastByte hint) →
      let plain := m.perform ⟨.packet { p with relay := none }, now⟩
      after = (plain.1.modifyNode p.sender (·.rememberRelayHint hint), plain.2) := by
  intro after
  refine ⟨?_, fun hint h => perform_lastByte m now hnew hp h⟩
  obtain ⟨dedup, ⟨hr, -⟩ | ⟨-, he⟩⟩ := m.apply_cases p now
  · rw [hnew] at hr
    cases hr
  · let m₁ : Mesh := { m with dedup := dedup }
    have hslot : (m₁.resolveChannel p.channelName p.channelIndex).2
        = (m.resolveChannel p.channelName p.channelIndex).2 := slot_of_dedup ..
    have hframed := framed_resolveChannel m₁ p.channelName p.channelIndex
    have hroutes := RoutesNoted.routes_resolveChannel m₁ p.channelName p.channelIndex
    obtain ⟨hmesh, htold⟩ := m₁.applyNew_eq now hp
    have hafter : after = ((m₁.applyNew p now).1, (m₁.applyNew p now).2.1) := by
      simp only [after, perform, he, m₁]
    rw [hafter, hmesh, htold]
    refine touchesNamed_takePacket hslot.symm hframed.nodes hframed.limits hroutes
      hframed.messages fun i hi => ?_
    rw [getElem?_touchChannel, if_neg hi.symm, getElem?_resolveChannel (m := m₁) hi]

/-- Three nodes and one route fit. A traceroute of a new node comes by way of a gateway that
heard it itself, and of a relay that is known by one byte: one node gives way, another one
loses the route to it, and the gateway was heard and has a new neighbor. -/
theorem traceroute_in_full_mesh :
    let steps : List Step := [
      ⟨.update ⟨0x1003⟩ {}, .ofSecs 5⟩,
      ⟨.update ⟨0x1001⟩ {}, .ofSecs 10⟩,
      ⟨.route ⟨0x1001⟩ [⟨⟨0x2001⟩, 5, .ofSecs 11⟩], .ofSecs 11⟩,
      ⟨.update ⟨0x1002⟩ {}, .ofSecs 12⟩]
    let m := (new { maxNodes := 3, maxRoutes := 1 } "LongFast" {}).after steps
    let p : Packet :=
      { packetId := 7, sender := ⟨0x1004⟩, recipient := .broadcast, gateway := some ⟨0x1002⟩
        channelName := "LongFast", channelIndex := 0, hopLimit := 3, hopStart := 3
        rxSnr := none, rxRssi := none, rxTime := none, relay := some (.lastByte 0x34)
        wantAck := false, encrypted := false
        payload := .traceroute { route := [⟨0x2003⟩], snrTowards := [4, 2] } }
    let after := m.perform ⟨.packet p, .ofSecs 20⟩
    let plain := m.perform ⟨.packet { p with relay := none }, .ofSecs 20⟩
    m.isRepeated p (.ofSecs 20) = false ∧ p.hasUsableSender = true ∧
    TouchesNamed m after.1 p (.ofSecs 20) after.2 ∧
    after = (plain.1.modifyNode ⟨0x1004⟩ (·.rememberRelayHint 0x34), plain.2) ∧
    removed after.2 = [⟨0x1003⟩] ∧
    (after.1.nodeList.map fun n => (n.id.value, n.lastHeard, n.neighbors.ids, n.routes))
      = [(0x1001, .ofSecs 10, [], []), (0x1002, .ofSecs 20, [⟨0x1004⟩], []),
        (0x1004, .ofSecs 20, [], ["!00002003>!00001004"])] := by
  intro steps m p after plain
  have hnew : m.isRepeated p (.ofSecs 20) = false := by decide +kernel
  obtain ⟨htouched, hhint⟩ := packet_touches_named m p (.ofSecs 20) hnew rfl
  exact ⟨hnew, rfl, htouched, hhint 0x34 rfl, by decide +kernel, by decide +kernel⟩

end Mesh

end MeshWatch
