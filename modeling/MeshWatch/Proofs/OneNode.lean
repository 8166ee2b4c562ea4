import MeshWatch.Proofs.EventStream
import MeshWatch.Proofs.Tables

/-!
# What becomes of one node

Others give way to the nodes that are heard, and single nodes are edited. For one node that
leaves three possibilities: it was heard, it gave way, or it is as before. What is looked at
may be the whole record of the node or a part of it.

- `Capped`: whoever gives way to another need not be kept, and is told with a warning.
- `GoesWith`: what is kept of a node is left as it is until the node is removed, and
  `getElem?_ensure_self`: a node that is heard is there.
- `Stamped`: the three possibilities. `Stamped.hear`, `Stamped.edits`, `Stamped.trans`: how
  they come about.
- `hearNamed`, `takePacket`, `applyNew_eq`: a packet, cut in two before its body.
  `Stamps.hearNamed`: the first part of it.
- `Overlooks.perform`: a whole step, for a view that neither links nor neighbors nor routes
  show in.
-/

namespace MeshWatch

/-- What hearing one more node leaves alone, hearing several ones leaves alone. -/
theorem Node.hears_all_keeps {α : Type} {view : Node → α}
    (h : ∀ n id, view (hears n id) = view n) (ids : List NodeId) : ∀ n : Node,
      view (ids.foldl hears n) = view n := by
  induction ids with
  | nil => intro n; rfl
  | cons id ids ih =>
    intro n
    rw [List.foldl_cons, ih, h]

namespace Mesh

variable {m m' : Mesh} {keep : List NodeId} {id x : NodeId} {now : Moment}

/-! ## Who is told to be removed -/

@[simp] theorem removed_append (told more : Journal) :
    removed (told ++ more) = removed told ++ removed more := by
  simp only [removed, changesOfNodes_append, List.filterMap_append]

theorem removed_of_quiet {told : Journal} (h : changesOfNodes told = []) : removed told = [] := by
  rw [removed, h]
  rfl

theorem removed_sweepJournal (ids : List NodeId) : removed (sweepJournal ids) = ids := by
  have hchanges : (ids.map Event.nodeStale).filter isChangeOfNodes = ids.map .nodeStale := by
    rw [List.filter_eq_self]
    intro e he
    obtain ⟨_, -, rfl⟩ := List.mem_map.1 he
    rfl
  rw [removed, changesOfNodes, sweep_journal, hchanges, filterMap_map_nodeStale]

/-! ## Who gives way -/

/-- Whoever went need not be kept, and it was warned that as many nodes were known as fit. -/
def Capped (cap : Nat) (keep : List NodeId) (told : Journal) : Prop :=
  ∀ id ∈ removed told, id ∉ keep ∧ ∃ stored, cap ≤ stored ∧ .warning (.nodeCap id stored) ∈ told

theorem capped_of_quiet {cap : Nat} {told : Journal} (h : changesOfNodes told = []) :
    Capped cap keep told := by
  intro id hid
  rw [removed_of_quiet h] at hid
  cases hid

theorem Capped.append {cap : Nat} {told more : Journal} (h : Capped cap keep told)
    (h' : Capped cap keep more) : Capped cap keep (told ++ more) := by
  intro id hid
  rw [removed_append, List.mem_append] at hid
  rcases hid with hid | hid
  · obtain ⟨hkeep, stored, hcap, hwarned⟩ := h id hid
    exact ⟨hkeep, stored, hcap, List.mem_append_left _ hwarned⟩
  · obtain ⟨hkeep, stored, hcap, hwarned⟩ := h' id hid
    exact ⟨hkeep, stored, hcap, List.mem_append_right _ hwarned⟩

theorem removeOldest_not_mem (h : (m.removeOldest keep).2 = some id) : id ∉ keep := by
  have hsome := @Sightings.oldest_some m.isUpToDate keep.contains id m.sightings.size [] m.sightings
  obtain ⟨found, rest, hfound, he⟩ := m.removeOldest_eq keep
  rw [he] at h
  rw [hfound] at hsome
  cases found with
  | some i =>
    obtain ⟨_, -, -, -, hkeep, -⟩ := hsome h
    simpa using hkeep
  | none => cases h

theorem capped_makeRoom (keep : List NodeId) (fuel : Nat) : ∀ m : Mesh,
    Capped m.limits.nodeCap keep (makeRoom keep fuel m).2 := by
  induction fuel with
  | zero => exact fun _ => capped_of_quiet rfl
  | succ fuel ih =>
    intro m
    have hlim := limits_offNodes.removeOldest m keep
    rw [makeRoom]
    split
    · exact capped_of_quiet rfl
    · next hfull =>
      split
      · exact capped_of_quiet rfl
      · next m' id he =>
        rw [he] at hlim
        have hrest := ih m'
        rw [show m'.limits = m.limits from hlim] at hrest
        -- the first one to go has its warning right before it
        have hfirst : Capped m.limits.nodeCap keep
            [.warning (.nodeCap id m.nodes.size), .event (.nodeStale id)] := by
          intro i hi
          rw [List.mem_singleton.1 hi]
          exact ⟨removeOldest_not_mem (congrArg Prod.snd he), m.nodes.size, Nat.not_lt.1 hfull,
            List.mem_cons_self ..⟩
        exact hfirst.append hrest

theorem capped_ensure (m : Mesh) (id : NodeId) (now : Moment) (keep : List NodeId) :
    Capped m.limits.nodeCap keep (m.ensure id now keep).2 := by
  show Capped m.limits.nodeCap keep (m.announce id keep).2
  unfold announce
  cases m.nodes.contains id with
  | true => exact capped_of_quiet rfl
  | false =>
    have hcreated : Capped m.limits.nodeCap keep [.event (.nodeCreated id)] := fun _ => nofun
    exact (capped_makeRoom keep m.nodes.size m).append hcreated

/-! ## What goes with a node -/

/-- Something is there under an id until the node is removed: its record, or the route to
it. -/
structure GoesWith {β : Type} (x : NodeId) (under : Mesh → Option β) : Prop where
  sightings : ∀ (m : Mesh) rest, under { m with sightings := rest } = under m
  removeNode : ∀ (m : Mesh) id, under (m.removeNode id) = if id = x then none else under m

theorem nodes_goesWith (x : NodeId) : GoesWith x fun m => m.nodes[x]? :=
  ⟨fun _ _ => rfl, fun m id => getElem?_removeNode m id x⟩

theorem routes_goesWith (x : NodeId) : GoesWith x fun m => m.routes[x]? :=
  ⟨fun _ _ => rfl, fun m id => Table.getElem?_erase m.routes id x⟩

namespace GoesWith

variable {β : Type} {under : Mesh → Option β}

theorem removeOldest (h : GoesWith x under) (m : Mesh) (keep : List NodeId) :
    under (m.removeOldest keep).1
      = if (m.removeOldest keep).2 = some x then none else under m := by
  obtain ⟨found, rest, -, he⟩ := m.removeOldest_eq keep
  rw [he]
  cases found with
  | some id =>
    show under ({ m with sightings := rest }.removeNode id) = if some id = some x then none else _
    rw [h.removeNode, h.sightings]
    simp only [Option.some.injEq]
  | none => exact h.sightings m rest

theorem makeRoom (h : GoesWith x under) (keep : List NodeId) (fuel : Nat) : ∀ m : Mesh,
    under (makeRoom keep fuel m).1
      = if x ∈ removed (makeRoom keep fuel m).2 then none else under m := by
  induction fuel with
  | zero => intro m; rfl
  | succ fuel ih =>
    intro m
    have hfirst := h.removeOldest m keep
    rw [Mesh.makeRoom]
    split
    · rfl
    · split
      · next m' he =>
        rw [he] at hfirst
        exact hfirst
      · next m' id he =>
        rw [he] at hfirst
        show under (Mesh.makeRoom keep fuel m').1
          = if x ∈ id :: removed (Mesh.makeRoom keep fuel m').2 then none else under m
        rw [ih, hfirst]
        by_cases hx : id = x
        · simp [hx]
        · simp [hx, Ne.symm hx]

theorem announce (h : GoesWith x under) (m : Mesh) (id : NodeId) (keep : List NodeId) :
    under (m.announce id keep).1
      = if x ∈ removed (m.announce id keep).2 then none else under m := by
  unfold Mesh.announce
  cases m.nodes.contains id with
  | true => rfl
  | false =>
    have hcreated : removed [.event (.nodeCreated id)] = [] := rfl
    show under (Mesh.makeRoom keep m.nodes.size m).1
      = if x ∈ removed (_ ++ _) then none else under m
    rw [h.makeRoom, removed_append, hcreated, List.append_nil]

theorem removeNodes (h : GoesWith x under) (ids : List NodeId) : ∀ m : Mesh,
    under (m.removeNodes ids) = if x ∈ ids then none else under m := by
  induction ids with
  | nil => intro m; rfl
  | cons id ids ih =>
    intro m
    show under ((m.removeNode id).removeNodes ids) = _
    rw [ih, h.removeNode]
    by_cases hx : id = x
    · simp [hx]
    · simp [hx, Ne.symm hx]

theorem sweep (h : GoesWith x under) (m : Mesh) (now : Moment) :
    under (m.sweep now).1 = if x ∈ (m.sweep now).2 then none else under m := by
  show under ((m.removeNodes (m.staleNodes now)).removeNodes _) = _
  rw [h.removeNodes, h.removeNodes]
  by_cases hexcess : x ∈ (m.removeNodes (m.staleNodes now)).excessNodes
  · simp [mem_sweep, hexcess]
  · simp [mem_sweep, hexcess]

end GoesWith

/-! ## A node that is heard -/

theorem getElem?_ensure_of_ne (m : Mesh) (hx : x ≠ id) (now : Moment) (keep : List NodeId) :
    (m.ensure id now keep).1.nodes[x]?
      = if x ∈ removed (m.ensure id now keep).2 then none else m.nodes[x]? := by
  show ((m.announce id keep).1.sight id now).nodes[x]? = _
  rw [getElem?_sight_of_ne hx]
  exact (nodes_goesWith x).announce m id keep

theorem getElem?_ensure_self (m : Mesh) (now : Moment) (hid : id ∈ keep) :
    (m.ensure id now keep).1.nodes[id]? = some ((m.nodes[id]?).getD (Node.new id now)) := by
  have hkept : id ∉ removed (m.ensure id now keep).2 := fun h =>
    (capped_ensure m id now keep id h).1 hid
  have hget : (m.announce id keep).1.nodes[id]? = m.nodes[id]? :=
    ((nodes_goesWith id).announce m id keep).trans (if_neg hkept)
  show ((m.announce id keep).1.sight id now).nodes[id]? = _
  rw [getElem?_sight, Std.ExtTreeMap.contains_eq_isSome_getElem?, hget]
  cases m.nodes[id]? with
  | some n => simp
  | none => simp

theorem getElem?_routes_ensure (m : Mesh) (id : NodeId) (now : Moment) (keep : List NodeId)
    (x : NodeId) : (m.ensure id now keep).1.routes[x]?
      = if x ∈ removed (m.ensure id now keep).2 then none else m.routes[x]? := by
  have hsight : ∀ m : Mesh, (m.sight id now).routes = m.routes := by
    intro m
    unfold sight
    split <;> rfl
  show ((m.announce id keep).1.sight id now).routes[x]? = _
  rw [hsight]
  exact (routes_goesWith x).announce m id keep

/-! ## One node under a view -/

section View

variable {α : Type} {view : Node → α} {stamp : α → α}

/-- What a view shows of the node under an id, if there is one. -/
def shown (m : Mesh) (view : Node → α) (x : NodeId) : Option α := (m.nodes[x]?).map view

/-- A node that was heard is there, and the view of it is stamped; one that gave way is gone,
and any other one looks as before. None of those to be kept gave way. -/
structure Stamped (view : Node → α) (stamp : α → α) (x : NodeId) (now : Moment)
    (keep heard : List NodeId) (m m' : Mesh) (told : Journal) : Prop where
  spared : x ∈ removed told → x ∉ keep
  shown : m'.shown view x
    = if x ∈ heard then some (stamp ((m.shown view x).getD (view (Node.new x now))))
      else if x ∈ removed told then none else m.shown view x

namespace Stamped

variable {heard heard' : List NodeId} {m₁ : Mesh} {told told' : Journal}

/-- Whatever does not show in the view leaves it as it is. -/
theorem of_shown_eq (h : m'.shown view x = m.shown view x) (ht : changesOfNodes told = []) :
    Stamped view stamp x now keep [] m m' told where
  spared := by
    rw [removed_of_quiet ht]
    exact nofun
  shown := by
    rw [removed_of_quiet ht]
    exact h

theorem congr (h : Stamped view stamp x now keep heard m m₁ told)
    (he : m'.shown view x = m₁.shown view x) :
    Stamped view stamp x now keep heard m m' told where
  spared := h.spared
  shown := he.trans h.shown

theorem edits {P : Edit} (he : Edits P m m') (hP : ∀ f n, P x f → view (f n) = view n)
    (ht : changesOfNodes told = []) : Stamped view stamp x now keep [] m m' told :=
  of_shown_eq (he.map_getElem? hP) ht

/-- A node is heard and changed at once. -/
theorem hear {f : Node → Node} (hid : id ∈ keep)
    (hf : x = id → ∀ n, view (f n) = stamp (view n)) (ht : changesOfNodes told = []) :
    Stamped view stamp x now keep [id] m ((m.ensure id now keep).1.modifyNode id f)
      ((m.ensure id now keep).2 ++ told) where
  spared := by
    rw [removed_append, removed_of_quiet ht, List.append_nil]
    exact fun hx => (capped_ensure m id now keep x hx).1
  shown := by
    rw [removed_append, removed_of_quiet ht, List.append_nil, Mesh.shown, getElem?_modifyNode]
    simp only [List.mem_singleton]
    by_cases hx : x = id
    · subst hx
      rw [if_pos rfl, if_pos rfl, getElem?_ensure_self m now hid]
      refine congrArg some ?_
      rw [hf rfl, Mesh.shown]
      cases m.nodes[x]? <;> rfl
    · rw [if_neg (Ne.symm hx), if_neg hx, getElem?_ensure_of_ne m hx]
      split <;> rfl

theorem trans (h : Stamped view stamp x now keep heard m m₁ told)
    (h' : Stamped view stamp x now keep heard' m₁ m' told')
    (hstamp : ∀ a, stamp (stamp a) = stamp a) (hkeep : x ∈ heard ++ heard' → x ∈ keep) :
    Stamped view stamp x now keep (heard ++ heard') m m' (told ++ told') where
  spared := by
    rw [removed_append, List.mem_append]
    rintro (hx | hx)
    · exact h.spared hx
    · exact h'.spared hx
  shown := by
    rw [h'.shown, h.shown, removed_append]
    simp only [List.mem_append] at hkeep ⊢
    by_cases hx' : x ∈ heard'
    · have hgone : x ∉ removed told := fun hg => h.spared hg (hkeep (Or.inr hx'))
      by_cases hx : x ∈ heard
      · simp [hx, hx', hstamp]
      · simp [hx, hx', hgone]
    · by_cases hx : x ∈ heard
      · have hgone : x ∉ removed told' := fun hg => h'.spared hg (hkeep (Or.inl hx))
        simp [hx, hx', hgone]
      · by_cases hgone : x ∈ removed told
        · simp [hx, hx', hgone]
        · simp [hx, hx', hgone]

end Stamped

/-- A view that looks at no routes is left alone when they are noted. -/
theorem routeEdit_keeps (hforget : ∀ n id, view (Node.forgetRoute n id) = view n)
    (hremember : ∀ n id, view (Node.rememberRoute n id) = view n) {f : Node → Node}
    (h : RouteEdit x f) (n : Node) : view (f n) = view n := by
  obtain ⟨routeId, rfl | rfl⟩ := h
  · exact hforget n routeId
  · exact hremember n routeId

/-! ### The stages of a packet -/

variable {p : Packet}

/-- How a view shows that sender, relay and gateway of a packet were heard: a stamp, and
nothing else. -/
structure Stamps (view : Node → α) (stamp : α → α) (p : Packet) (now : Moment) (x : NodeId) :
    Prop where
  again : ∀ a, stamp (stamp a) = stamp a
  sender : x = p.sender →
    ∀ n, view ((n.update p.nodeUpdate now).takeHeader p now) = stamp (view n)
  heardAt : p.relayNode? = some x ∨ p.gatewayNode? = some x →
    ∀ n, view (n.heardAt now) = stamp (view n)
  hears : p.gatewayNode? = some x → p.isDirect = true → ∀ n, view (n.hears p.sender) = view n
  isHeardBy : x = p.sender → ∀ n id, view (n.isHeardBy id) = view n

namespace Stamps

theorem hearSender (h : Stamps view stamp p now x) (m : Mesh) :
    Stamped view stamp x now p.named [p.sender] m (m.hearSender p now).1
      (m.hearSender p now).2 := by
  have hnamed : p.sender ∈ p.named := List.mem_cons_self ..
  have htwice : (m.hearSender p now).1.nodes
      = ((m.ensure p.sender now p.named).1.modifyNode p.sender
          fun n => (n.update p.nodeUpdate now).takeHeader p now).nodes := by
    apply Std.ExtTreeMap.ext_getElem?
    intro i
    show (((m.ensure p.sender now p.named).1.modifyNode p.sender
      (·.update p.nodeUpdate now)).modifyNode p.sender (·.takeHeader p now)).nodes[i]? = _
    rw [getElem?_modifyNode, getElem?_modifyNode, getElem?_modifyNode]
    split
    · rw [Option.map_map]
      rfl
    · rfl
  have hquiet :=
    changesOfNodes_applyUpdate (m.ensure p.sender now p.named).1 p.sender p.nodeUpdate now
  have hheard : Stamped view stamp x now p.named [p.sender] m _ _ := .hear hnamed h.sender hquiet
  refine hheard.congr ?_
  rw [shown, htwice]
  rfl

theorem hearRelay (h : Stamps view stamp p now x) (m : Mesh) :
    Stamped view stamp x now p.named p.relayNode?.toList m (m.hearRelay p now).1
      (m.hearRelay p now).2 := by
  unfold Mesh.hearRelay
  cases hr : p.relayNode? with
  | none => exact .of_shown_eq rfl rfl
  | some id =>
    exact .hear (relayNode?_mem_named hr) (fun hx => h.heardAt (Or.inl (hx ▸ hr))) rfl

/-- That the gateway heard the sender itself is noted on both of them. -/
theorem hearGateway (h : Stamps view stamp p now x) (m : Mesh) :
    Stamped view stamp x now p.named p.gatewayNode?.toList m (m.hearGateway p now).1
      (m.hearGateway p now).2 := by
  unfold Mesh.hearGateway
  cases hg : p.gatewayNode? with
  | none => exact .of_shown_eq rfl rfl
  | some id =>
    have hnamed := gatewayNode?_mem_named hg
    have hheard : Stamped view stamp x now p.named [id] m
        ((m.ensure id now p.named).1.modifyNode id (·.heardAt now))
        ((m.ensure id now p.named).2 ++ []) :=
      .hear hnamed (fun hx => h.heardAt (Or.inr (hx ▸ hg))) rfl
    rw [List.append_nil] at hheard
    dsimp only
    cases hd : p.isDirect with
    | false => exact hheard
    | true =>
      have hnoted : Edits (fun i f => (i = id ∧ f = (·.hears p.sender)) ∨
            (i = p.sender ∧ f = (·.isHeardBy id)))
          ((m.ensure id now p.named).1.modifyNode id (·.heardAt now))
          ((((m.ensure id now p.named).1.modifyNode id (·.heardAt now)).modifyNode id
            (·.hears p.sender)).modifyNode p.sender (·.isHeardBy id)) :=
        (Edits.modify _ (Or.inl ⟨rfl, rfl⟩)).trans (.modify _ (Or.inr ⟨rfl, rfl⟩))
      refine hheard.congr (hnoted.map_getElem? ?_)
      rintro f n (⟨rfl, rfl⟩ | ⟨rfl, rfl⟩)
      · exact h.hears hg hd n
      · exact h.isHeardBy rfl n id

end Stamps

/-- Sender, relay and gateway of a packet were heard. -/
def hearNamed (m : Mesh) (p : Packet) (now : Moment) : Mesh × Journal :=
  let (m, told1) := m.hearSender p now
  let (m, told2) := m.hearRelay p now
  let (m, told3) := m.hearGateway p now
  (m, told1 ++ told2 ++ told3)

/-- A packet was received on a slot: its nodes were heard, and then its body was taken. -/
def takePacket (m : Mesh) (p : Packet) (channel : UInt32) (now : Moment) : Mesh × Journal :=
  let (m, told) := m.hearNamed p now
  let (m, more, _) := m.takePayload p channel now
  (m, told ++ more)

theorem applyNew_eq (m : Mesh) (now : Moment) (hp : p.hasUsableSender = true) :
    let slot := m.resolveChannel p.channelName p.channelIndex
    let taken := (slot.1.touchChannel slot.2 false now).takePacket p slot.2 now
    (m.applyNew p now).1 = { taken.1 with lastUpdate := some now } ∧
    (m.applyNew p now).2.1 = taken.2 ++ [.event (.nodeUpdated p.sender)] := by
  unfold applyNew
  rw [if_pos hp]
  exact ⟨rfl, rfl⟩

theorem removed_takePacket (m : Mesh) (p : Packet) (channel : UInt32) (now : Moment) :
    removed (m.takePacket p channel now).2 = removed (m.hearNamed p now).2 := by
  have htold : (m.takePacket p channel now).2
      = (m.hearNamed p now).2 ++ ((m.hearNamed p now).1.takePayload p channel now).2.1 := rfl
  rw [htold, removed_append, removed_of_quiet (changesOfNodes_takePayload ..), List.append_nil]

theorem Stamps.hearNamed (h : Stamps view stamp p now x) (m : Mesh) :
    Stamped view stamp x now p.named (p.sender :: p.relayNode?.toList ++ p.gatewayNode?.toList) m
      (m.hearNamed p now).1 (m.hearNamed p now).2 := by
  have hfirst := (h.hearSender m).trans (h.hearRelay (m.hearSender p now).1) h.again
    fun hx => mem_named_of_mem_heardOf (List.mem_append_left _ hx)
  exact hfirst.trans (h.hearGateway _) h.again mem_named_of_mem_heardOf

/-! ### Whole steps -/

/-- A view that looks at neither the link nor the neighbors nor the routes of a node. -/
structure Overlooks (view : Node → α) : Prop where
  link : ∀ n snr rssi hops now, view (Node.updateLink n snr rssi hops now) = view n
  forgetRoute : ∀ n id, view (Node.forgetRoute n id) = view n
  rememberRoute : ∀ n id, view (Node.rememberRoute n id) = view n
  hears : ∀ n id, view (Node.hears n id) = view n
  isHeardBy : ∀ n id, view (Node.isHeardBy n id) = view n

namespace Overlooks

theorem routeEdit (h : Overlooks view) {f : Node → Node} (hf : RouteEdit x f) (n : Node) :
    view (f n) = view n := routeEdit_keeps h.forgetRoute h.rememberRoute hf n

theorem neighborEdit (h : Overlooks view) {reporter : NodeId} {f : Node → Node}
    (hf : NeighborEdit reporter x f) (n : Node) : view (f n) = view n := by
  rcases hf with ⟨ids, -, -, rfl⟩ | ⟨-, -, rfl⟩
  · exact Node.hears_all_keeps h.hears ids n
  · exact h.isHeardBy n reporter

/-- Its slot is found, and its body is taken, without a look at what the view shows. -/
theorem applyNew (h : Overlooks view) (hp : Stamps view stamp p now x) (m : Mesh)
    (hs : p.hasUsableSender = true) :
    Stamped view stamp x now p.named (p.sender :: p.relayNode?.toList ++ p.gatewayNode?.toList) m
      (m.applyNew p now).1 (m.applyNew p now).2.1 := by
  obtain ⟨hm, ht⟩ := m.applyNew_eq now hs
  have hslot := framed_resolveChannel m p.channelName p.channelIndex
  dsimp only at hm ht
  generalize m.resolveChannel p.channelName p.channelIndex = slot at hm ht hslot
  let m₀ := slot.1.touchChannel slot.2 false now
  have hbody : (m₀.takePacket p slot.2 now).1.shown view x = (m₀.hearNamed p now).1.shown view x := by
    refine (edits_takePayload (m₀.hearNamed p now).1 p slot.2 now).map_getElem? ?_
    rintro f n (hf | ⟨r, hf⟩)
    · exact h.routeEdit hf n
    · exact h.neighborEdit hf n
  have hquiet : changesOfNodes [.event (.nodeUpdated p.sender)] = [] := rfl
  have hremoved : removed (m.applyNew p now).2.1 = removed (m₀.hearNamed p now).2 := by
    rw [ht, removed_append, removed_of_quiet hquiet, List.append_nil, removed_takePacket]
  have hheard := hp.hearNamed m₀
  refine ⟨hremoved ▸ hheard.spared, ?_⟩
  have hsame : m₀.shown view x = m.shown view x := congrArg (fun t => (t[x]?).map view) hslot.nodes
  rw [hremoved, ← hsame, ← hheard.shown, ← hbody, hm]
  rfl

/-- **One step.** If every packet and every update shows in the view as a stamp on the nodes
that are heard, then nothing but being heard or removed shows at all. -/
theorem perform (h : Overlooks view) {s : Step}
    (hpacket : ∀ p, s.operation = .packet p → Stamps view stamp p s.now x)
    (hupdate : ∀ u, s.operation = .update x u → ∀ n, view (n.update u s.now) = stamp (view n))
    (m : Mesh) (hs : s.operation.isRestoration = false) :
    Stamped view stamp x s.now s.operation.named (m.heard s) m (m.perform s).1 (m.perform s).2 := by
  obtain ⟨op, now⟩ := s
  cases op with
  | packet p =>
    obtain ⟨dedup, ⟨hr, he⟩ | ⟨hr, he⟩⟩ := m.apply_cases p now
    · simp only [Mesh.perform, heard, he, hr, Bool.true_or, if_true]
      exact .of_shown_eq rfl rfl
    · simp only [Mesh.perform, heard, he, hr, Bool.false_or, Bool.not_eq_true']
      cases hp : p.hasUsableSender with
      | false =>
        rw [applyNew_unusable hp]
        exact .of_shown_eq rfl rfl
      | true =>
        rw [if_neg Bool.noConfusion]
        have htaken := h.applyNew (hpacket p rfl) { m with dedup := dedup } hp
        exact ⟨htaken.spared, htaken.shown⟩
  | update id u =>
    unfold Mesh.perform updateNode heard
    dsimp only
    cases hid : id.isUnknown || id.isBroadcast with
    | true => exact .of_shown_eq rfl rfl
    | false =>
      let m₁ := (m.ensure id now [id]).1
      have hquiet : changesOfNodes ((m₁.applyUpdate id u now).2 ++ [.event (.nodeUpdated id)])
          = [] := by
        rw [changesOfNodes_append, changesOfNodes_applyUpdate]
        rfl
      have hheard : Stamped view stamp x now [id] [id] m (m₁.modifyNode id (·.update u now)) _ :=
        .hear (List.mem_singleton_self id) (fun hx => hupdate u (by rw [hx])) hquiet
      rw [← List.append_assoc] at hheard
      exact hheard.congr rfl
  | link id snr rssi hops =>
    have he : Edits (fun _ f => f = (·.updateLink snr rssi hops now)) m
        (m.updateLink id snr rssi hops now).1 := .modify m rfl
    refine .edits he ?_ rfl
    rintro _ n rfl
    exact h.link n snr rssi hops now
  | route destination hops => exact .edits (edits_updateRoute m _) (fun _ n hf => h.routeEdit hf n) rfl
  | neighbors reporter entries =>
    have he := edits_updateNeighbors m reporter entries
    exact .edits he (fun _ n hf => h.neighborEdit hf n) rfl
  | channel c => exact .of_shown_eq rfl rfl
  | activity index message => exact .of_shown_eq rfl rfl
  | message message => exact .of_shown_eq rfl rfl
  | sweep =>
    refine ⟨fun _ => List.not_mem_nil, ?_⟩
    show ((m.sweep now).1.nodes[x]?).map view
      = if x ∈ removed (sweepJournal (m.sweep now).2) then none else (m.nodes[x]?).map view
    rw [(nodes_goesWith x).sweep, removed_sweepJournal]
    split <;> rfl
  | restore state => cases hs

end Overlooks

/-! ### Views that updates change -/

/-- What an operation tells about a node. -/
def Operation.updateFor (x : NodeId) : Operation → NodeUpdate
  | .packet p => if p.sender = x then p.nodeUpdate else {}
  | .update id u => if id = x then u else {}
  | _ => {}

/-- A view that nothing but updates changes: it takes what it looks for, and to take that twice
comes to the same. -/
structure Takes (view : Node → α) (take : NodeUpdate → α → α) : Prop extends Overlooks view where
  again : ∀ u a, take u (take u a) = take u a
  nothing : ∀ a, take {} a = a
  update : ∀ n u now, view (Node.update n u now) = take u (view n)
  takeHeader : ∀ n p now, view (Node.takeHeader n p now) = view n
  heardAt : ∀ n now, view (Node.heardAt n now) = view n

namespace Takes

variable {take : NodeUpdate → α → α}

theorem stamps (h : Takes view take) (p : Packet) (now : Moment) (x : NodeId) :
    Stamps view (take ((Operation.packet p).updateFor x)) p now x where
  again a := h.again _ a
  sender hx n := by
    have htold : (Operation.packet p).updateFor x = p.nodeUpdate := if_pos hx.symm
    rw [h.takeHeader, h.update, htold]
  heardAt hx n := by
    -- relay and gateway are nodes other than the sender
    have hne : p.sender ≠ x := by
      rcases hx with hr | hg
      · exact (relayNode?_spec hr).1.symm
      · exact (gatewayNode?_spec hg).1.symm
    have htold : (Operation.packet p).updateFor x = {} := if_neg hne
    rw [htold, h.nothing, h.heardAt]
  hears _ _ n := h.hears n p.sender
  isHeardBy _ n id := h.isHeardBy n id

/-- **One step.** What a step tells about a node is taken if the node is heard. -/
theorem perform (h : Takes view take) (m : Mesh) (s : Step)
    (hs : s.operation.isRestoration = false) (x : NodeId) :
    Stamped view (take (s.operation.updateFor x)) x s.now s.operation.named (m.heard s) m
      (m.perform s).1 (m.perform s).2 := by
  obtain ⟨op, now⟩ := s
  refine h.toOverlooks.perform (fun p hp => ?_) (fun u hu n => ?_) m hs
  · obtain rfl : op = .packet p := hp
    exact h.stamps p now x
  · obtain rfl : op = .update x u := hu
    have htold : (Operation.update x u).updateFor x = u := if_pos rfl
    rw [htold]
    exact h.update n u now

end Takes

end View

end Mesh

end MeshWatch
