import MeshWatch.Proofs.EveryNode

/-!
# Steps as moves

Every operation but a sweep and a restoration is made of few kinds of moves: nodes that
the operation names are heard, one after the other, and single nodes are edited. Whatever
such an operation does to the nodes as a whole follows from what each move does.

- `Moves`: the moves, with the nodes that they hear and what they tell.
- `moves_applyNew`, `moves_perform`: what packets and other operations are made of.
- `limits_after`: no operation changes the limits.
-/

namespace MeshWatch.Mesh

variable {m m' : Mesh} {keep : List NodeId} {now : Moment}

/-! ## News of nodes that come and go -/

/-- Whether an event tells that a node came or went. -/
def isChangeOfNodes : Event → Bool
  | .nodeCreated _ => true
  | .nodeStale _ => true
  | _ => false

/-- The nodes that came and went. -/
def changesOfNodes (told : Journal) : List Event := (Journal.events told).filter isChangeOfNodes

theorem changesOfNodes_nil : changesOfNodes [] = [] := rfl

theorem changesOfNodes_nodeUpdated (id : NodeId) :
    changesOfNodes [.event (.nodeUpdated id)] = [] := rfl

@[simp] theorem changesOfNodes_append (j k : Journal) :
    changesOfNodes (j ++ k) = changesOfNodes j ++ changesOfNodes k := by
  simp [changesOfNodes]

theorem changesOfNodes_applyUpdate (m : Mesh) (id : NodeId) (u : NodeUpdate) (now : Moment) :
    changesOfNodes (m.applyUpdate id u now).2 = [] := by
  rw [changesOfNodes, List.filter_eq_nil_iff]
  intro e he
  have ht := isTelemetry_of_mem_applyUpdate he
  cases e with
  | nodeCreated | nodeStale => cases ht
  | _ => exact nofun

theorem changesOfNodes_takePayload (m : Mesh) (p : Packet) (channel : UInt32) (now : Moment) :
    changesOfNodes (m.takePayload p channel now).2.1 = [] := by
  unfold takePayload
  split
  · rfl
  · rfl
  · rfl
  · rfl

/-! ## Edits and the times at which nodes were heard -/

/-- Who a node is and when it was heard is left alone. -/
def Quiet (P : Edit) : Prop :=
  ∀ id f n, P id f → (f n).id = n.id ∧ (f n).lastHeard = n.lastHeard

/-- At most one node is marked as heard. -/
def Marks (node : NodeId) (now : Moment) (P : Edit) : Prop :=
  ∀ id f n, P id f →
    (f n).id = n.id ∧ ((f n).lastHeard = n.lastHeard ∨ (id = node ∧ (f n).lastHeard = now))

theorem takeHeader_id (n : Node) (p : Packet) (now : Moment) : (n.takeHeader p now).id = n.id := by
  refine Node.takeHeader_keeps (Q := fun n' => n'.id = n.id) rfl ?_ ?_ ?_
  · exact fun _ _ h => h
  · exact fun _ _ _ h => h
  · exact fun _ _ _ h => h

theorem takeHeader_lastHeard (n : Node) (p : Packet) (now : Moment) :
    (n.takeHeader p now).lastHeard = n.lastHeard := by
  refine Node.takeHeader_keeps (Q := fun n' => n'.lastHeard = n.lastHeard) rfl ?_ ?_ ?_
  · exact fun _ _ h => h
  · exact fun _ _ _ h => h
  · exact fun _ _ _ h => h

theorem foldl_hears_id (ids : List NodeId) : ∀ n : Node, (ids.foldl Node.hears n).id = n.id := by
  induction ids with
  | nil => intro n; rfl
  | cons id ids ih =>
    intro n
    rw [List.foldl_cons, ih, Node.hears_id]

theorem foldl_hears_lastHeard (ids : List NodeId) : ∀ n : Node,
    (ids.foldl Node.hears n).lastHeard = n.lastHeard := by
  induction ids with
  | nil => intro n; rfl
  | cons id ids ih =>
    intro n
    rw [List.foldl_cons, ih, Node.hears_lastHeard]

theorem quiet_routeEdit : Quiet RouteEdit := by
  rintro id f n ⟨routeId, rfl | rfl⟩
  · exact ⟨rfl, rfl⟩
  · exact ⟨rfl, rfl⟩

theorem quiet_neighborEdit (reporter : NodeId) : Quiet (NeighborEdit reporter) := by
  rintro id f n (⟨ids, -, -, rfl⟩ | ⟨-, -, rfl⟩)
  · exact ⟨foldl_hears_id ids n, foldl_hears_lastHeard ids n⟩
  · exact ⟨Node.isHeardBy_id n reporter, Node.isHeardBy_lastHeard n reporter⟩

theorem quiet_payloadEdit (m : Mesh) (p : Packet) : Quiet (PayloadEdit m p) := by
  rintro id f n (h | ⟨r, h⟩)
  · exact quiet_routeEdit id f n h
  · exact quiet_neighborEdit _ id f n h

theorem marks_senderEdit (p : Packet) (now : Moment) : Marks p.sender now (SenderEdit p now) := by
  rintro id f n ⟨rfl, rfl | rfl⟩
  · exact ⟨rfl, Or.inr ⟨rfl, rfl⟩⟩
  · exact ⟨takeHeader_id n p now, Or.inl (takeHeader_lastHeard n p now)⟩

theorem marks_heardEdit (node : NodeId) (now : Moment) : Marks node now (HeardEdit node now) := by
  rintro id f n ⟨rfl, rfl⟩
  exact ⟨rfl, Or.inr ⟨rfl, rfl⟩⟩

theorem marks_gatewayEdit (p : Packet) (gateway : NodeId) (now : Moment) :
    Marks gateway now (GatewayEdit p gateway now) := by
  rintro id f n (h | ⟨rfl, rfl⟩ | ⟨rfl, rfl⟩)
  · exact marks_heardEdit gateway now id f n h
  · exact ⟨Node.hears_id n p.sender, Or.inl (Node.hears_lastHeard n p.sender)⟩
  · exact ⟨Node.isHeardBy_id n gateway, Or.inl (Node.isHeardBy_lastHeard n gateway)⟩

/-! ## Moves -/

/-- Nodes that may not be removed are heard in this order and edited, with this news. -/
inductive Moves (keep : List NodeId) (now : Moment) :
    (heard : List NodeId) → Mesh → Mesh → Journal → Prop where
  | hear {m m' : Mesh} {id : NodeId} {P : Edit} {told : Journal} (hid : id ∈ keep)
      (he : Edits P (m.ensure id now keep).1 m') (hP : Marks id now P)
      (ht : changesOfNodes told = []) : Moves keep now [id] m m' ((m.ensure id now keep).2 ++ told)
  | edits {m m₁ m' : Mesh} {P : Edit} {told : Journal} (he : Edits P m m₁) (hP : Quiet P)
      (hn : m'.nodes = m₁.nodes) (hs : m'.sightings = m₁.sightings) (hl : m'.limits = m₁.limits)
      (ht : changesOfNodes told = []) : Moves keep now [] m m' told
  | trans {m m₁ m' : Mesh} {heard heard' : List NodeId} {told told' : Journal}
      (h : Moves keep now heard m m₁ told) (h' : Moves keep now heard' m₁ m' told') :
      Moves keep now (heard ++ heard') m m' (told ++ told')

theorem Moves.refl (keep : List NodeId) (now : Moment) (m : Mesh) : Moves keep now [] m m [] :=
  .edits (P := fun _ _ => False) (.refl m) (fun _ _ _ h => h.elim) rfl rfl rfl changesOfNodes_nil

/-- Slots, seen packets, messages and the time of the last update have no part in it. -/
theorem Moves.frame {heard : List NodeId} {m₁ : Mesh} {told more : Journal}
    (h : Moves keep now heard m m₁ told) (hn : m'.nodes = m₁.nodes)
    (hs : m'.sightings = m₁.sightings) (hl : m'.limits = m₁.limits)
    (ht : changesOfNodes more = []) : Moves keep now heard m m' (told ++ more) := by
  have hlast : Moves keep now [] m₁ m' more :=
    .edits (P := fun _ _ => False) (.refl m₁) (fun _ _ _ h => h.elim) hn hs hl ht
  have := h.trans hlast
  rwa [List.append_nil] at this

theorem Moves.heard_subset {heard : List NodeId} {told : Journal}
    (h : Moves keep now heard m m' told) : ∀ id ∈ heard, id ∈ keep := by
  induction h with
  | hear hid =>
    intro i hi
    exact List.mem_singleton.1 hi ▸ hid
  | edits => exact nofun
  | trans _ _ ih ih' =>
    intro i hi
    rcases List.mem_append.1 hi with hi | hi
    · exact ih i hi
    · exact ih' i hi

theorem Moves.limits {heard : List NodeId} {told : Journal}
    (h : Moves keep now heard m m' told) : m'.limits = m.limits := by
  induction h with
  | hear _ he => exact he.limits.trans (limits_offNodes.ensure ..)
  | edits he _ _ _ hl => exact hl.trans he.limits
  | trans _ _ ih ih' => exact ih'.trans ih

/-! ## Operations -/

theorem moves_updateNode (m : Mesh) {id : NodeId} (u : NodeUpdate) (now : Moment)
    (hid : (id.isUnknown || id.isBroadcast) = false) :
    Moves [id] now [id] m (m.updateNode id u now).1 (m.updateNode id u now).2.1 := by
  rcases m.updateNode_cases id u now with ⟨hid', -⟩ | ⟨-, he, ht⟩
  · rw [hid] at hid'
    cases hid'
  · rw [ht, List.append_assoc]
    refine .hear (List.mem_singleton_self id) he ?_ ?_
    · rintro i f n ⟨rfl, rfl⟩
      exact ⟨rfl, Or.inr ⟨rfl, rfl⟩⟩
    · rw [changesOfNodes_append, changesOfNodes_applyUpdate]
      rfl

section Packet

variable {p : Packet}

theorem moves_hearSender (m : Mesh) (p : Packet) (now : Moment) :
    Moves p.named now [p.sender] m (m.hearSender p now).1 (m.hearSender p now).2 :=
  .hear (List.mem_cons_self ..) (edits_hearSender m p now) (marks_senderEdit p now)
    (changesOfNodes_applyUpdate ..)

theorem moves_hearRelay (m : Mesh) (p : Packet) (now : Moment) :
    Moves p.named now p.relayNode?.toList m (m.hearRelay p now).1 (m.hearRelay p now).2 := by
  rcases m.hearRelay_cases p now with ⟨hr, he⟩ | ⟨id, hr, he, ht⟩
  · rw [hr, he]
    exact .refl p.named now m
  · rw [hr, ht]
    exact .hear (relayNode?_mem_named hr) he (marks_heardEdit id now) (changesOfNodes_nodeUpdated id)

theorem moves_hearGateway (m : Mesh) (p : Packet) (now : Moment) :
    Moves p.named now p.gatewayNode?.toList m (m.hearGateway p now).1 (m.hearGateway p now).2 := by
  rcases m.hearGateway_cases p now with ⟨hg, he⟩ | ⟨id, hg, he, ht⟩
  · rw [hg, he]
    exact .refl p.named now m
  · rw [hg, ht, ← List.append_nil (m.ensure id now p.named).2]
    exact .hear (gatewayNode?_mem_named hg) he (marks_gatewayEdit p id now) changesOfNodes_nil

theorem moves_takePayload (keep : List NodeId) (m : Mesh) (p : Packet) (channel : UInt32)
    (now : Moment) : Moves keep now [] m (m.takePayload p channel now).1
      (m.takePayload p channel now).2.1 :=
  .edits (edits_takePayload m p channel now) (quiet_payloadEdit m p) rfl rfl rfl
    (changesOfNodes_takePayload ..)

/-- **A packet** hears its sender, its relay and its gateway. -/
theorem moves_applyNew (m : Mesh) (now : Moment) (hp : p.hasUsableSender = true) :
    Moves p.named now (p.sender :: p.relayNode?.toList ++ p.gatewayNode?.toList) m
      (m.applyNew p now).1 (m.applyNew p now).2.1 := by
  obtain ⟨m₀, m₁, told₁, m₂, told₂, m₃, told₃, m₄, told₄, _, hf, e₁, e₂, e₃, e₄, hm, htold⟩ :=
    m.applyNew_stages now hp
  have h₀ : Moves p.named now [] m m₀ [] :=
    (Moves.refl p.named now m).frame hf.nodes hf.sightings hf.limits changesOfNodes_nil
  have h₁ := moves_hearSender m₀ p now
  have h₂ := moves_hearRelay m₁ p now
  have h₃ := moves_hearGateway m₂ p now
  have h₄ := moves_takePayload p.named m₃ p (m.resolveChannel p.channelName p.channelIndex).2 now
  rw [e₁] at h₁
  rw [e₂] at h₂
  rw [e₃] at h₃
  rw [e₄] at h₄
  -- finding the slot hears nobody, and neither does the body
  have hall := (((h₀.trans h₁).trans h₂).trans h₃).trans h₄
  rw [List.append_nil] at hall
  rw [hm, htold]
  exact hall.frame rfl rfl rfl (changesOfNodes_nodeUpdated p.sender)

end Packet

/-- Whether an operation belongs to the upkeep of a mesh: a sweep or a restoration. -/
def Operation.isUpkeep : Operation → Bool
  | .sweep => true
  | .restore _ => true
  | _ => false

/-- **One step.** Every operation but the upkeep hears the nodes that it says. -/
theorem moves_perform (m : Mesh) (s : Step) (hs : s.operation.isUpkeep = false) :
    Moves s.operation.named s.now (m.heard s) m (m.perform s).1 (m.perform s).2 := by
  obtain ⟨op, now⟩ := s
  have hsame : Moves [] now [] m m [] := .refl [] now m
  cases op with
  | packet p =>
    obtain ⟨dedup, ⟨hr, he⟩ | ⟨hr, he⟩⟩ := m.apply_cases p now
    · simp only [perform, heard, he, hr, Bool.true_or, if_true]
      exact (Moves.refl p.named now m).frame rfl rfl rfl changesOfNodes_nil
    · have hseen : Moves p.named now [] m { m with dedup := dedup } [] :=
        (Moves.refl p.named now m).frame rfl rfl rfl changesOfNodes_nil
      simp only [perform, heard, he, hr, Bool.false_or, Bool.not_eq_true', Operation.named]
      cases hp : p.hasUsableSender with
      | false =>
        rw [applyNew_unusable hp]
        exact hseen
      | true => exact hseen.trans (moves_applyNew _ now hp)
  | update id u =>
    simp only [perform, heard, Operation.named]
    cases hid : id.isUnknown || id.isBroadcast with
    | true =>
      have hm : m.updateNode id u now = (m, [], false) := by
        unfold updateNode
        rw [hid, if_pos rfl]
      rw [hm]
      exact .refl [id] now m
    | false => exact moves_updateNode m u now hid
  | link id snr rssi hops =>
    have he : Edits (fun _ f => f = (·.updateLink snr rssi hops now)) m
        (m.updateLink id snr rssi hops now).1 := .modify m rfl
    refine .edits he ?_ rfl rfl rfl changesOfNodes_nil
    rintro _ _ n rfl
    exact ⟨rfl, rfl⟩
  | route destination hops =>
    exact .edits (edits_updateRoute m _) quiet_routeEdit rfl rfl rfl changesOfNodes_nil
  | neighbors reporter entries =>
    exact .edits (edits_updateNeighbors m reporter entries) (quiet_neighborEdit reporter) rfl rfl
      rfl changesOfNodes_nil
  | channel c => exact hsame.frame rfl rfl rfl changesOfNodes_nil
  | activity index message => exact hsame.frame rfl rfl rfl changesOfNodes_nil
  | message message =>
    have ht : changesOfNodes [.event (.messageReceived message)] = [] := rfl
    exact hsame.frame rfl rfl rfl ht
  | sweep => cases hs
  | restore state => cases hs

theorem limits_perform (m : Mesh) (s : Step) : (m.perform s).1.limits = m.limits := by
  cases hs : s.operation.isUpkeep with
  | false => exact (moves_perform m s hs).limits
  | true =>
    obtain ⟨op, now⟩ := s
    cases op with
    | sweep => exact (limits_offNodes.removeNodes _ _).trans (limits_offNodes.removeNodes _ m)
    | restore state => rfl
    | _ => cases hs

theorem limits_after (steps : List Step) : ∀ m : Mesh, (m.after steps).limits = m.limits := by
  induction steps with
  | nil => intro m; rfl
  | cons s steps ih => intro m; exact (ih _).trans (limits_perform m s)

end MeshWatch.Mesh
