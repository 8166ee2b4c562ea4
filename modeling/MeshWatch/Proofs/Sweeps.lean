import MeshWatch.Proofs.OneNode

/-!
# What a sweep removes

A sweep goes over the nodes twice. First it removes those that were silent for too long, each
for itself, and then, if there are still too many, those of the others that were silent
longest. What is due in the first round is told by the clock alone, and in the second one by the
number of nodes that are left and the order of age.

- `Due`: which nodes have to go. `Tracked.due_sweep`: those that a sweep takes.
- `Without`: what is left when some nodes are gone. `without_sweep`: that is what a
  sweep leaves.
- `Tracked.sweep_again`: a second sweep finds nothing.
- `sweep_removes_due`: all of that, in each mesh that can be reached.
-/

namespace MeshWatch

/-- Between two moments there is no span that counts as another one. -/
theorem Moment.before_of_representable {now : Moment} {s : Span} (hnow : now.isRepresentable = true)
    (hpast : (⟨now.nanos - s.nanos⟩ : Moment).isRepresentable = true) :
    now.before s = ⟨now.nanos - s.nanos⟩ := by
  have hyears : last.nanos - first.nanos ≤ Span.longest := by decide
  simp only [isRepresentable, Bool.and_eq_true, decide_eq_true_eq, le_def] at hnow hpast
  have hs : s.nanos ≤ Span.longest := by omega
  rw [before, Span.reach_of_le hs]

namespace Mesh

variable {m m' : Mesh} {now : Moment}

/-! ## What is due -/

/-- The nodes that have to go: those heard last before some moment, and of the others, if they
are still too many, those that were silent longest. -/
structure Due (m : Mesh) (cutoff : Moment) (cap : Nat) (stale excess : List NodeId) : Prop where
  silent : ∀ id, id ∈ stale ↔ ∃ n, m.nodes[id]? = some n ∧ n.lastHeard < cutoff
  once : (stale ++ excess).Nodup
  count : excess.length = m.nodes.size - stale.length - cap
  /-- Each node in excess is the oldest of those that are left before it. -/
  oldest : ∀ gone id later, excess = gone ++ id :: later → m.IsOldest (stale ++ gone) id

/-- Each node that is removed is one less. -/
theorem size_removeNodes {ids : List NodeId} (hn : ids.Nodup) : ∀ {m : Mesh},
    (∀ id ∈ ids, m.nodes.contains id = true) →
      (m.removeNodes ids).nodes.size + ids.length = m.nodes.size := by
  induction ids with
  | nil => intro m _; rfl
  | cons i ids ih =>
    intro m hids
    obtain ⟨hi, hrest⟩ := List.nodup_cons.1 hn
    have hone : (m.removeNode i).nodes.size + 1 = m.nodes.size :=
      size_erase (hids i (List.mem_cons_self ..))
    have hleft : ∀ id ∈ ids, (m.removeNode i).nodes.contains id = true := by
      intro id hid
      rw [contains_removeNode]
      refine ⟨hids id (List.mem_cons_of_mem _ hid), ?_⟩
      rintro rfl
      exact hi hid
    have hmore := ih hrest hleft
    show ((m.removeNode i).removeNodes ids).nodes.size + (ids.length + 1) = _
    omega

/-- Without some nodes the others keep their order of age. -/
theorem IsOldest.of_removeNodes {ids keep : List NodeId} {id : NodeId}
    (h : (m.removeNodes ids).IsOldest keep id) : m.IsOldest (ids ++ keep) id := by
  obtain ⟨n, hn, hkeep, hle⟩ := h
  rw [(nodes_goesWith id).removeNodes] at hn
  split at hn
  · cases hn
  · next hids =>
    refine ⟨n, hn, ?_, ?_⟩
    · rw [List.mem_append, not_or]
      exact ⟨hids, hkeep⟩
    · intro id' n' hn' hid'
      rw [List.mem_append, not_or] at hid'
      apply hle id' n' _ hid'.2
      rw [(nodes_goesWith id').removeNodes, if_neg hid'.1]
      exact hn'

theorem Tracked.size_removeStale (h : Tracked m) (now : Moment) :
    (m.removeNodes (m.staleNodes now)).nodes.size + (m.staleNodes now).length = m.nodes.size := by
  apply size_removeNodes
  · exact (List.nodup_append.1 (h.nodup_rounds now)).1
  · exact fun _ => h.contains_of_mem_staleNodes

theorem length_spare (m : Mesh) : (m.spare []).length = m.nodes.size := by
  simp [spare, aged, lastSightings, nodeList]

/-- **Both rounds** of a sweep take what is due. -/
theorem Tracked.due_sweep (h : Tracked m) (now : Moment) :
    m.Due (now.before m.limits.staleAfter) m.limits.maxNodes (m.staleNodes now)
      (m.removeNodes (m.staleNodes now)).excessNodes := by
  have hk : Tracked (m.removeNodes (m.staleNodes now)) := h.removeNodes
  have hlim : (m.removeNodes (m.staleNodes now)).limits = m.limits :=
    limits_offNodes.removeNodes _ m
  constructor
  case silent => exact fun id => h.mem_staleNodes
  case once => exact h.nodup_rounds now
  case count =>
    have hsize := h.size_removeStale now
    rw [excessNodes_eq, List.length_take, length_spare, hlim]
    omega
  case oldest =>
    intro gone id later he
    apply IsOldest.of_removeNodes
    obtain ⟨rest, hrest⟩ := List.take_prefix
      ((m.removeNodes (m.staleNodes now)).nodes.size
        - (m.removeNodes (m.staleNodes now)).limits.maxNodes)
      ((m.removeNodes (m.staleNodes now)).spare [])
    rw [← excessNodes_eq, he, List.append_assoc] at hrest
    exact hk.isOldest hrest

/-! ## What is left -/

/-- Some nodes are gone, and the routes to them; nothing else is different. -/
structure Without (ids : List NodeId) (m m' : Mesh) : Prop where
  nodes : ∀ id : NodeId, m'.nodes[id]? = if id ∈ ids then none else m.nodes[id]?
  routes : ∀ id : NodeId, m'.routes[id]? = if id ∈ ids then none else m.routes[id]?
  others : m' = { m with nodes := m'.nodes, routes := m'.routes }

theorem others_removeNodes (ids : List NodeId) : ∀ m : Mesh, m.removeNodes ids
    = { m with nodes := (m.removeNodes ids).nodes, routes := (m.removeNodes ids).routes } := by
  induction ids with
  | nil => intro m; rfl
  | cons i ids ih => exact fun m => ih (m.removeNode i)

theorem removeNodes_append (ids more : List NodeId) (m : Mesh) :
    m.removeNodes (ids ++ more) = (m.removeNodes ids).removeNodes more := List.foldl_append

/-- **What a sweep removes** is all that it changes. -/
theorem without_sweep (m : Mesh) (now : Moment) : Without (m.sweep now).2 m (m.sweep now).1 := by
  constructor
  case nodes => exact fun id => (nodes_goesWith id).sweep m now
  case routes => exact fun id => (routes_goesWith id).sweep m now
  case others =>
    have hboth := others_removeNodes
      (m.staleNodes now ++ (m.removeNodes (m.staleNodes now)).excessNodes) m
    rw [removeNodes_append] at hboth
    exact hboth

theorem Tracked.size_sweep (h : Tracked m) (now : Moment) :
    (m.sweep now).1.nodes.size + (m.sweep now).2.length = m.nodes.size := by
  have hknown : ∀ id ∈ m.staleNodes now ++ (m.removeNodes (m.staleNodes now)).excessNodes,
      m.nodes.contains id = true := by
    intro id hid
    rcases List.mem_append.1 hid with hid | hid
    · exact h.contains_of_mem_staleNodes hid
    · exact (h.contains_of_mem_excessNodes hid).1
  have hboth := size_removeNodes (h.nodup_rounds now) hknown
  rw [removeNodes_append] at hboth
  exact hboth

/-- No more nodes are left than fit. -/
theorem Tracked.size_sweep_le (h : Tracked m) (now : Moment) :
    (m.sweep now).1.nodes.size ≤ m.limits.maxNodes := by
  have hsize := h.size_sweep now
  have hstale := h.size_removeStale now
  have hcount := (h.due_sweep now).count
  rw [sweep, List.length_append] at hsize
  show ((m.removeNodes _).removeNodes _).nodes.size ≤ _
  dsimp only at hsize
  omega

theorem limits_sweep (m : Mesh) (now : Moment) : (m.sweep now).1.limits = m.limits :=
  (limits_offNodes.removeNodes _ _).trans (limits_offNodes.removeNodes _ m)

/-- **A second sweep** at the same time finds nothing. -/
theorem Tracked.sweep_again (h : Tracked m) (now : Moment) :
    (m.sweep now).1.sweep now = ((m.sweep now).1, []) := by
  have htracked : Tracked (m.sweep now).1 := h.removeNodes.removeNodes
  have hstale : (m.sweep now).1.staleNodes now = [] := by
    rw [List.eq_nil_iff_forall_not_mem]
    intro id hid
    obtain ⟨n, hn, hlt⟩ := htracked.mem_staleNodes.1 hid
    rw [(without_sweep m now).nodes] at hn
    rw [limits_sweep] at hlt
    split at hn
    · cases hn
    · next hkept => exact hkept (mem_sweep.2 (Or.inl (h.mem_staleNodes.2 ⟨n, hn, hlt⟩)))
  have hexcess : (m.sweep now).1.excessNodes = [] := by
    rw [excessNodes_eq, limits_sweep, Nat.sub_eq_zero_of_le (h.size_sweep_le now), List.take_zero]
  generalize (m.sweep now).1 = m' at hstale hexcess ⊢
  have hnone : m'.removeNodes [] = m' := rfl
  rw [sweep, hstale, hnone, hexcess, hnone, List.append_nil]

/-! ## Whole runs -/

/-- A sweep came to its end and took those nodes that were due. -/
structure Swept (m : Mesh) (now cutoff : Moment) (cap : Nat) (m' : Mesh) (removed : List NodeId) :
    Prop where
  ends : m.cleanup now = some (m', removed)
  due : ∃ stale excess, m.Due cutoff cap stale excess ∧ removed = stale ++ excess
  without : Without removed m m'
  size : m'.nodes.size + removed.length = m.nodes.size
  /-- One event tells of each node that went. -/
  told : (m.perform ⟨.sweep, now⟩).1 = m' ∧
    Journal.events (m.perform ⟨.sweep, now⟩).2 = removed.map .nodeStale
  /-- Another sweep at the same time has nothing to do. -/
  again : m'.cleanup now = some (m', [])

/-- **A sweep removes what is due.** In every mesh that can be reached from a new one, by any
operations under any clock, at a time that has a moment before it by as much as nodes may be
silent, a sweep comes to its end. It removes the nodes that were heard last before that moment
and then, from the front of the order of age, as many others as are too many. The routes to
them go too, and all the rest is left as it was. One event tells of each node that is removed, in
the order in which they go, and a sweep right after it removes none. -/
theorem sweep_removes_due (limits : Limits) (primary : String) (orders : HashOrders)
    (steps : List Step) {now : Moment} (hnow : now.isRepresentable = true)
    (hpast : (⟨now.nanos - limits.staleAfter.nanos⟩ : Moment).isRepresentable = true) :
    ∃ m' removed, Swept ((new limits primary orders).after steps) now
      ⟨now.nanos - limits.staleAfter.nanos⟩ limits.maxNodes m' removed := by
  have h : Tracked ((new limits primary orders).after steps) :=
    tracked_after limits primary orders steps
  have hlim : ((new limits primary orders).after steps).limits = limits :=
    limits_after steps (new limits primary orders)
  generalize (new limits primary orders).after steps = m at h hlim ⊢
  have hcutoff : now.before limits.staleAfter = ⟨now.nanos - limits.staleAfter.nanos⟩ :=
    Moment.before_of_representable hnow hpast
  have hends : ∀ m' : Mesh, m'.limits = limits → m'.cleanup now = some (m'.sweep now) := by
    intro m' hm'
    rw [cleanup, hm', hcutoff, if_pos hpast]
  refine ⟨(m.sweep now).1, (m.sweep now).2, ?_⟩
  constructor
  case ends => exact hends m hlim
  case due =>
    have hdue := h.due_sweep now
    rw [hlim, hcutoff] at hdue
    exact ⟨_, _, hdue, rfl⟩
  case without => exact without_sweep m now
  case size => exact h.size_sweep now
  case told => exact ⟨rfl, sweep_journal _⟩
  case again => rw [hends _ ((limits_sweep m now).trans hlim), h.sweep_again]

/-- In a mesh for one node a packet names three, and two of them are heard again. When the sweep
comes, the sender was silent for too long, and the others exactly as long as they may. But they
are one too many. -/
theorem sweep_of_three_nodes :
    let limits : Limits := { maxNodes := 1, staleAfter := .ofSecs 100 }
    let p : Packet :=
      { packetId := 7, sender := ⟨0x1002⟩, recipient := .broadcast, gateway := some ⟨0x1001⟩
        channelName := "", channelIndex := 0, hopLimit := 3, hopStart := 3, rxSnr := none
        rxRssi := none, rxTime := none, relay := some (.full ⟨0x1003⟩), wantAck := false
        encrypted := false, payload := .sealed }
    let steps : List Step :=
      [⟨.packet p, .ofSecs 50⟩, ⟨.update ⟨0x1001⟩ {}, .ofSecs 60⟩,
        ⟨.update ⟨0x1003⟩ {}, .ofSecs 60⟩]
    let now : Moment := .ofSecs 160
    let m := (new limits "" {}).after steps
    now.isRepresentable = true ∧
    (⟨now.nanos - limits.staleAfter.nanos⟩ : Moment).isRepresentable = true ∧
    (∃ m' removed, m.Swept now (.ofSecs 60) 1 m' removed) ∧
    m.nodes.keys = [⟨0x1001⟩, ⟨0x1002⟩, ⟨0x1003⟩] ∧
    m.staleNodes now = [⟨0x1002⟩] ∧
    (m.removeNodes (m.staleNodes now)).nodes.size = 2 := by
  intro limits p steps now m
  have hnow : now.isRepresentable = true := by decide
  have hpast : (⟨now.nanos - limits.staleAfter.nanos⟩ : Moment).isRepresentable = true := by decide
  refine ⟨hnow, hpast, sweep_removes_due limits "" {} steps hnow hpast, ?_, ?_, ?_⟩
  · decide
  · decide
  · decide

end Mesh

end MeshWatch
