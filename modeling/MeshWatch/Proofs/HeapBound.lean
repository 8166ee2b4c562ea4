import MeshWatch.Proofs.NodeCap

/-!
# The heap of sightings stays small

Whenever a node is heard a sighting is added, and those that it puts out of date are not
looked for. They go when they surface while room is made for another node, and all at once
when there are far more of them than nodes. So the heap grows with the nodes and not with
the packets, and as no more than so many nodes can be known, it has a bound for good.

The bound needs nothing to be known of the heap before a node is heard: too large a heap is
made again from the nodes.

- `size_sight_le`: the heap right after a node was heard, whatever it was before.
- `Tracked.sightings_moves_le`, `Tracked.sightings_perform_le`: an operation keeps the bound.
- `sightings_stay_few`: every mesh that can be reached.
-/

namespace MeshWatch

/-! ## The size of a heap -/

namespace Sightings

theorem size_insert (s : Sightings) (x : Sighting) : (s.insert x).size = s.size + 1 := by
  rw [size_eq, size_eq, (perm_insert s x).length_eq, List.length_cons]

theorem size_insertAll (xs : List Sighting) : ∀ s : Sightings,
    (s.insertAll xs).size = s.size + xs.length := by
  induction xs with
  | nil => intro s; rfl
  | cons x xs ih =>
    intro s
    show ((s.insert x).insertAll xs).size = _
    rw [ih, size_insert, List.length_cons]
    omega

theorem size_ofList (xs : List Sighting) : (ofList xs).size = xs.length := by
  have hempty : empty.size = 0 := rfl
  rw [ofList, size_insertAll, hempty, Nat.zero_add]

end Sightings

namespace Mesh

variable {m m' : Mesh} {keep : List NodeId}

/-! ## Hearing a node -/

theorem size_refreshSightings (m : Mesh) : m.refreshSightings.sightings.size = m.nodes.size := by
  show (Sightings.ofList m.lastSightings).size = _
  rw [Sightings.size_ofList, lastSightings, nodeList, List.length_map, List.length_map,
    Std.ExtTreeMap.length_toList]

/-- **A node is heard.** Too large a heap is made again before the new sighting comes. -/
theorem size_sight_le (m : Mesh) (id : NodeId) (now : Moment) :
    (m.sight id now).sightings.size ≤ 4 * m.nodes.size + 65 := by
  unfold sight
  split
  · show (m.refreshSightings.sightings.insert ⟨now, id⟩).size ≤ _
    rw [Sightings.size_insert, size_refreshSightings]
    omega
  · next hfew =>
    show (m.sightings.insert ⟨now, id⟩).size ≤ _
    rw [sightingBound] at hfew
    rw [Sightings.size_insert]
    omega

/-- How many sightings there can be. -/
def sightingsBound (l : Limits) : Nat := 4 * nodeBound l + 65

theorem Tracked.sightings_ensure_le (h : Tracked m) {id : NodeId} (now : Moment) (hid : id ∈ keep)
    (hkeep : keep.length ≤ 3) (hsize : m.nodes.size ≤ nodeBound m.limits) :
    (m.ensure id now keep).1.sightings.size ≤ sightingsBound m.limits := by
  have hafter := h.size_ensure_le now hid hkeep hsize
  have hsight := size_sight_le (m.announce id keep).1 id now
  change ((m.announce id keep).1.sight id now).nodes.size ≤ _ at hafter
  -- hearing a node stores it at most
  have hgrows : (m.announce id keep).1.nodes.size
      ≤ ((m.announce id keep).1.sight id now).nodes.size := by
    rw [size_sight]
    split
    · exact Nat.le_refl _
    · exact Nat.le_add_right _ 1
  show ((m.announce id keep).1.sight id now).sightings.size ≤ 4 * nodeBound m.limits + 65
  omega

/-! ## Operations -/

theorem Tracked.sightings_moves_le {heard : List NodeId} {now : Moment} {told : Journal}
    (h : Tracked m) (hm : Moves keep now heard m m' told) (hkeep : keep.length ≤ 3)
    (hsize : m.nodes.size ≤ nodeBound m.limits)
    (hfew : m.sightings.size ≤ sightingsBound m.limits) :
    m'.sightings.size ≤ sightingsBound m.limits := by
  induction hm with
  | hear hid he =>
    rw [he.sightings]
    exact h.sightings_ensure_le _ hid hkeep hsize
  | edits he _ _ hs =>
    rw [hs, he.sightings]
    exact hfew
  | trans h₁ _ ih ih' =>
    have hfirst := ih h hsize hfew
    have hnodes := h.size_moves_le h₁ hkeep hsize
    rw [← h₁.limits] at hfirst hnodes ⊢
    exact ih' (h.moves h₁) hnodes hfirst

/-- **One step.** A sweep leaves the sightings of the nodes that it removes, and a restoration
makes the heap from the nodes. -/
theorem Tracked.sightings_perform_le (h : Tracked m) (s : Step)
    (hsize : m.nodes.size ≤ nodeBound m.limits)
    (hfew : m.sightings.size ≤ sightingsBound m.limits) :
    (m.perform s).1.sightings.size ≤ sightingsBound m.limits := by
  cases hs : s.operation.isUpkeep with
  | false =>
    exact h.sightings_moves_le (moves_perform m s hs) s.operation.length_named_le hsize hfew
  | true =>
    obtain ⟨op, now⟩ := s
    cases op with
    | sweep =>
      have hsame : (m.sweep now).1.sightings = m.sightings :=
        (sightings_removeNodes _ _).trans (sightings_removeNodes _ m)
      show (m.sweep now).1.sightings.size ≤ _
      rw [hsame]
      exact hfew
    | restore state =>
      have hnodes : (m.restore state).sightings.size = (m.restore state).nodes.size :=
        size_refreshSightings _
      have hrestored := size_restore_le m state
      have hmax : m.limits.maxNodes ≤ nodeBound m.limits := Nat.le_max_left ..
      show (m.restore state).sightings.size ≤ 4 * nodeBound m.limits + 65
      omega
    | _ => cases hs

theorem Tracked.sightings_after_le {steps : List Step} : ∀ {m : Mesh}, Tracked m →
    m.nodes.size ≤ nodeBound m.limits → m.sightings.size ≤ sightingsBound m.limits →
    (m.after steps).sightings.size ≤ sightingsBound m.limits := by
  induction steps with
  | nil => intro m _ _ hfew; exact hfew
  | cons s steps ih =>
    intro m h hsize hfew
    have hfirst := h.sightings_perform_le s hsize hfew
    have hnodes := h.size_perform_le s hsize
    rw [← limits_perform m s] at hfirst hnodes ⊢
    exact ih (h.perform s) hnodes hfirst

/-- **Few sightings, and none missing.** Whatever was done to a new mesh, by whatever clock and
however often, the sighting at which a node was heard last is on the heap, and the heap holds no
more than four sightings for each node that there can be, and sixty-five. -/
theorem sightings_stay_few (limits : Limits) (primary : String) (orders : HashOrders)
    (steps : List Step) :
    let m := (new limits primary orders).after steps
    EveryNode (fun id n => n.id = id ∧ ⟨n.lastHeard, n.id⟩ ∈ m.sightings.toList) m ∧
    m.sightings.toList.length ≤ 4 * max limits.maxNodes 3 + 65 := by
  intro m
  refine ⟨fun id n hn => ?_, ?_⟩
  · obtain ⟨hid, hmem⟩ := tracked_after limits primary orders steps id n hn
    rw [hid]
    exact ⟨rfl, hmem⟩
  · rw [← Sightings.size_eq]
    exact (tracked_new limits primary orders).sightings_after_le (Nat.zero_le _) (Nat.zero_le _)

/-- Three nodes that are heard in turn come to the bound, and at the next packet one sighting of
each of them is left beside the new one. -/
example :
    let heard (n : Nat) : List Step :=
      (List.range n).map fun i => ⟨.update ⟨UInt32.ofNat (0x1001 + i % 3)⟩ {}, .ofSecs i⟩
    let size (n : Nat) := ((new { maxNodes := 3 } "" {}).after (heard n)).sightings.size
    size 77 = 4 * max 3 3 + 65 ∧ size 78 = 4 := by decide +kernel

end Mesh

end MeshWatch
