import Mathlib.Data.List.Nodup
import MeshWatch.Proofs.Moves

/-!
# Sightings keep track of the nodes

The heap of sightings may hold much that is out of date, but never less than it must:
for every node the sighting at which it was heard last is among them. Everything that
changes when a node was heard puts a sighting on the heap first, so whatever was done
to a mesh, in whatever order and by whatever clock, the heap knows the node that was
heard longest ago.

- `Tracked`: the invariant, and `tracked_after`: it holds of every mesh that can be
  reached.
- `Tracked.moves`, `Tracked.restore`: what the parts of an operation keep of it.
-/

namespace MeshWatch.Mesh

/-- Nodes are stored under their ids, and their last sightings are known. -/
def Tracked (m : Mesh) : Prop :=
  EveryNode (fun id n => n.id = id ∧ ⟨n.lastHeard, id⟩ ∈ m.sightings.toList) m

theorem tracked_new (limits : Limits) (primary : String) (orders : HashOrders) :
    Tracked (new limits primary orders) :=
  everyNode_new _ limits primary orders

variable {m : Mesh}

theorem Tracked.congr {m' : Mesh} (h : Tracked m) (hn : m'.nodes = m.nodes)
    (hs : m'.sightings = m.sightings) : Tracked m' := by
  unfold Tracked
  rw [hs]
  exact EveryNode.congr h hn

/-! ## Nodes and their last sightings -/

theorem mem_nodeList {n : Node} : n ∈ m.nodeList ↔ ∃ id : NodeId, m.nodes[id]? = some n := by
  simp only [nodeList, List.mem_map, Prod.exists, Std.ExtTreeMap.mem_toList_iff_getElem?_eq_some]
  constructor
  · rintro ⟨id, n', h, rfl⟩
    exact ⟨id, h⟩
  · rintro ⟨id, h⟩
    exact ⟨id, n, h, rfl⟩

theorem mem_walkedNodes {n : Node} :
    n ∈ m.walkedNodes ↔ ∃ id : NodeId, m.nodes[id]? = some n := by
  rw [m.walkedNodes_perm.mem_iff, mem_nodeList]

theorem Tracked.mem_lastSightings (h : Tracked m) {x : Sighting} :
    x ∈ m.lastSightings ↔ ∃ n, m.nodes[x.id]? = some n ∧ n.lastHeard = x.heard := by
  simp only [lastSightings, List.mem_map, mem_nodeList]
  constructor
  · rintro ⟨n, ⟨id, hn⟩, rfl⟩
    refine ⟨n, ?_, rfl⟩
    rw [(h id n hn).1]
    exact hn
  · rintro ⟨n, hn, he⟩
    refine ⟨n, ⟨x.id, hn⟩, ?_⟩
    rw [(h x.id n hn).1, he]

theorem Tracked.nodup_lastSightings (h : Tracked m) : m.lastSightings.Nodup := by
  have hd : m.nodes.toList.Pairwise fun a b => ¬ compare a.1 b.1 = .eq :=
    Std.ExtTreeMap.distinct_keys_toList
  have hid : ∀ e ∈ m.nodes.toList, e.2.id = e.1 := fun e he =>
    (h e.1 e.2 (Std.ExtTreeMap.mem_toList_iff_getElem?_eq_some.1 he)).1
  rw [lastSightings, nodeList, List.map_map, List.Nodup, List.pairwise_map]
  refine List.Pairwise.imp_of_mem ?_ hd
  intro a b ha hb hne he
  have hab : a.2.id = b.2.id := congrArg Sighting.id he
  rw [hid a ha, hid b hb] at hab
  exact hne (hab ▸ Std.ReflCmp.compare_self)

theorem isUpToDate_iff {x : Sighting} :
    m.isUpToDate x = true ↔ ∃ n, m.nodes[x.id]? = some n ∧ n.lastHeard = x.heard := by
  unfold isUpToDate
  split
  · next n hn => simp [hn]
  · next hn => simp [hn]

theorem Tracked.mem_sightings (h : Tracked m) {x : Sighting} (hx : m.isUpToDate x = true) :
    x ∈ m.sightings.toList := by
  obtain ⟨n, hn, he⟩ := isUpToDate_iff.1 hx
  rw [show x = ⟨n.lastHeard, x.id⟩ by rw [he]]
  exact (h x.id n hn).2

/-- When only the times are forgotten that are out of date, all nodes are tracked. -/
theorem Tracked.refreshSightings
    (h : EveryNode (fun id n => n.id = id) m) : Tracked m.refreshSightings := by
  intro id n hn
  have hid : n.id = id := h id n hn
  refine ⟨hid, Sightings.mem_ofList.2 ?_⟩
  exact List.mem_map.2 ⟨n, mem_nodeList.2 ⟨id, hn⟩, by rw [hid]⟩

/-! ## Hearing a node -/

theorem mem_sightings_sight (m : Mesh) (id : NodeId) (now : Moment) :
    ⟨now, id⟩ ∈ (m.sight id now).sightings.toList :=
  Sightings.mem_insert.2 (Or.inl rfl)

theorem Tracked.sight {id : NodeId} {now : Moment} (h : Tracked m) : Tracked (m.sight id now) := by
  -- the heap before the new sighting, refreshed or not, tracks what was there
  have hbase : ∀ base : Mesh, Tracked base → base.nodes = m.nodes →
      ∀ id' n, m.nodes[id']? = some n →
        n.id = id' ∧ ⟨n.lastHeard, id'⟩ ∈ (base.sightings.insert ⟨now, id⟩).toList := by
    intro base hb he id' n hn
    rw [← he] at hn
    exact ⟨(hb id' n hn).1, Sightings.mem_insert.2 (Or.inr (hb id' n hn).2)⟩
  have hold : ∀ id' n, m.nodes[id']? = some n →
      n.id = id' ∧ ⟨n.lastHeard, id'⟩ ∈ (m.sight id now).sightings.toList := by
    unfold Mesh.sight
    split
    · exact hbase _ (.refreshSightings fun id' n hn => (h id' n hn).1) rfl
    · exact hbase _ h rfl
  intro id' n hn
  rw [getElem?_sight] at hn
  split at hn
  · next he =>
    obtain ⟨rfl, -⟩ := he
    cases hn
    exact ⟨rfl, mem_sightings_sight m id now⟩
  · exact hold id' n hn

theorem Tracked.removeOldest {keep : List NodeId} (h : Tracked m) :
    Tracked (m.removeOldest keep).1 := by
  obtain ⟨found, rest, hfound, he⟩ := m.removeOldest_eq keep
  rw [he]
  -- the search drops no sighting that is up to date but that of the node it finds
  have hlost : ∀ x, m.isUpToDate x = true → found ≠ some x.id → x ∈ rest.toList := by
    intro x hx hne
    have hmem := @Sightings.mem_oldest m.isUpToDate keep.contains x hx m.sightings.size []
      m.sightings (Or.inr (h.mem_sightings hx))
    rw [hfound] at hmem
    exact hmem hne
  have hrest : ∀ id' n, m.nodes[id']? = some n → found ≠ some id' →
      n.id = id' ∧ ⟨n.lastHeard, id'⟩ ∈ rest.toList := fun id' n hn hne =>
    ⟨(h id' n hn).1, hlost ⟨n.lastHeard, id'⟩ (isUpToDate_iff.2 ⟨n, hn, rfl⟩) hne⟩
  cases found with
  | some id =>
    intro id' n hn
    have hn' : ({ m with sightings := rest }.removeNode id).nodes[id']? = some n := hn
    rw [getElem?_removeNode] at hn'
    split at hn'
    · cases hn'
    · next he => exact hrest id' n hn' fun hf => he (Option.some.inj hf)
  | none => exact fun id' n hn => hrest id' n hn nofun

theorem Tracked.makeRoom {keep : List NodeId} {fuel : Nat} (h : Tracked m) :
    Tracked (makeRoom keep fuel m).1 :=
  makeRoom_keeps (fun _ h => h.removeOldest) fuel h

theorem Tracked.ensure {id : NodeId} {now : Moment} {keep : List NodeId} (h : Tracked m) :
    Tracked (m.ensure id now keep).1 :=
  (announce_keeps (fun _ h => h.removeOldest) h id).sight

theorem mem_sightings_ensure (m : Mesh) (id : NodeId) (now : Moment) (keep : List NodeId) :
    ⟨now, id⟩ ∈ (m.ensure id now keep).1.sightings.toList := mem_sightings_sight ..

theorem sightings_removeNodes (ids : List NodeId) : ∀ m : Mesh,
    (m.removeNodes ids).sightings = m.sightings := by
  induction ids with
  | nil => intro m; rfl
  | cons id ids ih => intro m; exact ih (m.removeNode id)

theorem Tracked.removeNodes {ids : List NodeId} (h : Tracked m) : Tracked (m.removeNodes ids) := by
  unfold Tracked
  rw [sightings_removeNodes]
  exact EveryNode.fewer h (fewer_removeNodes ids m)

/-! ## Operations -/

/-- Edits keep track of the nodes if they leave the times alone or if the new times were
noted before. -/
theorem Tracked.edits {P : Edit} {m' : Mesh} (h : Tracked m) (he : Edits P m m')
    (hP : ∀ id f n, P id f → (f n).id = n.id ∧
      ((f n).lastHeard = n.lastHeard ∨ ⟨(f n).lastHeard, id⟩ ∈ m.sightings.toList)) :
    Tracked m' := by
  unfold Tracked
  rw [he.sightings]
  refine EveryNode.edits h he fun id f n hf hn => ⟨(hP id f n hf).1.trans hn.1, ?_⟩
  rcases (hP id f n hf).2 with heq | hmem
  · rw [heq]
    exact hn.2
  · exact hmem

theorem Tracked.moves {keep heard : List NodeId} {now : Moment} {m' : Mesh} {told : Journal}
    (h : Tracked m) (hm : Moves keep now heard m m' told) : Tracked m' := by
  induction hm with
  | hear _ he hP =>
    -- the time that an edit may set is that of the sighting made just before
    refine h.ensure.edits he fun id f n hf => ⟨(hP id f n hf).1, ?_⟩
    rcases (hP id f n hf).2 with heq | ⟨rfl, heq⟩
    · exact Or.inl heq
    · rw [heq]
      exact Or.inr (mem_sightings_ensure ..)
  | edits he hP hn hs =>
    have he' := h.edits he fun id f n hf => ⟨(hP id f n hf).1, Or.inl (hP id f n hf).2⟩
    exact he'.congr hn hs
  | trans _ _ ih ih' => exact ih' (ih h)

/-- A mesh put back from a stored state holds its nodes under their ids, whatever the
state was. -/
theorem Tracked.restore (m : Mesh) (s : MeshState) : Tracked (m.restore s) := by
  have hfold : ∀ (ns : List Node) (t : Std.ExtTreeMap NodeId Node),
      (∀ (id : NodeId) (n : Node), t[id]? = some n → n.id = id) → ∀ (id : NodeId) (n : Node),
        (ns.foldl (fun t n => t.insert n.id n) t)[id]? = some n → n.id = id := by
    intro ns
    induction ns with
    | nil => intro t ht; exact ht
    | cons x ns ih =>
      intro t ht
      refine ih _ fun id n hn => ?_
      rw [Std.ExtTreeMap.getElem?_insert] at hn
      split at hn
      · next hc =>
        cases hn
        exact Std.LawfulEqOrd.eq_of_compare hc
      · exact ht id n hn
  refine Tracked.refreshSightings fun id n hn => hfold _ ∅ (fun id n h => ?_) id n hn
  simp at h

/-- **One step.** Every operation keeps track of the nodes. -/
theorem Tracked.perform (h : Tracked m) (s : Step) : Tracked (m.perform s).1 := by
  cases hs : s.operation.isUpkeep with
  | false => exact h.moves (moves_perform m s hs)
  | true =>
    obtain ⟨op, now⟩ := s
    cases op with
    | sweep => exact h.removeNodes.removeNodes
    | restore state => exact .restore m state
    | _ => cases hs

theorem Tracked.after {steps : List Step} : ∀ {m : Mesh}, Tracked m → Tracked (m.after steps) := by
  induction steps with
  | nil => intro m h; exact h
  | cons s steps ih => intro m h; exact ih (h.perform s)

/-- Whatever was done to a new mesh, its nodes are tracked. -/
theorem tracked_after (limits : Limits) (primary : String) (orders : HashOrders)
    (steps : List Step) :
    Tracked ((new limits primary orders).after steps) := (tracked_new limits primary orders).after

end MeshWatch.Mesh
