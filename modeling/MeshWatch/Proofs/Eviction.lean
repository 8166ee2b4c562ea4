import Mathlib.Data.List.Nodup
import MeshWatch.Proofs.Tracking

/-!
# Which nodes give way

When a node is heard for the first time and the mesh is full, other nodes give way. The
heap of sightings is looked through for them; here stands, against that, the plain order
of all nodes that need not be kept, by the time at which they were heard last and then
by id. The nodes that give way are taken from the front of it, as many as are needed for
the new one to fit, and a sweep takes the nodes in excess from the front of the same
order.

- `aged`, `spare`: the order. `removeOldest_cases`: the heap finds its first element.
- `Vacated`: the front of the order is gone. `vacated_makeRoom`: as much as is needed.
- `admissions`: which nodes come and go, told from the order alone.
- `MakesRoom`: what a step does to the set of nodes, and `oldest_gives_way`: every step
  but a sweep and a restoration does that, in each mesh that can be reached.
-/

namespace MeshWatch.Mesh

variable {m m' : Mesh} {keep : List NodeId}

/-! ## The order -/

/-- The last sightings of the nodes that need not be kept, earliest first. -/
def aged (m : Mesh) (keep : List NodeId) : List Sighting :=
  (m.lastSightings.filter fun x => !keep.contains x.id).mergeSort Sighting.le

/-- The nodes that need not be kept, those first that were silent longest. -/
def spare (m : Mesh) (keep : List NodeId) : List NodeId := (m.aged keep).map Sighting.id

theorem pairwise_aged (m : Mesh) (keep : List NodeId) :
    (m.aged keep).Pairwise fun x y => x.le y = true :=
  @List.pairwise_mergeSort _ Sighting.le (fun _ _ _ => Sighting.le_trans) Sighting.le_total _

theorem Tracked.nodup_aged (h : Tracked m) (keep : List NodeId) : (m.aged keep).Nodup :=
  (List.mergeSort_perm _ _).nodup_iff.2 (h.nodup_lastSightings.filter _)

theorem Tracked.mem_aged (h : Tracked m) {x : Sighting} :
    x ∈ m.aged keep ↔ m.isUpToDate x = true ∧ x.id ∉ keep := by
  rw [aged, (List.mergeSort_perm _ _).mem_iff, List.mem_filter, h.mem_lastSightings,
    isUpToDate_iff]
  simp

/-- No other list holds the same sightings in order. -/
theorem Tracked.aged_eq (h : Tracked m) {xs : List Sighting}
    (hs : xs.Pairwise fun x y => x.le y = true) (hn : xs.Nodup)
    (hmem : ∀ x, x ∈ xs ↔ m.isUpToDate x = true ∧ x.id ∉ keep) : m.aged keep = xs := by
  have hperm : (m.aged keep).Perm xs :=
    (List.perm_ext_iff_of_nodup (h.nodup_aged keep) hn).2 fun x => by rw [h.mem_aged, hmem]
  exact hperm.eq_of_pairwise (fun _ _ _ _ => Sighting.le_antisymm) (pairwise_aged m keep) hs

theorem Tracked.aged_congr (h : Tracked m) (h' : Tracked m')
    (he : ∀ x : Sighting, x.id ∉ keep → m'.isUpToDate x = m.isUpToDate x) :
    m'.aged keep = m.aged keep := by
  refine h'.aged_eq (pairwise_aged m keep) (h.nodup_aged keep) fun x => ?_
  rw [h.mem_aged]
  constructor
  · rintro ⟨hx, hk⟩
    exact ⟨(he x hk).trans hx, hk⟩
  · rintro ⟨hx, hk⟩
    exact ⟨(he x hk).symm.trans hx, hk⟩

theorem Tracked.mem_spare (h : Tracked m) {id : NodeId} :
    id ∈ m.spare keep ↔ m.nodes.contains id = true ∧ id ∉ keep := by
  rw [spare, List.mem_map, contains_iff]
  constructor
  · rintro ⟨x, hx, rfl⟩
    obtain ⟨hup, hk⟩ := h.mem_aged.1 hx
    obtain ⟨n, hn, -⟩ := isUpToDate_iff.1 hup
    exact ⟨⟨n, hn⟩, hk⟩
  · rintro ⟨⟨n, hn⟩, hk⟩
    exact ⟨⟨n.lastHeard, id⟩, h.mem_aged.2 ⟨isUpToDate_iff.2 ⟨n, hn, rfl⟩, hk⟩, rfl⟩

/-- Of one node there is one last sighting. -/
theorem isUpToDate_inj {x y : Sighting} (hx : m.isUpToDate x = true)
    (hy : m.isUpToDate y = true) (hid : x.id = y.id) : x = y := by
  obtain ⟨n, hn, ht⟩ := isUpToDate_iff.1 hx
  obtain ⟨n', hn', ht'⟩ := isUpToDate_iff.1 hy
  rw [hid, hn'] at hn
  obtain ⟨tx, ix⟩ := x
  obtain ⟨ty, iy⟩ := y
  cases hn
  cases hid
  exact congrArg (Sighting.mk · ix) (ht.symm.trans ht')

/-- Whatever comes before all others that need not be kept starts the order. -/
theorem Tracked.aged_eq_cons (h : Tracked m) {x : Sighting} (hx : m.isUpToDate x = true)
    (hk : x.id ∉ keep)
    (hle : ∀ y : Sighting, m.isUpToDate y = true → y.id ∉ keep → x.le y = true) :
    ∃ rest, m.aged keep = x :: rest := by
  have hmem : x ∈ m.aged keep := h.mem_aged.2 ⟨hx, hk⟩
  have hpw := pairwise_aged m keep
  cases ha : m.aged keep with
  | nil =>
    rw [ha] at hmem
    cases hmem
  | cons z rest =>
    obtain ⟨hz, hzk⟩ := h.mem_aged.1 (ha ▸ List.mem_cons_self ..)
    rw [ha] at hmem hpw
    rcases List.mem_cons.1 hmem with rfl | hrest
    · exact ⟨rest, rfl⟩
    · -- the two are before each other
      have hzx := (List.pairwise_cons.1 hpw).1 x hrest
      rw [Sighting.le_antisymm hzx (hle z hz hzk)]
      exact ⟨rest, rfl⟩

/-- Without the node in front the order goes on behind it. -/
theorem Tracked.aged_tail (h : Tracked m) (h' : Tracked m') {x : Sighting} {rest : List Sighting}
    (ha : m.aged keep = x :: rest)
    (hgone : ∀ y : Sighting, m'.isUpToDate y = true ↔ y.id ≠ x.id ∧ m.isUpToDate y = true) :
    m'.aged keep = rest := by
  have hpw := pairwise_aged m keep
  have hnd := h.nodup_aged keep
  rw [ha] at hpw hnd
  obtain ⟨hx, hnd⟩ := List.nodup_cons.1 hnd
  have hup := (h.mem_aged.1 (ha ▸ List.mem_cons_self ..)).1
  refine h'.aged_eq (List.pairwise_cons.1 hpw).2 hnd fun y => ?_
  rw [hgone]
  constructor
  · intro hy
    obtain ⟨hyup, hyk⟩ := h.mem_aged.1 (ha ▸ List.mem_cons_of_mem x hy)
    refine ⟨⟨fun he => hx ?_, hyup⟩, hyk⟩
    rw [← isUpToDate_inj hyup hup he]
    exact hy
  · rintro ⟨⟨hne, hyup⟩, hyk⟩
    have hy : y ∈ x :: rest := ha ▸ h.mem_aged.2 ⟨hyup, hyk⟩
    rcases List.mem_cons.1 hy with rfl | hy
    · exact absurd rfl hne
    · exact hy

/-! ## Removing one node -/

theorem isUpToDate_removeNode {id : NodeId} {y : Sighting} :
    (m.removeNode id).isUpToDate y = true ↔ y.id ≠ id ∧ m.isUpToDate y = true := by
  rw [isUpToDate_iff, isUpToDate_iff, getElem?_removeNode]
  by_cases he : id = y.id
  · simp [he]
  · simp [he, Ne.symm he]

/-- **The heap finds the oldest node.** Either every node has to be kept, or the node
that is removed comes first of the others. -/
theorem Tracked.removeOldest_cases (h : Tracked m) (keep : List NodeId) :
    (∃ m', m.removeOldest keep = (m', none) ∧ m'.nodes = m.nodes ∧ m.spare keep = [] ∧
      m'.spare keep = []) ∨
    (∃ m' id, m.removeOldest keep = (m', some id) ∧ m'.nodes = m.nodes.erase id ∧ Tracked m' ∧
      m.spare keep = id :: m'.spare keep) := by
  have htracked : Tracked (m.removeOldest keep).1 := h.removeOldest
  have hsome := fun id => @Sightings.oldest_some m.isUpToDate keep.contains id m.sightings.size []
    m.sightings
  have hnone := @Sightings.oldest_none m.isUpToDate keep.contains m.sightings.size [] m.sightings
    (Nat.le_refl _)
  obtain ⟨found, rest, hfound, he⟩ := m.removeOldest_eq keep
  rw [he] at htracked ⊢
  rw [hfound] at hsome hnone
  cases found with
  | none =>
    have hnil : ∀ id, ¬ (m.nodes.contains id = true ∧ id ∉ keep) := by
      rintro id ⟨hid, hk⟩
      obtain ⟨n, hn⟩ := (m.contains_iff id).1 hid
      have hup : m.isUpToDate ⟨n.lastHeard, id⟩ = true := isUpToDate_iff.2 ⟨n, hn, rfl⟩
      have hkept := hnone rfl ⟨n.lastHeard, id⟩ (h.mem_sightings hup) hup
      exact hk (by simpa using hkept)
    refine Or.inl ⟨_, rfl, rfl, ?_, ?_⟩
    · exact List.eq_nil_iff_forall_not_mem.2 fun id hid => hnil id (h.mem_spare.1 hid)
    · exact List.eq_nil_iff_forall_not_mem.2 fun id hid => hnil id (htracked.mem_spare.1 hid)
  | some id =>
    obtain ⟨x, -, rfl, hup, hk, hle⟩ := hsome id rfl
    obtain ⟨zs, ha⟩ := h.aged_eq_cons hup (by simpa using hk) fun y hy hyk =>
      hle y (h.mem_sightings hy) hy (by simpa using hyk)
    have hrest := h.aged_tail htracked ha fun y => isUpToDate_removeNode
    refine Or.inr ⟨_, x.id, rfl, rfl, htracked, ?_⟩
    rw [spare, ha, spare, hrest]
    rfl

/-! ## Making room -/

/-- How many nodes there are too many for another one to fit. -/
def surplus (m : Mesh) : Nat := m.nodes.size + 1 - m.limits.nodeCap

theorem size_erase {nodes : Std.ExtTreeMap NodeId Node} {id : NodeId}
    (h : nodes.contains id = true) : (nodes.erase id).size + 1 = nodes.size := by
  have hpos : nodes.size ≠ 0 := by
    intro he
    rw [Std.ExtTreeMap.eq_empty_iff_size_eq_zero.2 he] at h
    simp at h
  rw [Std.ExtTreeMap.size_erase, if_pos h]
  omega

/-- Some nodes from the front of the order are gone, and this was told. -/
structure Vacated (keep gone : List NodeId) (m m' : Mesh) (told : Journal) : Prop where
  changes : changesOfNodes told = gone.map .nodeStale
  spare : m.spare keep = gone ++ m'.spare keep
  size : m'.nodes.size + gone.length = m.nodes.size
  contains : ∀ id, m'.nodes.contains id = true ↔ m.nodes.contains id = true ∧ id ∉ gone

theorem Vacated.nil (hn : m'.nodes = m.nodes) (hs : m'.spare keep = m.spare keep) :
    Vacated keep [] m m' [] := by
  constructor
  · rfl
  · exact hs.symm
  · rw [hn]
    rfl
  · intro id
    rw [hn]
    simp

theorem Vacated.cons {m₁ : Mesh} {id : NodeId} {gone : List NodeId} {told : Journal} {w : Warning}
    (hid : m.nodes.contains id = true) (hn : m₁.nodes = m.nodes.erase id)
    (hs : m.spare keep = id :: m₁.spare keep) (h : Vacated keep gone m₁ m' told) :
    Vacated keep (id :: gone) m m' (.warning w :: .event (.nodeStale id) :: told) := by
  constructor
  · rw [List.map_cons, ← h.changes]
    rfl
  · rw [hs, h.spare]
    rfl
  · have hone := size_erase hid
    rw [← hn] at hone
    rw [← hone, ← h.size, List.length_cons]
    omega
  · intro i
    have hrem : m₁.nodes.contains i = true ↔ m.nodes.contains i = true ∧ i ≠ id := by
      rw [hn]
      exact contains_removeNode m id i
    rw [h.contains, hrem, List.mem_cons, not_or, and_assoc]

/-- **Room.** The surplus is taken from the front of the order, as far as it reaches. -/
theorem Tracked.vacated_makeRoom {fuel : Nat} : ∀ {m : Mesh}, Tracked m →
    (m.spare keep).length ≤ fuel →
    Vacated keep ((m.spare keep).take m.surplus) m (Mesh.makeRoom keep fuel m).1
      (Mesh.makeRoom keep fuel m).2 := by
  -- each round takes one spare node, so the fuel lasts
  induction fuel with
  | zero =>
    intro m _ hlen
    rw [List.length_eq_zero_iff.1 (Nat.le_zero.1 hlen), List.take_nil]
    exact .nil rfl rfl
  | succ fuel ih =>
    intro m h hlen
    rw [Mesh.makeRoom]
    by_cases hfits : m.nodes.size < m.limits.nodeCap
    · have hs : m.surplus = 0 := by
        unfold surplus
        omega
      rw [if_pos hfits, hs, List.take_zero]
      exact .nil rfl rfl
    · rw [if_neg hfits]
      rcases h.removeOldest_cases keep with
        ⟨m', he, hnodes, hnil, hnil'⟩ | ⟨m', id, he, hnodes, htracked, hspare⟩
      · -- every node has to be kept
        rw [he, hnil, List.take_nil]
        exact .nil hnodes (hnil'.trans hnil.symm)
      · -- the first of the order goes, and the rest decides
        have hlim := limits_offNodes.removeOldest m keep
        rw [he] at hlim
        dsimp only at hlim
        have hid : m.nodes.contains id = true :=
          (h.mem_spare.1 (hspare ▸ List.mem_cons_self ..)).1
        have hsize := size_erase hid
        rw [← hnodes] at hsize
        have hsurplus : m.surplus = m'.surplus + 1 := by
          unfold surplus
          rw [hlim]
          omega
        have hlen' : (m'.spare keep).length ≤ fuel := by
          rw [hspare, List.length_cons] at hlen
          omega
        have hcut : (m.spare keep).take m.surplus = id :: (m'.spare keep).take m'.surplus := by
          rw [hspare, hsurplus, List.take_succ_cons]
        rw [he, hcut]
        exact .cons hid hnodes hspare (ih htracked hlen')

/-! ## Who comes and who goes -/

/-- The nodes that come and go when unknown nodes are heard one after the other. Before
each of them as many give way as are too many for it to fit, from the front of the spare
ones, and as far as there are any. -/
def admissions (cap : Nat) : (count : Nat) → (spare newcomers : List NodeId) → List Event
  | _, _, [] => []
  | count, spare, id :: newcomers =>
    let gone := spare.take (count + 1 - cap)
    gone.map .nodeStale ++ .nodeCreated id ::
      admissions cap (count + 1 - gone.length) (spare.drop (count + 1 - cap)) newcomers

/-- Those nodes that are not known, each of them once. -/
def newcomers (m : Mesh) (heard : List NodeId) : List NodeId :=
  (heard.filter fun id => !m.nodes.contains id).eraseDups

/-- What has to come and go in a mesh that hears several nodes. -/
def expected (m : Mesh) (keep heard : List NodeId) : List Event :=
  admissions m.limits.nodeCap m.nodes.size (m.spare keep) (m.newcomers heard)

theorem expected_nil (m : Mesh) (keep : List NodeId) : m.expected keep [] = [] := rfl

theorem newcomers_cons_of_contains {id : NodeId} (h : m.nodes.contains id = true)
    (heard : List NodeId) : m.newcomers (id :: heard) = m.newcomers heard := by
  rw [newcomers, List.filter_cons_of_neg (by simp [h]), newcomers]

theorem newcomers_cons {id : NodeId} (h : m.nodes.contains id = false) {heard : List NodeId}
    (hm' : ∀ i ∈ heard, m'.nodes.contains i = true ↔ m.nodes.contains i = true ∨ i = id) :
    m.newcomers (id :: heard) = id :: m'.newcomers heard := by
  rw [newcomers, List.filter_cons_of_pos (by simp [h]), List.eraseDups_cons, List.filter_filter,
    newcomers]
  refine congrArg (id :: List.eraseDups ·) (List.filter_congr fun i hi => ?_)
  have hi' : m'.nodes.contains i = (m.nodes.contains i || i == id) := by
    rw [Bool.eq_iff_iff, hm' i hi, Bool.or_eq_true, beq_iff_eq]
  rw [hi', Bool.not_or, Bool.and_comm]

theorem isUpToDate_congr {x : Sighting}
    (he : (m'.nodes[x.id]?).map Node.lastHeard = (m.nodes[x.id]?).map Node.lastHeard) :
    m'.isUpToDate x = m.isUpToDate x := by
  unfold isUpToDate
  cases h : m.nodes[x.id]? with
  | none =>
    rw [h] at he
    rw [Option.map_eq_none_iff.1 he]
  | some n =>
    rw [h] at he
    obtain ⟨n', hn', ht⟩ := Option.map_eq_some_iff.1 he
    rw [hn']
    show (n'.lastHeard == x.heard) = (n.lastHeard == x.heard)
    rw [ht]

/-- What is expected depends on who is there and when the spare nodes were heard. -/
theorem Tracked.expected_congr (h : Tracked m) (h' : Tracked m') (hlim : m'.limits = m.limits)
    (hsize : m'.nodes.size = m.nodes.size)
    (hcontains : ∀ id, m'.nodes.contains id = m.nodes.contains id)
    (hheard : ∀ id : NodeId, id ∉ keep →
      (m'.nodes[id]?).map Node.lastHeard = (m.nodes[id]?).map Node.lastHeard)
    (heard : List NodeId) : m'.expected keep heard = m.expected keep heard := by
  have hspare : m'.spare keep = m.spare keep :=
    congrArg _ (h.aged_congr h' fun x hx => isUpToDate_congr (hheard x.id hx))
  have hnew : m'.newcomers heard = m.newcomers heard := by
    unfold newcomers
    rw [List.filter_congr fun id _ => congrArg _ (hcontains id)]
  rw [expected, expected, hlim, hsize, hspare, hnew]

/-- Nodes were heard, in this order, and room was made for those that were not known. -/
structure Hears (keep heard : List NodeId) (m m' : Mesh) (told : Journal) : Prop where
  tracked : Tracked m'
  expected : ∀ more, (∀ id ∈ more, id ∈ keep) →
    m.expected keep (heard ++ more) = changesOfNodes told ++ m'.expected keep more
  spared : ∀ id, .nodeStale id ∈ changesOfNodes told → id ∉ keep
  nodes : ∀ id, m'.nodes.contains id = true ↔
    (m.nodes.contains id = true ∧ .nodeStale id ∉ changesOfNodes told) ∨ id ∈ heard
  times : ∀ id, id ∉ keep → ∀ n', m'.nodes[id]? = some n' →
    ∃ n, m.nodes[id]? = some n ∧ n.lastHeard = n'.lastHeard

theorem Hears.refl (h : Tracked m) (keep : List NodeId) : Hears keep [] m m [] :=
  ⟨h, fun _ _ => rfl, nofun, fun id => by simp [changesOfNodes], fun _ _ n hn => ⟨n, hn, rfl⟩⟩

/-- Who was heard does not depend on messages, slots, routes or seen packets. -/
theorem Hears.congr {heard : List NodeId} {m₁ : Mesh} {told : Journal}
    (h : Hears keep heard m m₁ told) (ht : Tracked m') (hn : m'.nodes = m₁.nodes)
    (hlim : m'.limits = m₁.limits) : Hears keep heard m m' told := by
  refine ⟨ht, fun more hmore => ?_, h.spared, fun id => ?_, fun id hid n' hn' => ?_⟩
  · rw [h.tracked.expected_congr ht hlim (by rw [hn]) (fun id => by rw [hn]) fun id _ => by rw [hn]]
    exact h.expected more hmore
  · rw [hn]
    exact h.nodes id
  · rw [hn] at hn'
    exact h.times id hid n' hn'

theorem Hears.trans {heard heard' : List NodeId} {m₁ : Mesh} {told told' : Journal}
    (h : Hears keep heard m m₁ told) (h' : Hears keep heard' m₁ m' told')
    (hkeep : ∀ id ∈ heard ++ heard', id ∈ keep) :
    Hears keep (heard ++ heard') m m' (told ++ told') := by
  refine ⟨h'.tracked, fun more hmore => ?_, fun id hid => ?_, fun id => ?_, fun id hid n' hn' => ?_⟩
  · have hrest : ∀ id ∈ heard' ++ more, id ∈ keep := by
      intro id hid
      rcases List.mem_append.1 hid with hid | hid
      · exact hkeep id (List.mem_append_right _ hid)
      · exact hmore id hid
    rw [List.append_assoc, h.expected _ hrest, h'.expected more hmore, changesOfNodes_append,
      List.append_assoc]
  · rw [changesOfNodes_append] at hid
    rcases List.mem_append.1 hid with hid | hid
    · exact h.spared id hid
    · exact h'.spared id hid
  · rw [h'.nodes, h.nodes, changesOfNodes_append, List.mem_append, List.mem_append, not_or]
    constructor
    · rintro (⟨⟨hm, h1⟩ | hid, h2⟩ | hid)
      · exact Or.inl ⟨hm, h1, h2⟩
      · exact Or.inr (Or.inl hid)
      · exact Or.inr (Or.inr hid)
    · rintro (⟨hm, h1, h2⟩ | hid | hid)
      · exact Or.inl ⟨Or.inl ⟨hm, h1⟩, h2⟩
      · -- a node that was heard is kept
        refine Or.inl ⟨Or.inr hid, fun hs => ?_⟩
        exact h'.spared id hs (hkeep id (List.mem_append_left _ hid))
      · exact Or.inr hid
  · obtain ⟨n₁, hn₁, ht₁⟩ := h'.times id hid n' hn'
    obtain ⟨n, hn, ht⟩ := h.times id hid n₁ hn₁
    exact ⟨n, hn, ht.trans ht₁⟩

/-- Edits that do not change when a spare node was heard have no part in it. -/
theorem Hears.edits {heard : List NodeId} {m₁ : Mesh} {told : Journal} {P : Edit}
    (h : Hears keep heard m m₁ told) (he : Edits P m₁ m') (ht : Tracked m')
    (hP : ∀ id f n, P id f → id ∈ keep ∨ (f n).lastHeard = n.lastHeard) {more : Journal}
    (hmore : changesOfNodes more = []) : Hears keep heard m m' (told ++ more) := by
  have htimes : ∀ id : NodeId, id ∉ keep →
      (m'.nodes[id]?).map Node.lastHeard = (m₁.nodes[id]?).map Node.lastHeard := fun id hid =>
    he.map_getElem? fun f n hf => (hP id f n hf).resolve_left hid
  have hexp : ∀ heard, m'.expected keep heard = m₁.expected keep heard :=
    h.tracked.expected_congr ht he.limits he.size he.contains htimes
  refine ⟨ht, fun more hmore' => ?_, fun id hid => ?_, fun id => ?_, fun id hid n' hn' => ?_⟩
  · rw [changesOfNodes_append, hmore, List.append_nil, hexp]
    exact h.expected more hmore'
  · rw [changesOfNodes_append, hmore, List.append_nil] at hid
    exact h.spared id hid
  · rw [changesOfNodes_append, hmore, List.append_nil, he.contains]
    exact h.nodes id
  · have ht' := htimes id hid
    rw [hn'] at ht'
    obtain ⟨n₁, hn₁, ht₁⟩ := Option.map_eq_some_iff.1 ht'.symm
    obtain ⟨n, hn, ht⟩ := h.times id hid n₁ hn₁
    exact ⟨n, hn, ht.trans ht₁⟩

theorem length_spare_le (m : Mesh) (keep : List NodeId) : (m.spare keep).length ≤ m.nodes.size := by
  have hl : m.lastSightings.length = m.nodes.size := by simp [lastSightings, nodeList]
  rw [spare, List.length_map, aged, List.length_mergeSort, ← hl]
  exact List.length_filter_le _ _

/-- Nodes that are kept have no place in the order. -/
theorem Tracked.spare_sight (h : Tracked m) {id : NodeId} (hid : id ∈ keep) (now : Moment) :
    (m.sight id now).spare keep = m.spare keep := by
  refine congrArg _ (h.aged_congr h.sight fun x hx => isUpToDate_congr ?_)
  have hne : x.id ≠ id := fun he => hx (he ▸ hid)
  rw [getElem?_sight_of_ne hne]

/-- A node that is known is heard again, and nobody comes or goes. -/
theorem Tracked.hears_known (h : Tracked m) {id : NodeId} (now : Moment) (hid : id ∈ keep)
    (hc : m.nodes.contains id = true) : Hears keep [id] m (m.sight id now) [] := by
  have hcontains : ∀ i, (m.sight id now).nodes.contains i = true ↔ m.nodes.contains i = true := by
    intro i
    rw [contains_sight_iff]
    constructor
    · rintro (hi | rfl)
      · exact hi
      · exact hc
    · exact Or.inl
  constructor
  · exact h.sight
  · intro more _
    show m.expected keep (id :: more) = (m.sight id now).expected keep more
    have hnew : (m.sight id now).newcomers more = m.newcomers more := by
      unfold newcomers
      rw [List.filter_congr fun i _ => congrArg _ (Bool.eq_iff_iff.2 (hcontains i))]
    rw [expected, expected, newcomers_cons_of_contains hc, hnew, limits_offNodes.sight, size_sight,
      if_pos hc, h.spare_sight hid]
  · exact nofun
  · intro i
    rw [hcontains, List.mem_singleton]
    constructor
    · exact fun hi => Or.inl ⟨hi, nofun⟩
    · rintro (⟨hi, -⟩ | rfl)
      · exact hi
      · exact hc
  · intro i hi n' hn'
    have hne : i ≠ id := fun he => hi (he ▸ hid)
    rw [getElem?_sight_of_ne hne] at hn'
    exact ⟨n', hn', rfl⟩

theorem Vacated.changes_created {gone : List NodeId} {told : Journal}
    (h : Vacated keep gone m m' told) (id : NodeId) :
    changesOfNodes (told ++ [.event (.nodeCreated id)])
      = gone.map .nodeStale ++ [.nodeCreated id] := by
  rw [changesOfNodes_append, h.changes]
  rfl

theorem Vacated.nodeStale_mem_iff {gone : List NodeId} {told : Journal}
    (h : Vacated keep gone m m' told) (id i : NodeId) :
    .nodeStale i ∈ changesOfNodes (told ++ [.event (.nodeCreated id)]) ↔ i ∈ gone := by
  rw [h.changes_created, List.mem_append, List.mem_map]
  constructor
  · rintro (⟨j, hj, he⟩ | he)
    · cases he
      exact hj
    · simp at he
  · exact fun hi => Or.inl ⟨i, hi, rfl⟩

/-- A node that is not known comes, and the surplus goes. -/
theorem Tracked.hears_new (h : Tracked m) {id : NodeId} (now : Moment) (hid : id ∈ keep)
    (hc : m.nodes.contains id = false) :
    Hears keep [id] m ((Mesh.makeRoom keep m.nodes.size m).1.sight id now)
      ((Mesh.makeRoom keep m.nodes.size m).2 ++ [.event (.nodeCreated id)]) := by
  have hroom := h.vacated_makeRoom (length_spare_le m keep)
  have htracked : Tracked (Mesh.makeRoom keep m.nodes.size m).1 := h.makeRoom
  have hlim := limits_offNodes.makeRoom keep m.nodes.size m
  have hfewer := fewer_makeRoom keep m.nodes.size m
  generalize Mesh.makeRoom keep m.nodes.size m = r at *
  obtain ⟨m₀, told⟩ := r
  dsimp only at hroom htracked hlim hfewer ⊢
  -- none of those that give way is heard later on, as that is kept
  have hgone : ∀ i ∈ (m.spare keep).take m.surplus, i ∉ keep := fun i hi =>
    (h.mem_spare.1 (List.mem_of_mem_take hi)).2
  have hc₀ : ¬ m₀.nodes.contains id = true := by
    rw [hroom.contains, hc]
    simp
  constructor
  · exact htracked.sight
  · intro more hmore
    have hnew : m.newcomers (id :: more) = id :: (m₀.sight id now).newcomers more := by
      refine newcomers_cons hc fun i hi => ?_
      have hi' : i ∉ (m.spare keep).take m.surplus := fun hg => hgone i hg (hmore i hi)
      rw [contains_sight_iff, hroom.contains, and_iff_left hi']
    have hdrop : (m₀.sight id now).spare keep = (m.spare keep).drop m.surplus := by
      rw [htracked.spare_sight hid]
      exact List.append_cancel_left (hroom.spare.symm.trans (List.take_append_drop ..).symm)
    have hsize : (m₀.sight id now).nodes.size
        = m.nodes.size + 1 - ((m.spare keep).take m.surplus).length := by
      rw [size_sight, if_neg hc₀, ← hroom.size]
      omega
    show m.expected keep (id :: more) = _
    rw [expected, hnew, hroom.changes_created, expected, limits_offNodes.sight, hlim, hsize, hdrop,
      List.append_assoc]
    rfl
  · intro i hi
    exact hgone i ((hroom.nodeStale_mem_iff id i).1 hi)
  · intro i
    rw [contains_sight_iff, hroom.contains, hroom.nodeStale_mem_iff, List.mem_singleton]
  · intro i hi n' hn'
    have hne : i ≠ id := fun he => hi (he ▸ hid)
    rw [getElem?_sight_of_ne hne] at hn'
    exact ⟨n', hfewer i n' hn', rfl⟩

theorem Tracked.hears_ensure (h : Tracked m) {id : NodeId} (now : Moment) (hid : id ∈ keep) :
    Hears keep [id] m (m.ensure id now keep).1 (m.ensure id now keep).2 := by
  unfold Mesh.ensure announce
  cases hc : m.nodes.contains id with
  | true => exact h.hears_known now hid hc
  | false => exact h.hears_new now hid hc

/-- **Moves.** Whatever is made of moves makes room for the unknown nodes that it hears. -/
theorem Tracked.hears {heard : List NodeId} {now : Moment} {told : Journal} (h : Tracked m)
    (hm : Moves keep now heard m m' told) : Hears keep heard m m' told := by
  induction hm with
  | hear hid he hP ht =>
    refine (h.hears_ensure now hid).edits he (h.moves (.hear hid he hP ht)) ?_ ht
    intro id f n hf
    rcases (hP id f n hf).2 with heq | ⟨rfl, -⟩
    · exact Or.inr heq
    · exact Or.inl hid
  | @edits m m₁ m' P told he hP hn hs hl ht =>
    have hm₁ : Moves keep now [] m m₁ [] := .edits he hP rfl rfl rfl changesOfNodes_nil
    have hh := (Hears.refl h keep).edits he (h.moves hm₁)
      (fun id f n hf => Or.inr (hP id f n hf).2) ht
    exact hh.congr ((h.moves hm₁).congr hn hs) hn hl
  | trans h₁ h₂ ih ih' =>
    exact (ih h).trans (ih' (h.moves h₁)) (Moves.trans h₁ h₂).heard_subset

/-! ## The oldest node gives way -/

/-- The node of which an event tells that it went. -/
def removedNode? : Event → Option NodeId
  | .nodeStale id => some id
  | _ => none

/-- The nodes that a journal tells to be removed, first removed first. -/
def removed (told : Journal) : List NodeId := (changesOfNodes told).filterMap removedNode?

theorem mem_removed {told : Journal} {id : NodeId} :
    id ∈ removed told ↔ .nodeStale id ∈ changesOfNodes told := by
  rw [removed, List.mem_filterMap]
  constructor
  · rintro ⟨e, he, heq⟩
    cases e with
    | nodeStale i =>
      cases heq
      exact he
    | _ => cases heq
  · exact fun h => ⟨_, h, rfl⟩

theorem filterMap_map_nodeStale (ids : List NodeId) :
    (ids.map Event.nodeStale).filterMap removedNode? = ids := by
  rw [List.filterMap_map]
  exact List.filterMap_some

/-- A node is known and need not be kept, and of all such nodes it was heard longest ago;
of several it has the least id. -/
def IsOldest (m : Mesh) (keep : List NodeId) (id : NodeId) : Prop :=
  ∃ n, m.nodes[id]? = some n ∧ id ∉ keep ∧ ∀ (id' : NodeId) (n' : Node),
    m.nodes[id']? = some n' → id' ∉ keep →
      Sighting.le ⟨n.lastHeard, id⟩ ⟨n'.lastHeard, id'⟩ = true

/-- What comes and goes when several nodes are heard, of which none may be removed. -/
structure MakesRoom (cap : Nat) (keep heard : List NodeId) (m m' : Mesh) (told : Journal) :
    Prop where
  /-- Before an unknown node is stored the surplus is taken from the front of the order. -/
  order : changesOfNodes told = admissions cap m.nodes.size (m.spare keep) (m.newcomers heard)
  /-- Each node that goes is the oldest of those that have not gone before it. -/
  oldest : ∀ gone id later, removed told = gone ++ id :: later → m.IsOldest (keep ++ gone) id
  nodes : ∀ id, m'.nodes.contains id = true ↔
    (m.nodes.contains id = true ∧ id ∉ removed told) ∨ id ∈ heard
  /-- Meanwhile no other node is heard. -/
  times : ∀ id, id ∉ keep → ∀ n', m'.nodes[id]? = some n' →
    ∃ n, m.nodes[id]? = some n ∧ n.lastHeard = n'.lastHeard

/-- Whoever goes is taken from the front of the spare nodes. -/
theorem removed_admissions (cap : Nat) (newcomers : List NodeId) :
    ∀ (count : Nat) (spare : List NodeId),
      (admissions cap count spare newcomers).filterMap removedNode? <+: spare := by
  induction newcomers with
  | nil => intro count spare; exact List.nil_prefix
  | cons id newcomers ih =>
    intro count spare
    obtain ⟨rest, hrest⟩ := ih (count + 1 - (spare.take (count + 1 - cap)).length)
      (spare.drop (count + 1 - cap))
    refine ⟨rest, ?_⟩
    rw [admissions, List.filterMap_append, filterMap_map_nodeStale, List.append_assoc]
    exact (congrArg (spare.take (count + 1 - cap) ++ ·) hrest).trans (List.take_append_drop _ _)

theorem Tracked.isOldest (h : Tracked m) {keep gone later : List NodeId} {id : NodeId}
    (hs : gone ++ id :: later = m.spare keep) : m.IsOldest (keep ++ gone) id := by
  obtain ⟨xs, ys, ha, rfl, hys⟩ := List.map_eq_append_iff.1 hs.symm
  obtain ⟨x, zs, rfl, rfl, -⟩ := List.map_eq_cons_iff.1 hys
  have hpw := pairwise_aged m keep
  have hnd := h.nodup_aged keep
  rw [ha] at hpw hnd
  obtain ⟨hup, hk⟩ := h.mem_aged.1 (ha ▸ List.mem_append_right xs (List.mem_cons_self ..))
  obtain ⟨n, hn, ht⟩ := isUpToDate_iff.1 hup
  refine ⟨n, hn, fun hmem => ?_, fun id' n' hn' hk' => ?_⟩
  · -- the node has one last sighting, which occurs once in the order
    rcases List.mem_append.1 hmem with hmem | hmem
    · exact hk hmem
    · obtain ⟨y, hy, he⟩ := List.mem_map.1 hmem
      obtain ⟨hyup, -⟩ := h.mem_aged.1 (ha ▸ List.mem_append_left _ hy)
      rw [isUpToDate_inj hyup hup he] at hy
      exact (List.nodup_append.1 hnd).2.2 x hy x (List.mem_cons_self ..) rfl
  · rw [ht]
    have hy : (⟨n'.lastHeard, id'⟩ : Sighting) ∈ xs ++ x :: zs :=
      ha ▸ h.mem_aged.2 ⟨isUpToDate_iff.2 ⟨n', hn', rfl⟩, fun hi => hk' (List.mem_append_left _ hi)⟩
    rcases List.mem_append.1 hy with hy | hy
    · exact absurd (List.mem_append_right keep (List.mem_map.2 ⟨_, hy, rfl⟩)) hk'
    · rcases List.mem_cons.1 hy with he | hy
      · rw [← he]
        have := Sighting.le_total ⟨n'.lastHeard, id'⟩ ⟨n'.lastHeard, id'⟩
        simpa using this
      · exact (List.pairwise_cons.1 (List.pairwise_append.1 hpw).2.1).1 _ hy

theorem Hears.makesRoom {heard : List NodeId} {told : Journal} (h : Tracked m)
    (hh : Hears keep heard m m' told) :
    MakesRoom m.limits.nodeCap keep heard m m' told := by
  have horder : changesOfNodes told = m.expected keep heard := by
    have := hh.expected [] nofun
    rw [List.append_nil, expected_nil, List.append_nil] at this
    exact this.symm
  refine ⟨horder, fun gone id later he => ?_, fun id => ?_, hh.times⟩
  · have hprefix : removed told <+: m.spare keep := by
      rw [removed, horder]
      exact removed_admissions ..
    obtain ⟨rest, hrest⟩ := hprefix
    rw [he, List.append_assoc] at hrest
    exact h.isOldest hrest
  · rw [hh.nodes, mem_removed]

/-- Wherever the nodes stand in their table, their ages and ids put them in one order. -/
theorem sorted_walkedNodes (m : Mesh) :
    (m.walkedNodes.map fun n => Sighting.mk n.lastHeard n.id).mergeSort Sighting.le
      = m.aged [] := by
  have hall : (m.lastSightings.filter fun x => !([] : List NodeId).contains x.id)
      = m.lastSightings := List.filter_eq_self.2 fun _ _ => rfl
  have hwalked : (m.walkedNodes.map fun n => Sighting.mk n.lastHeard n.id).Perm
      m.lastSightings := m.walkedNodes_perm.map _
  have hperm := (List.mergeSort_perm _ Sighting.le).trans
    (hwalked.trans (List.mergeSort_perm m.lastSightings Sighting.le).symm)
  rw [aged, hall]
  have hsorted : ∀ xs : List Sighting, (xs.mergeSort Sighting.le).Pairwise fun x y => x.le y :=
    List.pairwise_mergeSort (fun _ _ _ => Sighting.le_trans) Sighting.le_total
  exact hperm.eq_of_pairwise (fun _ _ _ _ => Sighting.le_antisymm) (hsorted _) (hsorted _)

theorem excessNodes_eq (m : Mesh) :
    m.excessNodes = (m.spare []).take (m.nodes.size - m.limits.maxNodes) := by
  rw [excessNodes, sorted_walkedNodes, spare, List.map_take]

/-- **The oldest node gives way.** In every mesh that can be reached from a new one, by
any operations under any clock, a step other than a sweep or a restoration removes nodes
only to make room for unknown ones that it hears, and while there are as many nodes as
fit. Each of them is the node that was heard longest ago, and of several the one with
the least id, of all nodes that are there and that the operation does not name. The nodes
in excess that a sweep removes come from the front of the same order. -/
theorem oldest_gives_way (limits : Limits) (primary : String) (orders : HashOrders)
    (steps : List Step) :
    let m := (new limits primary orders).after steps
    (∀ s : Step, s.operation.isUpkeep = false →
      MakesRoom (max limits.maxNodes 1) s.operation.named (m.heard s) m (m.perform s).1
        (m.perform s).2) ∧
    ∀ now, let kept := m.removeNodes (m.staleNodes now)
      kept.excessNodes = (kept.spare []).take (kept.nodes.size - limits.maxNodes) := by
  intro m
  have h : Tracked m := tracked_after limits primary orders steps
  have hlim : m.limits = limits := limits_after steps (new limits primary orders)
  refine ⟨fun s hs => ?_, fun now => ?_⟩
  · have hroom := (h.hears (moves_perform m s hs)).makesRoom h
    rw [hlim] at hroom
    exact hroom
  · intro kept
    have hk : kept.limits = limits := (limits_offNodes.removeNodes _ m).trans hlim
    rw [excessNodes_eq, hk]

/-- A packet of an unknown node in a mesh of two, whose gateway was silent longest. -/
theorem gateway_is_spared :
    let limits : Limits := { maxNodes := 2 }
    let steps : List Step :=
      [⟨.update ⟨0x1001⟩ {}, .ofSecs 10⟩, ⟨.update ⟨0x1002⟩ {}, .ofSecs 5⟩]
    let m := (new limits "" {}).after steps
    let p : Packet :=
      { packetId := 7, sender := ⟨0x1003⟩, recipient := .broadcast, gateway := some ⟨0x1002⟩
        channelName := "", channelIndex := 0, hopLimit := 3, hopStart := 3, rxSnr := none
        rxRssi := none, rxTime := none, relay := none, wantAck := false, encrypted := false
        payload := .sealed }
    let s : Step := ⟨.packet p, .ofSecs 7⟩
    s.operation.isUpkeep = false ∧
    MakesRoom 2 s.operation.named (m.heard s) m (m.perform s).1 (m.perform s).2 ∧
    removed (m.perform s).2 = [⟨0x1001⟩] := by
  intro limits steps m p s
  have h := (oldest_gives_way limits "" {} steps).1 s rfl
  exact ⟨rfl, h, by decide⟩

end MeshWatch.Mesh
