import MeshWatch.Proofs.RestoredRoutes

/-!
# Which records are put back

When a document is put back, its records are sorted, the newest first, and those that fit are
put under their keys, one after the other. As long as no key occurs twice, this keeps the newest
records. But of several records of one key the one that is put there last stays, which is the
oldest of them, and the others took the places of keys that were left out. Nor is it the nodes
in the table that are counted in the end.

- `Cut`: the newest of some records. `cut_newest`: how they come about.
- `KeepsNewest`: what a table should hold of some records. `Harmless`: when repetitions among
  them do not matter.
- `Cut.keepsNewest_iff`: only then a table that is filled with the newest holds what it should.
- `Cut.length_eq_size_iff`: when the records are as many as the table holds.
- `restored_records_iff`: nodes, routes and the count of a document.
-/

namespace MeshWatch

variable {K V : Type} {key : V → K} {time : V → Moment} {cap : Nat} {xs kept : List V}

/-! ## The newest records -/

/-- The newest records that fit, the newest first. -/
structure Cut (time : V → Moment) (cap : Nat) (xs kept : List V) : Prop where
  ordered : kept.Pairwise fun v w => time w ≤ time v
  length : kept.length = min cap xs.length
  rest : ∃ rest, xs.Perm (kept ++ rest) ∧ ∀ v ∈ kept, ∀ w ∈ rest, time w ≤ time v

theorem cut_newest (time : V → Moment) (cap : Nat) (xs : List V) :
    Cut time cap xs ((xs.mergeSort fun v w => time w ≤ time v).take cap) := by
  have hsorted : (xs.mergeSort fun v w => time w ≤ time v).Pairwise fun v w => time w ≤ time v := by
    have htrans : ∀ u v w : V, decide (time v ≤ time u) = true → decide (time w ≤ time v) = true →
        decide (time w ≤ time u) = true := by
      intro u v w huv hvw
      simp only [decide_eq_true_eq, Moment.le_def] at huv hvw ⊢
      omega
    have htotal : ∀ v w : V, (decide (time w ≤ time v) || decide (time v ≤ time w)) = true := by
      intro v w
      simp only [Bool.or_eq_true, decide_eq_true_eq, Moment.le_def]
      omega
    exact (List.pairwise_mergeSort htrans htotal xs).imp of_decide_eq_true
  rw [← List.take_append_drop cap (xs.mergeSort _), List.pairwise_append] at hsorted
  constructor
  case ordered => exact hsorted.1
  case length => rw [List.length_take, List.length_mergeSort]
  case rest =>
    refine ⟨(xs.mergeSort fun v w => time w ≤ time v).drop cap, ?_, hsorted.2.2⟩
    rw [List.take_append_drop]
    exact (List.mergeSort_perm ..).symm

namespace Cut

theorem mem (h : Cut time cap xs kept) {v : V} (hv : v ∈ kept) : v ∈ xs := by
  obtain ⟨rest, hperm, -⟩ := h.rest
  exact hperm.mem_iff.2 (List.mem_append_left _ hv)

theorem mem_or_older (h : Cut time cap xs kept) {w : V} (hw : w ∈ xs) :
    w ∈ kept ∨ ∀ v ∈ kept, time w ≤ time v := by
  obtain ⟨rest, hperm, hrest⟩ := h.rest
  rcases List.mem_append.1 (hperm.mem_iff.1 hw) with hw | hw
  · exact Or.inl hw
  · exact Or.inr fun v hv => hrest v hv w hw

theorem nodup (h : Cut time cap xs kept) (hxs : (xs.map key).Nodup) : (kept.map key).Nodup := by
  obtain ⟨rest, hperm, -⟩ := h.rest
  have hboth := (hperm.map key).nodup_iff.1 hxs
  rw [List.map_append, List.nodup_append] at hboth
  exact hboth.1

end Cut

/-- Repetitions do no harm: records that are kept under one key are equally old, and they take
the place of no other key. -/
structure Harmless (key : V → K) (time : V → Moment) (xs kept : List V) : Prop where
  age : ∀ v ∈ kept, ∀ w ∈ kept, key v = key w → time v = time w
  place : (kept.map key).Nodup ∨ ∀ x ∈ xs, key x ∈ kept.map key

/-- Without repetitions there is no harm. -/
theorem Cut.harmless_of_nodup (h : Cut time cap xs kept) (hxs : (xs.map key).Nodup) :
    Harmless key time xs kept := by
  have hkept : (kept.map key).Nodup := h.nodup hxs
  constructor
  · intro v hv w hw hk
    rw [List.inj_on_of_nodup_map hkept hv hw hk]
  · exact Or.inl hkept

/-! ## Counting keys -/

section Counting

variable [DecidableEq K]

/-- A list with as many elements as its set has none of them twice. -/
theorem nodup_of_card_toFinset {ks : List K} (h : ks.toFinset.card = ks.length) : ks.Nodup :=
  Multiset.coe_nodup.1 (Multiset.toFinset_card_eq_card_iff_nodup.1 h)

namespace Cut

theorem toFinset_subset (h : Cut time cap xs kept) (key : V → K) :
    (kept.map key).toFinset ⊆ (xs.map key).toFinset := by
  intro k hk
  simp only [List.mem_toFinset, List.mem_map] at hk ⊢
  obtain ⟨v, hv, rfl⟩ := hk
  exact ⟨v, h.mem hv, rfl⟩

/-- As many keys as fit are kept if and only if no place is wasted. -/
theorem card_iff (h : Cut time cap xs kept) :
    (kept.map key).toFinset.card = min cap (xs.map key).toFinset.card ↔
      (kept.map key).Nodup ∨ ∀ x ∈ xs, key x ∈ kept.map key := by
  have hle := Finset.card_le_card (h.toFinset_subset key)
  have hlen : (kept.map key).length = min cap xs.length := by rw [List.length_map, h.length]
  have hkept : (kept.map key).toFinset.card ≤ (kept.map key).length := List.toFinset_card_le _
  have hxs : (xs.map key).toFinset.card ≤ (xs.map key).length := List.toFinset_card_le _
  rw [List.length_map] at hxs
  constructor
  · intro hcard
    by_cases hall : (kept.map key).toFinset.card = (xs.map key).toFinset.card
    · right
      intro x hx
      have heq := Finset.eq_of_subset_of_card_le (h.toFinset_subset key) hall.ge
      rw [← List.mem_toFinset, heq, List.mem_toFinset]
      exact List.mem_map_of_mem hx
    · left
      apply nodup_of_card_toFinset
      omega
  · rintro (hnodup | hall)
    · have hfull := List.toFinset_card_of_nodup hnodup
      omega
    · have hsup : (xs.map key).toFinset ⊆ (kept.map key).toFinset := by
        intro k hk
        rw [List.mem_toFinset] at hk ⊢
        obtain ⟨x, hx, rfl⟩ := List.mem_map.1 hk
        exact hall x hx
      have hge := Finset.card_le_card hsup
      omega

end Cut

end Counting

/-! ## Tables that are filled with them -/

section Filling

variable [Ord K] [Std.TransOrd K] [Std.LawfulEqOrd K] [DecidableEq K]

/-- A table holds as many keys of some records as fit, namely those with the newest records, and
under each of them its newest record. -/
structure KeepsNewest (key : V → K) (time : V → Moment) (cap : Nat) (xs : List V)
    (t : Std.ExtTreeMap K V) : Prop where
  size : t.size = min cap (xs.map key).toFinset.card
  newest : ∀ (k : K) (v : V), t[k]? = some v →
    v ∈ xs ∧ key v = k ∧ ∀ w ∈ xs, key w = k → time w ≤ time v
  latest : ∀ (k : K) (v : V), t[k]? = some v → ∀ w ∈ xs, t[key w]? = none → time w ≤ time v

namespace Cut

/-- Of the records of one key the oldest that is kept stays. -/
theorem oldest (h : Cut time cap xs kept) {k : K} {v : V}
    (hv : (Table.fill key ∅ kept)[k]? = some v) :
    ∀ w ∈ kept, key w = k → time v ≤ time w := by
  intro w hw hk
  rw [Table.getElem?_fill, Std.ExtTreeMap.getElem?_empty, Option.or_none,
    List.getLast?_eq_some_iff] at hv
  obtain ⟨others, hothers⟩ := hv
  have hordered := h.ordered.filter fun v => key v == k
  have hmem : w ∈ kept.filter fun v => key v == k := List.mem_filter.2 ⟨hw, beq_iff_eq.2 hk⟩
  rw [hothers] at hordered hmem
  rcases List.mem_append.1 hmem with hw | hw
  · exact (List.pairwise_append.1 hordered).2.2 w hw v (List.mem_singleton_self v)
  · rw [List.mem_singleton.1 hw]
    exact Int.le_refl _

/-- The newest record of each key stays if and only if all of it that are kept are equally
old. -/
theorem newest_iff (h : Cut time cap xs kept) :
    (∀ (k : K) (v : V), (Table.fill key ∅ kept)[k]? = some v →
      v ∈ xs ∧ key v = k ∧ ∀ w ∈ xs, key w = k → time w ≤ time v) ↔
    ∀ v ∈ kept, ∀ w ∈ kept, key v = key w → time v = time w := by
  constructor
  · intro hnewest
    -- the record that stays is the oldest and has to be the newest
    have hsame : ∀ v ∈ kept, ∃ u, (Table.fill key ∅ kept)[key v]? = some u ∧
        time v = time u := by
      intro v hv
      cases hu : (Table.fill key ∅ kept)[key v]? with
      | none => exact absurd (List.mem_map_of_mem hv) (Table.getElem?_fill_eq_none.1 hu)
      | some u =>
        have hle := (hnewest _ u hu).2.2 v (h.mem hv) rfl
        have hge := h.oldest hu v hv rfl
        exact ⟨u, rfl, congrArg Moment.mk (Int.le_antisymm hle hge)⟩
    intro v hv w hw hk
    obtain ⟨u, hu, hvu⟩ := hsame v hv
    obtain ⟨u', hu', hwu⟩ := hsame w hw
    rw [← hk, hu] at hu'
    cases hu'
    rw [hvu, hwu]
  · intro hage k v hv
    obtain ⟨hkept, hk⟩ := Table.getElem?_fill_eq_some hv
    refine ⟨h.mem hkept, hk, ?_⟩
    intro w hw hwk
    rcases h.mem_or_older hw with hw | hw
    · rw [hage w hw v hkept (hwk.trans hk.symm)]
      exact Int.le_refl _
    · exact hw v hkept

/-- **The newest records are kept** if and only if repetitions do no harm. -/
theorem keepsNewest_iff (h : Cut time cap xs kept) :
    KeepsNewest key time cap xs (Table.fill key ∅ kept) ↔ Harmless key time xs kept := by
  constructor
  · intro hkeeps
    have hsize := hkeeps.size
    rw [Table.size_fill] at hsize
    exact ⟨h.newest_iff.1 hkeeps.newest, h.card_iff.1 hsize⟩
  · intro hharmless
    constructor
    case size =>
      rw [Table.size_fill]
      exact h.card_iff.2 hharmless.place
    case newest => exact h.newest_iff.2 hharmless.age
    case latest =>
      -- what is newer than a record in the table is kept, so its key is there too
      intro k v hv w hw hnone
      rcases h.mem_or_older hw with hkept | holder
      · exact absurd (List.mem_map_of_mem hkept) (Table.getElem?_fill_eq_none.1 hnone)
      · exact holder v (Table.getElem?_fill_eq_some hv).1

/-- **The count.** There are as many records as the table holds if and only if they all fit and
no key is repeated. -/
theorem length_eq_size_iff (h : Cut time cap xs kept) :
    xs.length = (Table.fill key ∅ kept).size ↔ xs.length ≤ cap ∧ (xs.map key).Nodup := by
  have hlen : (kept.map key).length = min cap xs.length := by rw [List.length_map, h.length]
  have hxs : (xs.map key).length = xs.length := List.length_map key
  rw [Table.size_fill]
  constructor
  · intro hsize
    have hkept : (kept.map key).toFinset.card ≤ (kept.map key).length := List.toFinset_card_le _
    have hle := Finset.card_le_card (h.toFinset_subset key)
    have hge : (xs.map key).toFinset.card ≤ (xs.map key).length := List.toFinset_card_le _
    refine ⟨by omega, ?_⟩
    apply nodup_of_card_toFinset
    omega
  · rintro ⟨hfits, hnodup⟩
    have hfull := List.toFinset_card_of_nodup (h.nodup hnodup)
    omega

end Cut

end Filling

/-! ## Sparse documents -/

section Sparse

open Json

/-- A node of which little is stored: its id, and the second at which it was heard. -/
def sparseNode (a : String × String) : Json :=
  .object [("id", .string a.1), ("first_seen", .string "2024-01-01T00:00:00Z"),
    ("last_heard", .string ("2024-01-01T00:00:" ++ a.2 ++ "Z"))]

/-- A route without hops: its destination, and the second at which it was discovered. -/
def sparseRoute (a : String × String) : Json :=
  .object [("destination", .string a.1), ("hops", .array []),
    ("discovered", .string ("2024-01-01T00:00:" ++ a.2 ++ "Z")), ("preferred", .bool false)]

/-- A document of such nodes and routes. -/
def sparseDocument (nodes routes : List (String × String)) : Json :=
  .object [("nodes", .list sparseNode nodes), ("routes", .list sparseRoute routes)]

theorem itemFloats_map_eq_nil {α : Type} {write : α → Json} (h : ∀ a, (write a).floats = [])
    (as : List α) : itemFloats (as.map write) = [] := by
  induction as with
  | nil => rfl
  | cons a as ih =>
    rw [List.map_cons, itemFloats, h, ih]
    rfl

/-- Such a document is read back from its text. -/
theorem Snapshot.read_sparse (nodes routes : List (String × String)) :
    Snapshot.read (some (Bytes.ofText (sparseDocument nodes routes).pretty))
      = .ok (Snapshot.ofJson (sparseDocument nodes routes).reread) := by
  have hnode : ∀ (d : Nat) (a : String × String), Fits (d + 1) (sparseNode a) := by
    intro d a
    simp [sparseNode, fits_object]
  have hroute : ∀ (d : Nat) (a : String × String), Fits (d + 2) (sparseRoute a) := by
    intro d a
    have hhops : Fits (d + 1) (.array []) := List.forall_mem_nil _
    simp [sparseRoute, fits_object, hhops]
  have hfits : Fits maxDepth (sparseDocument nodes routes) := by
    simp [sparseDocument, maxDepth, fits_object, hnode, hroute]
  have hfloats : (sparseDocument nodes routes).floats = [] := by
    show itemFloats (nodes.map sparseNode) ++ (itemFloats (routes.map sparseRoute) ++ []) = []
    rw [itemFloats_map_eq_nil (fun _ => rfl) nodes, itemFloats_map_eq_nil (fun _ => rfl) routes]
    rfl
  have hback : ∀ x ∈ (sparseDocument nodes routes).floats, x.ReadsBack := by
    rw [hfloats]
    exact List.forall_mem_nil _
  rw [Snapshot.read, readBytes?, Bytes.toText?_ofText, Option.bind_some, read?_pretty hfits hback]

end Sparse

namespace Mesh

/-! ## Documents -/

theorem cut_keptNodes (limits : Limits) (s : MeshState) :
    Cut Node.lastHeard limits.maxNodes s.nodes (keptNodes limits s) := cut_newest ..

theorem cut_keptRoutes (limits : Limits) (s : MeshState) :
    Cut Route.discovered limits.maxRoutes s.routes (keptRoutes limits s) := cut_newest ..

theorem restoreSnapshot_ok (m : Mesh) {body : Option Bytes} {s : Snapshot} {told : Journal}
    (h : Snapshot.read body = .ok (s, told)) :
    m.restoreSnapshot body = (m.restore s.state, told, s.state.nodes.length) := by
  rw [restoreSnapshot, h]

/-- **Putting a document back.** Whatever document is read into whatever mesh, the mesh holds
the newest nodes that fit, each with the newest of its records, if and only if the repetitions
among the records do no harm, and so it does with the routes. The number of nodes that is told
is that of the nodes in the mesh if and only if all records fit and none is of a node that has
another one. -/
theorem restored_records_iff (m : Mesh) {body : Option Bytes} {s : Snapshot} {told : Journal}
    (h : Snapshot.read body = .ok (s, told)) :
    let restored := (m.restoreSnapshot body).1
    (KeepsNewest Node.id Node.lastHeard m.limits.maxNodes s.state.nodes restored.nodes ↔
      Harmless Node.id Node.lastHeard s.state.nodes (keptNodes m.limits s.state)) ∧
    (KeepsNewest Route.destination Route.discovered m.limits.maxRoutes s.state.routes
        restored.routes ↔
      Harmless Route.destination Route.discovered s.state.routes (keptRoutes m.limits s.state)) ∧
    ((m.restoreSnapshot body).2.2 = restored.nodes.size ↔
      s.state.nodes.length ≤ m.limits.maxNodes ∧ (s.state.nodes.map Node.id).Nodup) := by
  rw [m.restoreSnapshot_ok h]
  have hnodes := cut_keptNodes m.limits s.state
  have hroutes := cut_keptRoutes m.limits s.state
  exact ⟨hnodes.keepsNewest_iff, hroutes.keepsNewest_iff, hnodes.length_eq_size_iff⟩

/-- Four nodes, of which one has no readable id, and two routes. -/
def fourNodes : Json :=
  sparseDocument
    [("!00001001", "20"), ("not-a-node", "30"), ("!00001002", "10"), ("0x1003", "25")]
    [("!00001001", "20"), ("!00001002", "10")]

theorem ofJson_fourNodes :
    (Snapshot.ofJson fourNodes.reread).2 = [.warning (.skippedRecords "nodes" 1)] ∧
    (Snapshot.ofJson fourNodes.reread).1.state.nodes.map Node.id
      = [⟨0x1001⟩, ⟨0x1002⟩, ⟨0x1003⟩] ∧
    (Snapshot.ofJson fourNodes.reread).1.state.routes.map Route.destination
      = [⟨0x1001⟩, ⟨0x1002⟩] := by decide +kernel

/-- The three nodes with an id are put back, and of the routes the one that was discovered
last. -/
theorem restored_records_of_four_nodes :
    let m := new { maxNodes := 3, maxRoutes := 1 } "" {}
    ∃ body s, body = some (Bytes.ofText fourNodes.pretty) ∧
      Snapshot.read body = .ok (s, [.warning (.skippedRecords "nodes" 1)]) ∧
      s.state.nodes.map Node.id = [⟨0x1001⟩, ⟨0x1002⟩, ⟨0x1003⟩] ∧
      s.state.routes.map Route.destination = [⟨0x1001⟩, ⟨0x1002⟩] ∧
      KeepsNewest Node.id Node.lastHeard 3 s.state.nodes (m.restoreSnapshot body).1.nodes ∧
      KeepsNewest Route.destination Route.discovered 1 s.state.routes
        (m.restoreSnapshot body).1.routes ∧
      (m.restoreSnapshot body).2.2 = (m.restoreSnapshot body).1.nodes.size := by
  intro m
  -- the text is never looked into
  obtain ⟨body, hbody⟩ : ∃ body, body = some (Bytes.ofText fourNodes.pretty) := ⟨_, rfl⟩
  have hread : Snapshot.read body = .ok (Snapshot.ofJson fourNodes.reread) := by
    rw [hbody]
    exact Snapshot.read_sparse _ _
  obtain ⟨htold, hids, hdestinations⟩ := ofJson_fourNodes
  generalize Snapshot.ofJson fourNodes.reread = r at hread htold hids hdestinations
  obtain ⟨s, told⟩ := r
  obtain rfl : told = [.warning (.skippedRecords "nodes" 1)] := htold
  dsimp only at hids hdestinations
  obtain ⟨hnodes, hroutes, hcount⟩ := restored_records_iff m hread
  have hdistinct : (s.state.nodes.map Node.id).Nodup := by
    rw [hids]
    decide
  have hdistinct' : (s.state.routes.map Route.destination).Nodup := by
    rw [hdestinations]
    decide
  have hlength : s.state.nodes.length = 3 := by
    rw [← List.length_map Node.id, hids]
    rfl
  refine ⟨body, s, hbody, hread, hids, hdestinations, ?_, ?_, ?_⟩
  · exact hnodes.2 ((cut_keptNodes _ _).harmless_of_nodup hdistinct)
  · exact hroutes.2 ((cut_keptRoutes _ _).harmless_of_nodup hdistinct')
  · exact hcount.2 ⟨hlength.le, hdistinct⟩

/-- Three records of two nodes: the first one is listed twice, under different spellings of its
id. -/
def threeRecords : Json :=
  sparseDocument [("!00001001", "20"), ("0x1001", "10"), ("!00001002", "05")] []

theorem ofJson_threeRecords :
    let r := Snapshot.ofJson threeRecords.reread
    let table := Table.fill Node.id ∅ (r.1.state.nodes.take 2)
    r.2 = [] ∧ r.1.state.nodes.map Node.id = [⟨0x1001⟩, ⟨0x1001⟩, ⟨0x1002⟩] ∧
    r.1.state.nodes.map Node.lastHeard
      = [.ofSecs 1704067220, .ofSecs 1704067210, .ofSecs 1704067205] ∧
    (r.1.state.nodes.Pairwise fun a b => b.lastHeard ≤ a.lastHeard) ∧
    table.size = 1 ∧
    table[(⟨0x1001⟩ : NodeId)]?.map Node.lastHeard = some (.ofSecs 1704067210) := by
  decide +kernel

/-- In a mesh for two nodes the older record of the first one stays, the second one has no place,
and three nodes are told. -/
theorem older_record_stays :
    let m := new { maxNodes := 2 } "" {}
    ∃ body s, body = some (Bytes.ofText threeRecords.pretty) ∧
      Snapshot.read body = .ok (s, []) ∧
      s.state.nodes.map Node.id = [⟨0x1001⟩, ⟨0x1001⟩, ⟨0x1002⟩] ∧
      s.state.nodes.map Node.lastHeard
        = [.ofSecs 1704067220, .ofSecs 1704067210, .ofSecs 1704067205] ∧
      (m.restoreSnapshot body).1.nodes.size = 1 ∧
      (m.restoreSnapshot body).1.nodes[(⟨0x1001⟩ : NodeId)]?.map Node.lastHeard
        = some (.ofSecs 1704067210) ∧
      (m.restoreSnapshot body).2.2 = 3 ∧
      ¬ KeepsNewest Node.id Node.lastHeard 2 s.state.nodes (m.restoreSnapshot body).1.nodes := by
  intro m
  obtain ⟨body, hbody⟩ : ∃ body, body = some (Bytes.ofText threeRecords.pretty) := ⟨_, rfl⟩
  have hread : Snapshot.read body = .ok (Snapshot.ofJson threeRecords.reread) := by
    rw [hbody]
    exact Snapshot.read_sparse _ _
  obtain ⟨htold, hids, htimes, hordered, hsize, hstays⟩ := ofJson_threeRecords
  generalize Snapshot.ofJson threeRecords.reread = r at *
  obtain ⟨s, told⟩ := r
  obtain rfl : told = [] := htold
  dsimp only at hids htimes hordered hsize hstays
  have hlength : s.state.nodes.length = 3 := by
    rw [← List.length_map Node.id, hids]
    rfl
  have hnodes : (m.restore s.state).nodes = Table.fill Node.id ∅ (s.state.nodes.take 2) :=
    congrArg (Table.fill Node.id ∅) (keptNodes_of_newestFirst m.limits hordered)
  rw [← hnodes] at hsize hstays
  refine ⟨body, s, hbody, hread, hids, htimes, ?_⟩
  rw [restoreSnapshot_ok m hread]
  refine ⟨hsize, hstays, hlength, ?_⟩
  intro hkeeps
  -- there is room for both of the ids
  have hboth := hsize.symm.trans hkeeps.size
  rw [hids] at hboth
  exact absurd hboth (by decide)

end Mesh

end MeshWatch
