import Mathlib.Data.List.Dedup
import Mathlib.Data.List.Induction
import MeshWatch.Mesh.Node
import MeshWatch.NeighborSet

/-!
# Recent lists over a whole run

Neighbors and relay hints are lists in which something that is seen again moves to the end,
and whose oldest element gives way when they are full. After any insertions such a list is
what was inserted, each once and at its last place, cut to the newest.

- `Recent.dedup_concat`: the last occurrences in a list, when one more element comes.
- `Recent.touch_newest`: elements that were dropped before make no difference later.
- `Recent.foldl_touch`: what any recent list holds after a run.
- `NeighborSet.Bounded`: what every set that was built by changes is like.
- `NeighborSet.holds_last_inserted`: the content after insertions, and what each change does.
-/

namespace MeshWatch

namespace Recent

variable {α : Type} [DecidableEq α]

/-- Of an element that comes again only the last occurrence counts, and the others stay in
their places. -/
theorem dedup_concat (xs : List α) (x : α) :
    (xs ++ [x]).dedup = xs.dedup.filter (· != x) ++ [x] := by
  induction xs with
  | nil => rfl
  | cons a xs ih =>
      rw [List.cons_append]
      by_cases hxs : a ∈ xs
      · rw [List.dedup_cons_of_mem (List.mem_append_left _ hxs), ih, List.dedup_cons_of_mem hxs]
      · rw [List.dedup_cons_of_notMem hxs]
        by_cases hx : a = x
        · rw [List.dedup_cons_of_mem (by simp [hx]), ih, List.filter_cons_of_neg (by simp [hx])]
        · rw [List.dedup_cons_of_notMem (by simp [hx, hxs]), ih,
            List.filter_cons_of_pos (by simpa using hx), List.cons_append]

/-- A list that was cut before takes a new element as if it had not been cut: there is one
place to fill at most. -/
theorem touch_newest {xs : List α} (h : xs.Nodup) (n : Nat) (x : α) :
    touch n x (newest n xs) = touch n x xs := by
  rcases Nat.le_total xs.length n with hle | hge
  · rw [newest_of_le hle]
  · obtain ⟨older, hxs⟩ : ∃ older, older ++ newest n xs = xs :=
      ⟨_, List.take_append_drop (xs.length - n) xs⟩
    have hlength : (newest n xs).length = n := by
      rw [newest, List.length_drop]
      omega
    have hnodup : (newest n xs).Nodup := (newest_sublist n xs).nodup h
    have hfilled : n ≤ ((newest n xs).filter (· != x) ++ [x]).length := by
      rw [← hnodup.erase_eq_filter, List.length_append, List.length_singleton, List.length_erase]
      split
      · omega
      · omega
    calc newest n ((newest n xs).filter (· != x) ++ [x])
        = newest n (older.filter (· != x) ++ ((newest n xs).filter (· != x) ++ [x])) :=
          (newest_append_of_le hfilled _).symm
      _ = newest n (xs.filter (· != x) ++ [x]) := by
          rw [← List.append_assoc, ← List.filter_append, hxs]

/-- **Recency.** After any elements a recent list holds each of them once, in the order in
which they came last, cut to the newest. -/
theorem foldl_touch (n : Nat) (xs : List α) :
    xs.foldl (fun recent x => touch n x recent) [] = newest n xs.dedup := by
  induction xs using List.reverseRecOn with
  | nil => exact (newest_of_le (Nat.zero_le n)).symm
  | append_singleton xs x ih =>
      rw [List.foldl_append, List.foldl_cons, List.foldl_nil, ih,
        touch_newest (List.nodup_dedup xs), touch, dedup_concat]

end Recent

/-! ## Relay hints -/

theorem Node.foldl_rememberRelayHint (hints : List UInt8) : ∀ n : Node,
    hints.foldl Node.rememberRelayHint n =
      { n with
        relayHints :=
          (hints.foldl (fun recent hint => Recent.touch Node.relayHintBound hint recent)
            n.relayHints) } := by
  induction hints with
  | nil => exact fun _ => rfl
  | cons hint hints ih => exact fun n => ih (n.rememberRelayHint hint)

namespace NeighborSet

/-! ## Neighbor sets -/

/-- Without repetitions, a set and a recent list are the same. -/
theorem ids_insert_eq_touch {s : NeighborSet} (h : s.ids.Nodup) (id : NodeId) :
    (s.insert id).ids = Recent.touch bound id s.ids := by
  rw [ids_insert, Recent.touch, h.erase_eq_filter]

theorem ids_foldl_insert (ids : List NodeId) : ∀ {s : NeighborSet}, s.ids.Nodup →
    (ids.foldl insert s).ids =
      ids.foldl (fun recent id => Recent.touch bound id recent) s.ids := by
  induction ids with
  | nil => exact fun _ => rfl
  | cons id ids ih =>
      intro s h
      rw [List.foldl_cons, ih (nodup_insert h id), ids_insert_eq_touch h, List.foldl_cons]

/-- A change of a set. -/
inductive Change where
  | insert (id : NodeId)
  | remove (id : NodeId)
deriving DecidableEq, Repr

/-- The set after a change. -/
def perform (s : NeighborSet) : Change → NeighborSet
  | .insert id => s.insert id
  | .remove id => (s.remove id).2

/-- The set after several changes. -/
def after (s : NeighborSet) (changes : List Change) : NeighborSet := changes.foldl perform s

/-- No id is listed twice, and there are no more than fit. -/
structure Bounded (s : NeighborSet) : Prop where
  nodup : s.ids.Nodup
  length_le : s.ids.length ≤ bound

theorem bounded_empty : Bounded {} := ⟨List.nodup_nil, Nat.zero_le _⟩

/-- **The step.** Every change leaves a bounded set. -/
theorem Bounded.perform {s : NeighborSet} (h : s.Bounded) (c : Change) : (s.perform c).Bounded := by
  cases c with
  | insert id => exact ⟨nodup_insert h.nodup id, length_insert_le s id⟩
  | remove id =>
      exact ⟨h.nodup.erase id, Nat.le_trans List.erase_sublist.length_le h.length_le⟩

/-- **The run.** So do all changes together. -/
theorem Bounded.after (changes : List Change) : ∀ {s : NeighborSet}, s.Bounded →
    (s.after changes).Bounded := by
  induction changes with
  | nil => exact fun h => h
  | cons c changes ih => exact fun h => ih (h.perform c)

theorem Bounded.ids_remove {s : NeighborSet} (h : s.Bounded) (id : NodeId) :
    (s.remove id).2.ids = s.ids.filter (· != id) := h.nodup.erase_eq_filter id

/-- A new id takes the place of the oldest one if there is no other place; else all others
stay where they are. -/
theorem Bounded.ids_insert {s : NeighborSet} (h : s.Bounded) (id : NodeId) :
    (s.insert id).ids =
      if id ∉ s.ids ∧ s.ids.length = bound then s.ids.tail ++ [id]
      else s.ids.filter (· != id) ++ [id] := by
  have hlength := h.length_le
  rw [NeighborSet.ids_insert]
  split
  · next hfull =>
    have hover : (s.ids ++ [id]).length - bound = 1 := by
      rw [List.length_append, List.length_singleton, hfull.2]
      omega
    have hroom : 1 ≤ s.ids.length := by
      rw [hfull.2]
      decide
    rw [List.erase_of_not_mem hfull.1, Recent.newest, hover, List.drop_append_of_le_length hroom,
      List.drop_one]
  · next hroom =>
    rw [← h.nodup.erase_eq_filter, Recent.newest_of_le]
    rw [List.length_append, List.length_singleton, List.length_erase]
    split
    · next hmem =>
      have hpos := List.length_pos_of_mem hmem
      omega
    · next hnew =>
      have hless : s.ids.length ≠ bound := fun hfull => hroom ⟨hnew, hfull⟩
      omega

/-- **The last inserted.** After any insertions a set lists the ids in the order in which they
were last inserted, each once (`List.dedup` keeps the last of equal ones) and no more than the
last two hundred; relay hints likewise, the last eight. After any insertions and removals no id is listed twice and no more than two
hundred are. A removal tells whether the id was there and leaves all others in their places,
and so does an insertion, which puts its id at the end, unless the set is full and the id new:
then the oldest one goes, and no other. -/
theorem holds_last_inserted (ids : List NodeId) (hints : List UInt8) (n : Node)
    (changes : List Change) (id : NodeId) :
    (ids.foldl insert {}).ids = Recent.newest 200 ids.dedup ∧
    hints.foldl Node.rememberRelayHint { n with relayHints := [] } =
      { n with relayHints := Recent.newest 8 hints.dedup } ∧
    let s := ({} : NeighborSet).after changes
    s.ids.Nodup ∧ s.ids.length ≤ 200 ∧
    (s.remove id).1 = decide (id ∈ s.ids) ∧
    (s.remove id).2.ids = s.ids.filter (· != id) ∧
    (s.insert id).ids =
      if id ∉ s.ids ∧ s.ids.length = 200 then s.ids.tail ++ [id]
      else s.ids.filter (· != id) ++ [id] := by
  have hbounded := bounded_empty.after changes
  refine ⟨?_, ?_, hbounded.nodup, hbounded.length_le, ?_, hbounded.ids_remove id,
    hbounded.ids_insert id⟩
  · exact (ids_foldl_insert ids List.nodup_nil).trans (Recent.foldl_touch bound ids)
  · rw [Node.foldl_rememberRelayHint, Recent.foldl_touch, Node.relayHintBound]
  · rw [remove, List.contains_eq_mem]

end NeighborSet

end MeshWatch
