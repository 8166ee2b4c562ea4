import MeshWatch.Json.Record
import MeshWatch.NodeId
import MeshWatch.Recency

/-!
# Neighbor sets

The nodes that a node hears, or that hear it: at most two hundred, in the order in
which they were last reported.

- `length_insert_le`: no insertion leaves more than the bound.
- `mem_insert`: an inserted id is there, unless nothing may be.
- `nodup_insert`: no id is listed twice.
-/

namespace MeshWatch

/-- Node ids, the one reported longest ago first. -/
structure NeighborSet where
  ids : List NodeId := []
deriving DecidableEq, Repr, Inhabited

namespace NeighborSet

/-- How many ids are kept. -/
def bound : Nat := 200

/-- Adds an id, or moves it to the end. -/
def insert (s : NeighborSet) (id : NodeId) : NeighborSet :=
  ⟨Recent.newest bound (s.ids.erase id ++ [id])⟩

/-- Whether the id was there, and the set without it. -/
def remove (s : NeighborSet) (id : NodeId) : Bool × NeighborSet :=
  (s.ids.contains id, ⟨s.ids.erase id⟩)

def contains (s : NeighborSet) (id : NodeId) : Bool := s.ids.contains id

def length (s : NeighborSet) : Nat := s.ids.length

def isEmpty (s : NeighborSet) : Bool := s.ids.isEmpty

theorem ids_insert (s : NeighborSet) (id : NodeId) :
    (s.insert id).ids = Recent.newest bound (s.ids.erase id ++ [id]) := by
  simp only [insert]

theorem length_insert_le (s : NeighborSet) (id : NodeId) : (s.insert id).ids.length ≤ bound := by
  simp only [ids_insert, Recent.length_newest_le]

theorem mem_insert (s : NeighborSet) (id : NodeId) : id ∈ (s.insert id).ids := by
  have h : 0 < bound := by decide
  simp only [ids_insert, Recent.mem_newest h]

theorem nodup_insert {s : NeighborSet} (h : s.ids.Nodup) (id : NodeId) :
    (s.insert id).ids.Nodup := by
  rw [ids_insert]
  exact Recent.nodup_newest_snoc (h.erase id) h.not_mem_erase bound

theorem mem_of_mem_insert {s : NeighborSet} {id i : NodeId} (h : i ∈ (s.insert id).ids) :
    i = id ∨ i ∈ s.ids := by
  rw [ids_insert] at h
  exact (Recent.mem_of_mem_newest_snoc h).imp_right List.mem_of_mem_erase

def toJson (s : NeighborSet) : Json := .object [("ids", Json.list NodeId.toJson s.ids)]

def ofJson? (j : Json) : Option NeighborSet := do
  let ms ← j.recordMembers? ["ids"] 1
  return ⟨← Json.required ms "ids" (Json.readList NodeId.ofJson?)⟩

end NeighborSet

end MeshWatch
