import MeshWatch.Mesh.Basic

/-!
# The node cap

A node that is heard for the first time may take the place of the one that has been
silent longest. Nodes named by the packet at hand are never removed for another.

- `removeOldest_none`: no node is removed if none may be.
- `contains_ensure`: afterwards the node that was heard is there.
-/

namespace MeshWatch.Mesh

/-- Whether a sighting is the last one of its node. -/
def isUpToDate (m : Mesh) (s : Sighting) : Bool :=
  match m.nodes[s.id]? with
  | some n => n.lastHeard == s.heard
  | none => false

/-- The last sighting of every node. A heap gives them out by age and id, in whatever order it
is filled. -/
def lastSightings (m : Mesh) : List Sighting := m.nodeList.map fun n => ⟨n.lastHeard, n.id⟩

/-- Forgets all sightings that are out of date. -/
def refreshSightings (m : Mesh) : Mesh := { m with sightings := .ofList m.lastSightings }

/-- Removes the node heard longest ago that need not be kept, if there is one. -/
def removeOldest (m : Mesh) (keep : List NodeId) : Mesh × Option NodeId :=
  let (oldest, rest) := m.sightings.oldest m.isUpToDate keep.contains m.sightings.size []
  let m := { m with sightings := rest }
  match oldest with
  | some id => (m.removeNode id, some id)
  | none => (m, none)

theorem removeOldest_none {m m' : Mesh} {keep : List NodeId}
    (h : m.removeOldest keep = (m', none)) : m'.nodes = m.nodes := by
  unfold removeOldest at h
  generalize m.sightings.oldest m.isUpToDate keep.contains m.sightings.size [] = r at h
  obtain ⟨o, rest⟩ := r
  cases o with
  | some id => simp at h
  | none => simp only [Prod.mk.injEq, and_true] at h; rw [← h]

/-- Removes nodes while there are as many as the cap allows. -/
def makeRoom (keep : List NodeId) : (fuel : Nat) → Mesh → Mesh × Journal
  | 0, m => (m, [])
  | fuel + 1, m =>
    if m.nodes.size < m.limits.nodeCap then (m, [])
    else
      match m.removeOldest keep with
      | (m', none) => (m', [])
      | (m', some id) =>
        let (m'', told) := makeRoom keep fuel m'
        (m'', .warning (.nodeCap id m.nodes.size) :: .event (.nodeStale id) :: told)

/-- Makes room for a node that is not known yet. -/
def announce (m : Mesh) (id : NodeId) (keep : List NodeId) : Mesh × Journal :=
  if m.nodes.contains id then (m, [])
  else
    let (m, told) := makeRoom keep m.nodes.size m
    (m, told ++ [.event (.nodeCreated id)])

/-- How many sightings may be on the heap before those out of date are dropped. -/
def sightingBound (m : Mesh) : Nat := m.nodes.size * 4 + 64

/-- Notes that a node was heard. Every caller marks the node as heard at that time. -/
def sight (m : Mesh) (id : NodeId) (now : Moment) : Mesh :=
  let m := if m.sightingBound < m.sightings.size then m.refreshSightings else m
  { m with
    sightings := m.sightings.insert ⟨now, id⟩
    nodes := m.nodes.insertIfNew id (Node.new id now) }

/-- Makes sure that a node is known. -/
def ensure (m : Mesh) (id : NodeId) (now : Moment) (keep : List NodeId) : Mesh × Journal :=
  let (m, told) := m.announce id keep
  (m.sight id now, told)

theorem contains_sight (m : Mesh) (id : NodeId) (now : Moment) :
    (m.sight id now).nodes.contains id = true := by simp [sight]

theorem contains_ensure (m : Mesh) (id : NodeId) (now : Moment) (keep : List NodeId) :
    (m.ensure id now keep).1.nodes.contains id = true := contains_sight ..

end MeshWatch.Mesh
