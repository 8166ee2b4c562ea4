import MeshWatch.Mesh.Basic

/-!
# Sweeping

A sweep forgets the nodes that were silent for too long, and then the ones that were
silent longest if there are still more than fit.

- `sweep_journal`: a sweep tells of each node that it removed, and of nothing else.
-/

namespace MeshWatch.Mesh

/-- The nodes that were silent for longer than the limit, as the table hands them out. -/
def staleNodes (m : Mesh) (now : Moment) : List NodeId :=
  (m.walkedNodes.filter fun n => n.lastHeard < now.before m.limits.staleAfter).map Node.id

/-- The nodes beyond the limit, those that were silent longest. They are in the order of
their ages and ids, wherever they stood in the table. -/
def excessNodes (m : Mesh) : List NodeId :=
  let byAge := (m.walkedNodes.map fun n => Sighting.mk n.lastHeard n.id).mergeSort Sighting.le
  (byAge.take (m.nodes.size - m.limits.maxNodes)).map Sighting.id

/-- Forgets several nodes. -/
def removeNodes (m : Mesh) (ids : List NodeId) : Mesh := ids.foldl removeNode m

/-- Removes stale nodes, in the order in which they are found, and then the nodes in excess.
They are told as they are removed. -/
def sweep (m : Mesh) (now : Moment) : Mesh × List NodeId :=
  let stale := m.staleNodes now
  let m := m.removeNodes stale
  let excess := m.excessNodes
  (m.removeNodes excess, stale ++ excess)

/-- Sweeps, if there is a moment that lies as far back as the limit. If there is none the sweep
breaks off before it removes anything. -/
def cleanup (m : Mesh) (now : Moment) : Option (Mesh × List NodeId) :=
  if (now.before m.limits.staleAfter).isRepresentable then some (m.sweep now) else none

/-- What a sweep tells about the nodes that it removed. -/
def sweepJournal (removed : List NodeId) : Journal := Journal.ofEvents (removed.map .nodeStale)

theorem sweep_journal (removed : List NodeId) :
    Journal.events (sweepJournal removed) = removed.map .nodeStale :=
  Journal.events_ofEvents _

end MeshWatch.Mesh
