import MeshWatch.Mesh.Basic

/-!
# The route table

At most one route is kept for a destination, the best by its mean signal-to-noise
ratio, and its id is remembered on the destination's node. When the table is full,
routes that were discovered longest ago give way.

- `updateRoute_refused`: a route that is not better changes nothing.
- `updateRoute_stored`: a route that is taken is the one stored.
-/

namespace MeshWatch.Mesh

/-- Whether a route is better than the one stored, or the first one. -/
def isBetterRoute (m : Mesh) (r : Route) : Bool :=
  match m.routes[r.destination]? with
  | some old => old.avgSnr < r.avgSnr
  | none => true

/-- Drops the route to a destination. -/
def removeRoute (m : Mesh) (destination : NodeId) : Mesh :=
  match m.routes[destination]? with
  | some r =>
    { m.modifyNode destination (·.forgetRoute r.routeId) with
      routes := m.routes.erase destination }
  | none => m

/-- The route discovered longest ago; of several the one that the table hands out first. -/
def oldestRoute? (m : Mesh) : Option Route := m.walkedRoutes.minOn? fun r => r.discovered.nanos

/-- Drops routes while there are as many as the table may hold. -/
def makeRouteRoom : (fuel : Nat) → Mesh → Mesh
  | 0, m => m
  | fuel + 1, m =>
    if m.routes.size < m.limits.routeCap then m
    else
      match m.oldestRoute? with
      | some r => makeRouteRoom fuel (m.removeRoute r.destination)
      | none => m

/-- Stores a route in place of the one to the same destination. -/
def storeRoute (m : Mesh) (r : Route) : Mesh :=
  let m' := match m.routes[r.destination]? with
    | some old => m.modifyNode r.destination (·.forgetRoute old.routeId)
    | none => makeRouteRoom m.routes.size m
  { m'.modifyNode r.destination (·.rememberRoute r.routeId) with
    routes := m'.routes.insert r.destination { r with preferred := true } }

/-- Takes a route if it is better than the one stored. -/
def updateRoute (m : Mesh) (r : Route) : Mesh × Bool :=
  if m.isBetterRoute r then (m.storeRoute r, true) else (m, false)

theorem updateRoute_refused {m : Mesh} {r : Route} (h : m.isBetterRoute r = false) :
    m.updateRoute r = (m, false) := by simp [updateRoute, h]

theorem updateRoute_stored {m : Mesh} {r : Route} (h : m.isBetterRoute r = true) :
    (m.updateRoute r).1.routes[r.destination]? = some { r with preferred := true } := by
  simp [updateRoute, h, storeRoute]

end MeshWatch.Mesh
