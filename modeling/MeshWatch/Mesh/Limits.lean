import MeshWatch.Time.Moment

/-!
# Limits of the model

How much of a mesh is kept, and after how long a silent node counts as offline
and is forgotten.
-/

namespace MeshWatch

/-- The bounds of the model. -/
structure Limits where
  maxNodes : Nat := 10000
  maxRoutes : Nat := 5000
  /-- How many messages are kept. -/
  messageHistory : Nat := 500
  /-- A node that was silent for longer is removed by a sweep. -/
  staleAfter : Span := .ofSecs 259200
  /-- A node that was silent for longer is offline. -/
  onlineTimeout : Span := .ofSecs 900
  /-- How long a packet is remembered as seen. -/
  dedupWindow : Span := .ofSecs 300
  /-- Below this level a battery is low. -/
  batteryLow : UInt32 := 20
deriving DecidableEq, Repr, Inhabited

namespace Limits

/-- The limits that are used when none are configured. -/
def standard : Limits := {}

/-- How many nodes fit; the node that was heard last always does. -/
def nodeCap (l : Limits) : Nat := max l.maxNodes 1

/-- How many routes fit; the route that was found last always does. -/
def routeCap (l : Limits) : Nat := max l.maxRoutes 1

end Limits

end MeshWatch
