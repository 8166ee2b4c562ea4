import MeshWatch.Event

/-!
# Subscribers

Whoever subscribed receives every later event. Events are delivered in the order in
which they happened, each to all subscribers in the order in which they subscribed.

- `length_deliveries`: every subscriber receives every event.
- `deliveries_append`: what happens later is delivered later.
-/

namespace MeshWatch

/-- The subscribers, first come first served. -/
structure Subscribers (α : Type) where
  handlers : List α := []
deriving Repr

namespace Subscribers

variable {α : Type}

/-- One subscriber more. -/
def subscribe (s : Subscribers α) (handler : α) : Subscribers α := ⟨s.handlers ++ [handler]⟩

def length (s : Subscribers α) : Nat := s.handlers.length

def isEmpty (s : Subscribers α) : Bool := s.handlers.isEmpty

/-- Who receives which event, in order. -/
def deliveries (s : Subscribers α) (events : List Event) : List (α × Event) :=
  events.flatMap fun e => s.handlers.map fun h => (h, e)

theorem deliveries_append (s : Subscribers α) (es fs : List Event) :
    s.deliveries (es ++ fs) = s.deliveries es ++ s.deliveries fs := by
  simp [deliveries]

theorem length_deliveries (s : Subscribers α) (es : List Event) :
    (s.deliveries es).length = es.length * s.length := by
  induction es with
  | nil => simp [deliveries]
  | cons e es ih =>
    simp only [deliveries, length, List.flatMap_cons, List.length_append, List.length_map,
      List.length_cons] at ih ⊢
    rw [ih, Nat.succ_mul]
    omega

/-- The printed form, which tells how many there are. -/
def summary (s : Subscribers α) : String :=
  "EventHooks \x7b handlers: " ++ toString s.length ++ " \x7d"

end Subscribers

end MeshWatch
