import MeshWatch.Config.Basic
import MeshWatch.Rejections

/-!
# Delays between attempts

After a lost connection the next attempt waits, twice as long each time up to a cap. A
connection that lasted long enough starts the delays over.
-/

namespace MeshWatch

/-- The delay before the next attempt. -/
structure Backoff where
  /-- The first delay, at least a millisecond. -/
  floor : Span
  /-- The longest delay, at least the first. -/
  cap : Span
  /-- A connection that lasted this long starts the delays over. -/
  resetAfter : Span
  current : Span
  connectedAt : Option Tick := none
deriving DecidableEq, Repr

namespace Backoff

/-- The longer of two spans. -/
def longer (a b : Span) : Span := ⟨max a.nanos b.nanos⟩

/-- The shorter of two spans. -/
def shorter (a b : Span) : Span := ⟨min a.nanos b.nanos⟩

/-- The delays of a new run. -/
def new (floor cap resetAfter : Span) : Backoff :=
  let floor := longer floor (.ofMillis 1)
  { floor := floor, cap := longer cap floor, resetAfter := resetAfter, current := floor }

/-- The delays that are configured. -/
def ofConfig (c : BrokerConfig) : Backoff :=
  new c.reconnectDelay c.maxReconnectDelay c.stableConnection

/-- Twice the current delay. -/
def doubled (b : Backoff) : Span := ⟨b.current.nanos * 2⟩

/-- The delay before the next attempt; the one after it is twice as long. -/
def nextDelay (b : Backoff) : Span × Backoff :=
  (b.current, { b with current := shorter b.doubled b.cap })

/-- A connection was made. -/
def onConnected (b : Backoff) (at' : Tick) : Backoff := { b with connectedAt := some at' }

/-- The delays start over. -/
def reset (b : Backoff) : Backoff := { b with current := b.floor, connectedAt := none }

/-- A connection was lost. -/
def onDisconnected (b : Backoff) (at' : Tick) : Backoff :=
  match b.connectedAt with
  | some since =>
    if b.resetAfter.nanos ≤ (at' - since).toNat then b.reset
    else { b with connectedAt := none }
  | none => b

end Backoff

end MeshWatch
