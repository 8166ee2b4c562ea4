import MeshWatch.Time.Moment

/-!
# Floods of malformed messages

Rejected messages are counted over a sliding window, so that a flood is reported
once each time that the count passes a threshold, and not once per message. The
times are readings of a clock that never goes back; should it, nothing counts as
having elapsed.

- `pending_record_le`: no more than the threshold stays pending.
-/

namespace MeshWatch

/-- A reading of the monotonic clock, in nanoseconds. -/
abbrev Tick := Int

/-- The rejections that count at the moment. -/
structure RejectionWindow where
  window : Span
  threshold : Nat
  /-- When they happened, oldest first. -/
  ticks : List Tick := []
deriving DecidableEq, Repr

namespace RejectionWindow

/-- The window and threshold that are used when none are given. -/
def standard : RejectionWindow := { window := .ofSecs 60, threshold := 10 }

/-- Counts one more rejection. When that makes more than the threshold, their
number is the report, and the count starts over. -/
def record (w : RejectionWindow) (now : Tick) : Option Nat × RejectionWindow :=
  let kept := w.ticks.dropWhile fun t => w.window.nanos < (now - t).toNat
  let ticks := kept ++ [now]
  if w.threshold < ticks.length then (some ticks.length, { w with ticks := [] })
  else (none, { w with ticks := ticks })

/-- How many rejections are inside the window. -/
def pending (w : RejectionWindow) : Nat := w.ticks.length

theorem pending_record_le (w : RejectionWindow) (now : Tick) :
    (w.record now).2.pending ≤ w.threshold := by
  simp only [record]
  split
  · simp [pending]
  · next h => simpa [pending] using Nat.not_lt.1 h

end RejectionWindow

end MeshWatch
