import MeshWatch.Time.Calendar
import MeshWatch.Text.Numeral

/-!
# Moments and spans

A moment is a count of nanoseconds since 1970-01-01T00:00:00Z, and a span a
non-negative count of nanoseconds. Moments are written in RFC 3339 form in UTC,
with the fewest of none, three, six or nine fraction digits that is exact.

Configured spans may be longer than a signed 64-bit count of milliseconds; for
arithmetic on moments such a span counts as a century (`Span.reach`).

- `Span.reach_le`: no span reaches further than the longest representable one.
-/

namespace MeshWatch

/-- A point in time, in nanoseconds since the epoch. -/
structure Moment where
  nanos : Int
deriving DecidableEq, Repr, Inhabited

/-- A length of time in nanoseconds. -/
structure Span where
  nanos : Nat
deriving DecidableEq, Repr, Inhabited

namespace Span

def ofMillis (n : Nat) : Span := ⟨n * 1000000⟩
def ofSecs (n : Nat) : Span := ⟨n * 1000000000⟩
def millis (s : Span) : Nat := s.nanos / 1000000
def secs (s : Span) : Nat := s.nanos / 1000000000

/-- The longest span that moments can be moved by: 2^63 − 1 milliseconds. -/
def longest : Nat := 0x7fffffffffffffff * 1000000

/-- The stand-in for longer spans: 36500 days. -/
def century : Nat := 36500 * 86400 * 1000000000

/-- How far a span moves a moment. -/
def reach (s : Span) : Int := if s.nanos ≤ longest then s.nanos else century

theorem reach_of_le {s : Span} (h : s.nanos ≤ longest) : s.reach = s.nanos := if_pos h

theorem reach_of_gt {s : Span} (h : longest < s.nanos) : s.reach = century :=
  if_neg (Nat.not_le.2 h)

theorem reach_nonneg (s : Span) : 0 ≤ s.reach := by
  unfold reach; split <;> omega

theorem reach_le (s : Span) : s.reach ≤ longest := by
  unfold reach longest century; split <;> omega

end Span

namespace Moment

instance : LT Moment := ⟨fun a b => a.nanos < b.nanos⟩
instance : LE Moment := ⟨fun a b => a.nanos ≤ b.nanos⟩
instance (a b : Moment) : Decidable (a < b) := inferInstanceAs (Decidable (a.nanos < b.nanos))
instance (a b : Moment) : Decidable (a ≤ b) := inferInstanceAs (Decidable (a.nanos ≤ b.nanos))

@[simp] theorem lt_def {a b : Moment} : a < b ↔ a.nanos < b.nanos := Iff.rfl
@[simp] theorem le_def {a b : Moment} : a ≤ b ↔ a.nanos ≤ b.nanos := Iff.rfl

def ofMillis (ms : Int) : Moment := ⟨ms * 1000000⟩
def ofSecs (s : Int) : Moment := ⟨s * 1000000000⟩

/-- The moment some milliseconds later, or earlier when negative. -/
def addMillis (m : Moment) (ms : Int) : Moment := ⟨m.nanos + ms * 1000000⟩

/-- The moment a span before. -/
def before (m : Moment) (s : Span) : Moment := ⟨m.nanos - s.reach⟩

/-- Nanoseconds from an earlier moment to this one; negative when it is later. -/
def since (m earlier : Moment) : Int := m.nanos - earlier.nanos

/-- At most `s` has passed since `earlier`. -/
def within (m earlier : Moment) (s : Span) : Bool := m.since earlier ≤ s.reach

/-- The first moment of the earliest year that a date may lie in. -/
def first : Moment := ⟨(⟨-262143, 1, 1⟩ : Time.Date).dayNumber * 86400000000000⟩

/-- The last moment of the latest one. -/
def last : Moment := ⟨((⟨262142, 12, 31⟩ : Time.Date).dayNumber + 1) * 86400000000000 - 1⟩

/-- There is a date for it. -/
def isRepresentable (m : Moment) : Bool := first ≤ m && m ≤ last

/-! ## Writing -/

/-- A year of four digits, with a sign when it needs more or is negative. -/
def yearText (y : Int) : String :=
  if 0 ≤ y ∧ y ≤ 9999 then Text.padded 4 y.natAbs
  else (if y < 0 then "-" else "+") ++ Text.padded 4 y.natAbs

/-- The fraction of a second: nothing, or a point and three, six or nine digits. -/
def fractionText (nanos : Nat) : String :=
  if nanos = 0 then ""
  else if nanos % 1000000 = 0 then "." ++ Text.padded 3 (nanos / 1000000)
  else if nanos % 1000 = 0 then "." ++ Text.padded 6 (nanos / 1000)
  else "." ++ Text.padded 9 nanos

/-- RFC 3339 text in UTC. -/
def text (m : Moment) : String :=
  let day := m.nanos.fdiv 86400000000000
  let rest := (m.nanos - day * 86400000000000).toNat
  let date := Time.Date.ofDayNumber day
  let second := rest / 1000000000
  yearText date.year ++ "-" ++ Text.padded 2 date.month ++ "-" ++ Text.padded 2 date.day
    ++ "T" ++ Text.padded 2 (second / 3600) ++ ":" ++ Text.padded 2 (second / 60 % 60)
    ++ ":" ++ Text.padded 2 (second % 60) ++ fractionText (rest % 1000000000) ++ "Z"

end Moment

end MeshWatch
