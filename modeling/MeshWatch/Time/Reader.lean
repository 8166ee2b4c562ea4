import MeshWatch.Time.Moment
import MeshWatch.Text.Classes

/-!
# Reading moments

Times in stored records follow RFC 3339 with some freedom: numbers may have fewer
digits than their width, blanks may stand around them, the date and the time may
be divided by a blank instead of `T`, and the offset may be `Z`, `UTC`, or hours
and minutes with or without a colon. Digits beyond nanoseconds are dropped.
-/

namespace MeshWatch.Time

/-- A reader takes what it understands off the front of a text. -/
abbrev Reader (α : Type) := List Char → Option (α × List Char)

/-- One to `width` decimal digits. -/
def digits (width : Nat) : Reader Nat := fun cs =>
  let ds := (cs.take width).takeWhile Char.isDigit
  if ds.isEmpty then none
  else (Text.digitsFrom? 10 0 ds).map fun n => (n, cs.drop ds.length)

/-- A number after optional blanks. -/
def number (width : Nat) : Reader Nat := fun cs => digits width (cs.dropWhile Text.isBlank)

/-- A year: four digits at most, or a sign and any number of digits. -/
def year : Reader Int := fun cs =>
  match cs.dropWhile Text.isBlank with
  | '-' :: rest => (digits rest.length rest).map fun (n, r) => (-(n : Int), r)
  | '+' :: rest => (digits rest.length rest).map fun (n, r) => ((n : Int), r)
  | rest => (digits 4 rest).map fun (n, r) => ((n : Int), r)

/-- A divider after optional blanks. -/
def divider (c : Char) (cs : List Char) : Option (List Char) :=
  match cs.dropWhile Text.isBlank with
  | d :: rest => if d = c then some rest else none
  | [] => none

/-- The fraction of a second in nanoseconds, when there is one. -/
def fraction : Reader Nat
  | '.' :: rest =>
    (digits 9 rest).map fun (n, r) =>
      (n * Nat.pow 10 (9 - (rest.length - r.length)), r.dropWhile Char.isDigit)
  | cs => some (0, cs)

/-- Exactly two digits. -/
def twoDigits : Reader Nat
  | a :: b :: rest =>
    if a.isDigit && b.isDigit then some ((a.toNat - 48) * 10 + (b.toNat - 48), rest) else none
  | _ => none

/-- Seconds east of UTC, of a signed offset of hours and minutes. -/
def signedOffset (negative : Bool) (cs : List Char) : Option (Int × List Char) := do
  let (hours, cs) ← twoDigits cs
  let cs := cs.dropWhile fun c => c == ':' || Text.isBlank c
  let (minutes, cs) ← twoDigits cs
  if 60 ≤ minutes then none
  let seconds : Int := hours * 3600 + minutes * 60
  if 86400 ≤ seconds then none
  return (if negative then -seconds else seconds, cs)

/-- Seconds east of UTC. -/
def offset : Reader Int
  | 'Z' :: rest => some (0, rest)
  | 'z' :: rest => some (0, rest)
  | '+' :: rest => signedOffset false rest
  | '-' :: rest => signedOffset true rest
  | '\u2212' :: rest => signedOffset true rest
  | a :: b :: c :: rest =>
    if [a, b, c].map Char.toLower = ['u', 't', 'c'] then some (0, rest) else none
  | _ => none

/-- The years that a date may lie in. -/
def representableYear (y : Int) : Bool := -262143 ≤ y && y ≤ 262142

/-- The moment that a text names. -/
def read? (s : String) : Option Moment := do
  let (y, cs) ← year s.toList
  let cs ← divider '-' cs
  let (month, cs) ← number 2 cs
  let cs ← divider '-' cs
  let (day, cs) ← number 2 cs
  let cs ← match cs with
    | c :: rest => if c = 't' ∨ c = 'T' ∨ c = ' ' then some rest else none
    | [] => none
  let (hour, cs) ← number 2 cs
  let cs ← divider ':' cs
  let (minute, cs) ← number 2 cs
  let cs ← divider ':' cs
  let (second, cs) ← number 2 cs
  let (nanos, cs) ← fraction cs
  let (east, cs) ← offset (cs.dropWhile Text.isBlank)
  let date : Date := ⟨y, month, day⟩
  if !(cs.all Text.isBlank) || !date.valid || !representableYear y then none
  if 24 ≤ hour || 60 ≤ minute || 61 ≤ second then none
  let seconds : Int := date.dayNumber * 86400 + hour * 3600 + minute * 60 + second - east
  return ⟨seconds * 1000000000 + nanos⟩

end MeshWatch.Time
