import MeshWatch.Bytes

/-!
# Where a byte string stops being UTF-8

A text body that is not well-formed UTF-8 is refused with the place and the
length of the first ill-formed part. The part is the longest prefix of a
character that could still have become well-formed (Unicode, table 3-7), one to
three bytes, or the unfinished character that the input ends in.
-/

namespace MeshWatch.Text

/-- The first thing wrong with a byte string, and the bytes before it. -/
inductive Utf8Fault where
  /-- `length` bytes at `index` belong to no character. -/
  | invalid (length index : Nat)
  /-- The input ends inside the character that starts at `index`. -/
  | incomplete (index : Nat)
deriving DecidableEq, Repr

/-- The wording of a fault. -/
def Utf8Fault.message : Utf8Fault → String
  | .invalid n i => "invalid utf-8 sequence of " ++ toString n ++ " bytes from index " ++ toString i
  | .incomplete i => "incomplete utf-8 byte sequence from index " ++ toString i

/-- For a lead byte: the length of its character and the range of the second byte. -/
def leadByte? (b : UInt8) : Option (Nat × UInt8 × UInt8) :=
  if b < 0x80 then some (1, 0, 0)
  else if 0xC2 ≤ b && b ≤ 0xDF then some (2, 0x80, 0xBF)
  else if b == 0xE0 then some (3, 0xA0, 0xBF)
  else if b == 0xED then some (3, 0x80, 0x9F)
  else if 0xE1 ≤ b && b ≤ 0xEF then some (3, 0x80, 0xBF)
  else if b == 0xF0 then some (4, 0x90, 0xBF)
  else if 0xF1 ≤ b && b ≤ 0xF3 then some (4, 0x80, 0xBF)
  else if b == 0xF4 then some (4, 0x80, 0x8F)
  else none

/-- The first fault at or after `index`; `owed` counts the continuation bytes still
owed by the character under way, whose `done` bytes so far start at `index`, and
the next of them has to lie in the given range. -/
def scanUtf8 (index done owed : Nat) (low high : UInt8) : Bytes → Option Utf8Fault
  | [] => if owed = 0 then none else some (.incomplete index)
  | b :: rest =>
    if owed = 0 then
      match leadByte? b with
      | none => some (.invalid 1 index)
      | some (1, _, _) => scanUtf8 (index + 1) 0 0 0 0 rest
      | some (n, lo, hi) => scanUtf8 index 1 (n - 1) lo hi rest
    else if low ≤ b && b ≤ high then
      if owed = 1 then scanUtf8 (index + done + 1) 0 0 0 0 rest
      else scanUtf8 index (done + 1) (owed - 1) 0x80 0xBF rest
    else some (.invalid done index)

/-- The first fault of a byte string, `none` when it is well-formed. -/
def utf8Fault? (bs : Bytes) : Option Utf8Fault := scanUtf8 0 0 0 0 0 bs

end MeshWatch.Text
