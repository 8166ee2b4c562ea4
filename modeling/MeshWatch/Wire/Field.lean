import MeshWatch.Wire.Varint

/-!
# Fields of wire messages

A message on the wire is a sequence of numbered fields, each with a value of one
of four shapes. This file turns bytes into fields and back; what a field means is
up to the message types.

Groups, a fifth shape, are not used by any message, but a reader steps over those
it meets, to a fixed depth of nesting. Every other irregularity refuses the
message: a field number of zero, a key of more than 32 bits, an unknown shape, an
end of input inside a field.
-/

namespace MeshWatch.Wire

/-- The value of a field. -/
inductive FieldValue where
  | varint (n : UInt64)
  | fixed64 (bs : Bytes)
  | bytes (bs : Bytes)
  | group
  | fixed32 (w : UInt32)
deriving DecidableEq, Repr

/-- A numbered value. -/
structure Field where
  number : Nat
  value : FieldValue
deriving DecidableEq, Repr

/-! ## Reading -/

/-- Splits a byte string after `n` bytes, when it has that many. -/
def takeBytes? (n : Nat) (bs : Bytes) : Option (Bytes × Bytes) :=
  if n ≤ bs.length then some (bs.take n, bs.drop n) else none

/-- The word of four bytes. -/
def wordOf : Bytes → UInt32
  | [a, b, c, d] => Bytes.word32 a b c d
  | _ => 0

/-- A field number and shape. -/
def readKey? (bs : Bytes) : Option (Nat × Nat × Bytes) :=
  match Varint.read? bs with
  | some (key, rest) =>
    if key.toNat < UInt32.size ∧ 8 ≤ key.toNat then some (key.toNat / 8, key.toNat % 8, rest) else none
  | none => none

mutual

/-- A value of a shape, at the front of a byte string; `room` says how many more
levels of groups may be entered. -/
def readValue? (fuel room number shape : Nat) (bs : Bytes) : Option (FieldValue × Bytes) :=
  match shape with
  | 0 => (Varint.read? bs).map fun (n, rest) => (.varint n, rest)
  | 1 => (takeBytes? 8 bs).map fun (v, rest) => (.fixed64 v, rest)
  | 2 =>
    match Varint.read? bs with
    | some (n, rest) => (takeBytes? n.toNat rest).map fun (v, rest) => (.bytes v, rest)
    | none => none
  | 3 =>
    match fuel with
    | 0 => none
    | fuel + 1 => (skipGroup? fuel room number bs).map fun rest => (.group, rest)
  | 5 => (takeBytes? 4 bs).map fun (v, rest) => (.fixed32 (wordOf v), rest)
  | _ => none

/-- What follows the group of a number whose contents start here. -/
def skipGroup? (fuel room number : Nat) (bs : Bytes) : Option Bytes :=
  match fuel with
  | 0 => none
  | fuel + 1 =>
    match readKey? bs with
    | none => none
    | some (inner, shape, rest) =>
      if shape = 4 then (if inner = number then some rest else none)
      else
        match room with
        | 0 => none
        | room + 1 =>
          match readValue? fuel room inner shape rest with
          | some (_, rest) => skipGroup? fuel (room + 1) number rest
          | none => none

end

/-- The fields of a byte string; each takes at least one byte, so the length of
the input bounds their number. -/
def readFieldsIn? (fuel room : Nat) (bs : Bytes) : Option (List Field) :=
  match bs with
  | [] => some []
  | _ :: _ =>
    match fuel with
    | 0 => none
    | fuel + 1 =>
      match readKey? bs with
      | none => none
      | some (number, shape, rest) =>
        match readValue? (2 * rest.length + 1) room number shape rest with
        | none => none
        | some (v, rest) =>
          match readFieldsIn? fuel room rest with
          | some fs => some (⟨number, v⟩ :: fs)
          | none => none

/-- The fields of a message at a level of nesting that leaves `room` for groups. -/
def readFields? (room : Nat) (bs : Bytes) : Option (List Field) :=
  readFieldsIn? bs.length room bs

/-! ## Writing -/

/-- The shape of a value. -/
def FieldValue.shape : FieldValue → Nat
  | .varint _ => 0
  | .fixed64 _ => 1
  | .bytes _ => 2
  | .group => 3
  | .fixed32 _ => 5

/-- The bytes of a value after its key. -/
def FieldValue.write : FieldValue → Bytes
  | .varint n => Varint.write n
  | .fixed64 bs => bs
  | .bytes bs => Varint.write (UInt64.ofNat bs.length) ++ bs
  | .group => []
  | .fixed32 w => Bytes.ofWord32 w

/-- The bytes of a field. -/
def Field.write (f : Field) : Bytes :=
  Varint.write (UInt64.ofNat (f.number * 8 + f.value.shape)) ++ f.value.write

/-- The bytes of several fields. -/
def writeFields (fs : List Field) : Bytes := fs.flatMap Field.write

end MeshWatch.Wire
