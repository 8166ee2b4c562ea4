import MeshWatch.Wire.Field

/-!
# Messages

A message type says which fields write a value, and what one more field does to a
value that is being read. Reading starts from the empty message and takes the
fields in order, so a later scalar replaces an earlier one, repeated fields add up,
and a field with an unknown number changes nothing; reading into a value that is
not empty merges.

- `merge_append_fields`: merging a field list in two parts is merging it as one.
-/

namespace MeshWatch.Wire

/-! ## Numbers -/

/-- A 32-bit float as it travels. Identity is that of the bits; `==` compares the
numbers, so that the two zeros are alike and NaN differs from itself. -/
structure Single where
  bits : UInt32
deriving DecidableEq, Repr, Inhabited

/-- The float of the bits. -/
def Single.toFloat (x : Single) : Float32 := Float32.ofBits x.bits

/-- Either zero. -/
def Single.isZero (x : Single) : Bool := x.bits == 0 || x.bits == 0x80000000

instance : BEq Single := ⟨fun a b => a.toFloat == b.toFloat⟩

/-- A signed number as the wire holds it: its sign fills all 64 bits. -/
def ofInt32 (n : Int32) : UInt64 := n.toInt64.toUInt64

/-- The low half of a wire number as a signed number. -/
def toInt32 (n : UInt64) : Int32 := n.toUInt32.toInt32

/-! ## Message types -/

/-- How a type is written as fields and read from them. `put` takes the levels of
groups that may be nested, the value so far and a field. -/
class Message (α : Type) where
  empty : α
  fields : α → List Field
  put : (room : Nat) → α → Field → Option α

namespace Message

variable {α : Type} [Message α]

/-- Takes fields in order. -/
def mergeFields (room : Nat) (m : α) : List Field → Option α
  | [] => some m
  | f :: fs => (put room m f).bind fun m => mergeFields room m fs

theorem merge_append_fields (room : Nat) (m : α) (fs gs : List Field) :
    mergeFields room m (fs ++ gs) = (mergeFields room m fs).bind (mergeFields room · gs) := by
  induction fs generalizing m with
  | nil => rfl
  | cons f fs ih =>
    simp only [List.cons_append, mergeFields, Option.bind_assoc]
    congr 1
    funext m
    exact ih m

/-- Takes the fields that a byte string holds. -/
def merge (room : Nat) (m : α) (bs : Bytes) : Option α :=
  (readFields? room bs).bind (mergeFields room m)

/-- How deep the groups of a message may be nested. -/
def groupRoom : Nat := 99

/-- The message that a byte string holds. -/
def decode? (bs : Bytes) : Option α := merge groupRoom empty bs

/-- The bytes of a message. -/
def encode (m : α) : Bytes := writeFields (fields m)

/-- The bytes of a message behind their number. -/
def encodeDelimited (m : α) : Bytes :=
  Varint.write (UInt64.ofNat (encode m).length) ++ encode m

end Message

/-! ## Reading field values -/

namespace FieldValue

def uint32? : FieldValue → Option UInt32
  | .varint n => some n.toUInt32
  | _ => none

def int32? : FieldValue → Option Int32
  | .varint n => some (toInt32 n)
  | _ => none

def bool? : FieldValue → Option Bool
  | .varint n => some (n != 0)
  | _ => none

def fixed? : FieldValue → Option UInt32
  | .fixed32 w => some w
  | _ => none

def sfixed? : FieldValue → Option Int32
  | .fixed32 w => some w.toInt32
  | _ => none

def single? : FieldValue → Option Single
  | .fixed32 w => some ⟨w⟩
  | _ => none

def bytes? : FieldValue → Option Bytes
  | .bytes bs => some bs
  | _ => none

def text? : FieldValue → Option String
  | .bytes bs => Bytes.toText? bs
  | _ => none

/-- A nested message, read into the one that stands there already. -/
def message? {α : Type} [Message α] (room : Nat) (m : α) : FieldValue → Option α
  | .bytes bs => Message.merge (room - 1) m bs
  | _ => none

/-- Every varint of a byte string. -/
def varintsIn? : (fuel : Nat) → Bytes → Option (List UInt64)
  | _, [] => some []
  | 0, _ :: _ => none
  | fuel + 1, bs =>
    match Varint.read? bs with
    | some (n, rest) => (varintsIn? fuel rest).map (n :: ·)
    | none => none

/-- Every word of a byte string. -/
def wordsIn? : Bytes → Option (List UInt32)
  | [] => some []
  | a :: b :: c :: d :: rest => (wordsIn? rest).map (Bytes.word32 a b c d :: ·)
  | _ => none

/-- One signed number, or several packed together. -/
def int32s? : FieldValue → Option (List Int32)
  | .varint n => some [toInt32 n]
  | .bytes bs => (varintsIn? bs.length bs).map (·.map toInt32)
  | _ => none

/-- One word, or several packed together. -/
def fixeds? : FieldValue → Option (List UInt32)
  | .fixed32 w => some [w]
  | .bytes bs => wordsIn? bs
  | _ => none

end FieldValue

/-! ## Writing field values

Scalars without presence are left out when they have their default value; those
with presence are written whenever they are set. -/

namespace Field

def uint32 (number : Nat) (n : UInt32) : List Field :=
  if n = 0 then [] else [⟨number, .varint n.toUInt64⟩]

def int32 (number : Nat) (n : Int32) : List Field :=
  if n = 0 then [] else [⟨number, .varint (ofInt32 n)⟩]

def bool (number : Nat) (b : Bool) : List Field := if b then [⟨number, .varint 1⟩] else []

def fixed (number : Nat) (w : UInt32) : List Field := if w = 0 then [] else [⟨number, .fixed32 w⟩]

def single (number : Nat) (x : Single) : List Field :=
  if x.isZero then [] else [⟨number, .fixed32 x.bits⟩]

def bytes (number : Nat) (bs : Bytes) : List Field :=
  if bs.isEmpty then [] else [⟨number, .bytes bs⟩]

def text (number : Nat) (s : String) : List Field := bytes number (Bytes.ofText s)

def uint32? (number : Nat) : Option UInt32 → List Field
  | some n => [⟨number, .varint n.toUInt64⟩]
  | none => []

def int32? (number : Nat) : Option Int32 → List Field
  | some n => [⟨number, .varint (ofInt32 n)⟩]
  | none => []

def sfixed? (number : Nat) : Option Int32 → List Field
  | some n => [⟨number, .fixed32 n.toUInt32⟩]
  | none => []

def single? (number : Nat) : Option Single → List Field
  | some x => [⟨number, .fixed32 x.bits⟩]
  | none => []

/-- A nested message. -/
def message {α : Type} [Message α] (number : Nat) (m : α) : Field :=
  ⟨number, .bytes (Message.encode m)⟩

/-- Signed numbers packed together. -/
def int32s (number : Nat) (ns : List Int32) : List Field :=
  bytes number (ns.flatMap fun n => Varint.write (ofInt32 n))

/-- Words packed together. -/
def fixeds (number : Nat) (ws : List UInt32) : List Field :=
  bytes number (ws.flatMap Bytes.ofWord32)

end Field

end MeshWatch.Wire
