import MeshWatch.Text.Classes
import MeshWatch.Text.Numeral
import MeshWatch.Text.Quoted
import MeshWatch.Json.Basic

/-!
# Node ids

Every node of the mesh has a 32-bit address, written as an exclamation mark and
eight lower-case hexadecimal digits. Zero stands for an unknown node, the largest
address for all of them, and an address of one byte for a relay of which only the
last byte was transmitted; none of the three names a node that can be tracked.

- `length_chars`: the written form always has nine characters.
- `ext_value`: ids with equal numbers are equal.
-/

namespace MeshWatch

/-- The address of a node. -/
structure NodeId where
  value : UInt32
deriving DecidableEq, Repr, Inhabited, Hashable

namespace NodeId

theorem ext_value {a b : NodeId} (h : a.value = b.value) : a = b := by
  cases a; cases b; cases h; rfl

instance : Ord NodeId := ⟨fun a b => compare a.value b.value⟩

theorem compare_def (a b : NodeId) : compare a b = compare a.value b.value := rfl

instance : Std.TransOrd NodeId where
  eq_swap {a b} := @Std.OrientedCmp.eq_swap UInt32 compare _ a.value b.value
  isLE_trans {a b c} := @Std.TransCmp.isLE_trans UInt32 compare _ a.value b.value c.value

instance : Std.LawfulEqOrd NodeId where
  compare_self {a} := @Std.ReflCmp.compare_self UInt32 compare _ a.value
  eq_of_compare h :=
    ext_value (@Std.LawfulEqCmp.eq_of_compare UInt32 compare _ _ _ h)

/-- The address of every node at once. -/
def broadcast : NodeId := ⟨0xFFFFFFFF⟩

/-- The address of no node. -/
def unknown : NodeId := ⟨0⟩

/-- The written form of the broadcast address in JSON envelopes. -/
def broadcastText : String := "^all"

def isBroadcast (id : NodeId) : Bool := id == broadcast
def isUnknown (id : NodeId) : Bool := id == unknown

/-- Only the last byte of an address; a truncated relay id. -/
def isPartial (id : NodeId) : Bool := id.value != 0 && id.value ≤ 0xFF

/-- A full address of one node. -/
def isAddressable (id : NodeId) : Bool := !id.isUnknown && !id.isBroadcast && !id.isPartial

/-! ## Text -/

/-- The written form as characters. -/
def chars (id : NodeId) : List Char := '!' :: Hex.fixed 8 id.value.toNat

/-- The written form. -/
def text (id : NodeId) : String := String.ofList id.chars

theorem length_chars (id : NodeId) : id.chars.length = 9 := by simp [chars]

/-- The name a node has before it tells one: the last four digits of its id. -/
def defaultShortName (id : NodeId) : String := String.ofList (Hex.fixed 4 id.value.toNat)

/-- Characters of an id: with a mark or prefix the rest is hexadecimal; eight
bytes with a letter among them are hexadecimal too; anything else is decimal. -/
def ofChars? (cs : List Char) : Option UInt32 :=
  match cs with
  | '!' :: hex => Text.readWord? 16 hex
  | '0' :: 'x' :: hex => Text.readWord? 16 hex
  | '0' :: 'X' :: hex => Text.readWord? 16 hex
  | _ =>
    if (String.ofList cs).utf8ByteSize = 8 ∧ cs.any Char.isAlpha then Text.readWord? 16 cs
    else Text.readWord? 10 cs

/-- The id that a text names, blanks around it ignored. -/
def ofText? (s : String) : Option NodeId :=
  let cs := Text.trimmed s.toList
  if String.ofList cs = broadcastText then some broadcast else (ofChars? cs).map NodeId.mk

/-- The wording for a text that names no node. -/
def invalidMessage (s : String) : String := "invalid node id: " ++ Text.quoted s

/-! ## JSON -/

/-- Stored records hold ids as text. -/
def toJson (id : NodeId) : Json := .string id.text

/-- Reads the text of an id. -/
def ofJson? (j : Json) : Option NodeId := j.asString?.bind ofText?

end NodeId

end MeshWatch
