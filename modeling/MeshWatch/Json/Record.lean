import MeshWatch.Json.Basic
import MeshWatch.Time.Reader

/-!
# Records in JSON

A stored record is an object whose members are its fields. A field is required,
or optional (missing and null both mean absent), or has a value that stands in
when it is missing; a member that is present but does not fit its field spoils
the record, and members that no field asks for are ignored. A record may also be
written as the array of its fields in order.

- `required_insertMember`: a field that was just stored is read back.
-/

namespace MeshWatch.Json

/-- The fields of a record that is written as an object, or as an array of at
least `least` of its fields in order. -/
def recordMembers? (names : List String) (least : Nat) : Json → Option Members
  | .object ms => some ms
  | .array xs =>
    if least ≤ xs.length ∧ xs.length ≤ names.length then some (names.zip xs) else none
  | _ => none

/-- A field that has to be there. -/
def required {α : Type} (ms : Members) (key : String) (read : Json → Option α) : Option α :=
  (ms.get? key).bind read

/-- A field that may be missing or null. -/
def optional {α : Type} (ms : Members) (key : String) (read : Json → Option α) :
    Option (Option α) :=
  match ms.get? key with
  | none => some none
  | some .null => some none
  | some j => (read j).map some

/-- A field with a value for the case that it is missing. -/
def defaulted {α : Type} (ms : Members) (key : String) (standIn : α) (read : Json → Option α) :
    Option α :=
  match ms.get? key with
  | none => some standIn
  | some j => read j

theorem required_insertMember {α : Type} (ms : Members) (key : String) (v : Json)
    (read : Json → Option α) : required (insertMember key v ms) key read = read v := by
  simp [required, lookup_insertMember]

/-- A list whose elements are all readable. -/
def readList {α : Type} (read : Json → Option α) : Json → Option (List α)
  | .array xs => xs.mapM read
  | _ => none

/-! ## Scalars -/

/-- A non-negative integer below a bound. -/
def readNat (bound : Nat) : Json → Option Nat
  | .int n => if 0 ≤ n ∧ n < bound then some n.toNat else none
  | _ => none

def readUInt8 (j : Json) : Option UInt8 := (readNat UInt8.size j).map UInt8.ofNat
def readUInt32 (j : Json) : Option UInt32 := (readNat UInt32.size j).map UInt32.ofNat

/-- A signed 32-bit integer. -/
def readInt32 : Json → Option Int32
  | .int n => if -0x80000000 ≤ n ∧ n < 0x80000000 then some (Int32.ofInt n) else none
  | _ => none

/-- Any number, rounded to 32 bits. -/
def readSingle : Json → Option Float32
  | .int n => some (Float32.ofInt n)
  | .double x => some (Ieee.narrow x)
  | .single x => some x
  | _ => none

/-- Any number, rounded to 64 bits. -/
def readDouble : Json → Option Float := asDouble?

/-- A moment in RFC 3339 form. -/
def readMoment (j : Json) : Option Moment := j.asString?.bind Time.read?

/-- A label among fixed ones: a string, or an object with the label as its only
member and null as its value. -/
def label? : Json → Option String
  | .string s => some s
  | .object [(k, .null)] => some k
  | _ => none

/-! ## Writing scalars -/

def ofUInt8 (n : UInt8) : Json := .int n.toNat
def ofUInt32 (n : UInt32) : Json := .int n.toNat
def ofUInt64 (n : UInt64) : Json := .int n.toNat
def ofInt32 (n : Int32) : Json := .int n.toInt
def ofMoment (m : Moment) : Json := .string m.text

end MeshWatch.Json
