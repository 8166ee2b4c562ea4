import MeshWatch.Ieee.Format

/-!
# JSON values

A JSON document as data. A number is an integer when it was written without point
and exponent and fits 64 bits, and a float otherwise; floats come in the two
widths that records have, because a float is written in the digits of its own
width. Members of an object are kept in the order in which they are to be
written; documents that were read have theirs sorted by name, each name once.

- `lookup_insertMember`: after storing a member its name has the new value, and
  every other name the value it had.
-/

namespace MeshWatch

/-- A JSON value. -/
inductive Json where
  | null
  | bool (b : Bool)
  | int (n : Int)
  | double (x : Float)
  | single (x : Float32)
  | string (s : String)
  | array (items : List Json)
  | object (members : List (String × Json))
deriving Inhabited

namespace Json

/-- Named members. -/
abbrev Members := List (String × Json)

/-- The member of a name. -/
def Members.get? (ms : Members) (key : String) : Option Json := List.lookup key ms

theorem Members.get?_cons_self (key : String) (v : Json) (ms : Members) :
    get? ((key, v) :: ms) key = some v := by simp [get?]

theorem Members.get?_cons_of_ne {k key : String} (h : k ≠ key) (v : Json) (ms : Members) :
    get? ((key, v) :: ms) k = ms.get? k := by
  rw [get?, List.lookup_cons, beq_eq_false_iff_ne.2 h]
  rfl

/-- Stores a member in its place in the order of names; a member of that name is
replaced. Names are ordered by code point, which is the order of their bytes. -/
def insertMember (key : String) (v : Json) : Members → Members
  | [] => [(key, v)]
  | (k, w) :: rest =>
    if key = k then (key, v) :: rest
    else if key < k then (key, v) :: (k, w) :: rest
    else (k, w) :: insertMember key v rest

theorem lookup_insertMember (key k : String) (v : Json) (ms : Members) :
    Members.get? (insertMember key v ms) k = if k = key then some v else Members.get? ms k := by
  induction ms with
  | nil =>
    by_cases h : k = key
    · simp [insertMember, Members.get?, h]
    · have : (k == key) = false := by simpa using h
      simp [insertMember, Members.get?, List.lookup_cons, this, h]
  | cons m rest ih =>
    obtain ⟨k', w⟩ := m
    simp only [insertMember, Members.get?] at ih ⊢
    by_cases hk : key = k'
    · subst hk
      by_cases h : k = key
      · simp [h]
      · have : (k == key) = false := by simpa using h
        simp [List.lookup_cons, this, h]
    · simp only [if_neg hk]
      by_cases hlt : key < k'
      · simp only [if_pos hlt]
        by_cases h : k = key
        · simp [h]
        · have : (k == key) = false := by simpa using h
          simp [List.lookup_cons, this, h]
      · simp only [if_neg hlt]
        by_cases h : k = k'
        · subst h
          have : ¬ k = key := fun e => hk e.symm
          simp [this]
        · have : (k == k') = false := by simpa using h
          simp [List.lookup_cons, this, ih]

/-! ## Views of a value -/

/-- An integer from 0 to 2^64 − 1. -/
def asUnsigned? : Json → Option Nat
  | .int n => if 0 ≤ n ∧ n < UInt64.size then some n.toNat else none
  | _ => none

/-- An integer from −2^63 to 2^63 − 1. -/
def asSigned? : Json → Option Int
  | .int n => if -0x8000000000000000 ≤ n ∧ n < 0x8000000000000000 then some n else none
  | _ => none

/-- Any number, as the nearest 64-bit float. -/
def asDouble? : Json → Option Float
  | .int n => some (Float.ofInt n)
  | .double x => some x
  | .single x => some (Ieee.widen x)
  | _ => none

def asString? : Json → Option String
  | .string s => some s
  | _ => none

def asBool? : Json → Option Bool
  | .bool b => some b
  | _ => none

def asArray? : Json → Option (List Json)
  | .array xs => some xs
  | _ => none

def asObject? : Json → Option Members
  | .object ms => some ms
  | _ => none

/-- The member of a name, when the value is an object that has it. -/
def member? (j : Json) (key : String) : Option Json :=
  j.asObject?.bind fun ms => ms.get? key

/-! ## Building records -/

/-- A float, or null for one that has no decimal form. -/
def ofSingle (x : Float32) : Json := if x.isFinite then .single x else .null

/-- A float, or null for one that has no decimal form. -/
def ofDouble (x : Float) : Json := if x.isFinite then .double x else .null

/-- A natural number. -/
def nat (n : Nat) : Json := .int n

/-- A value that may be missing; null stands for its absence. -/
def option {α : Type} (f : α → Json) : Option α → Json
  | some a => f a
  | none => .null

/-- A list of values. -/
def list {α : Type} (f : α → Json) (xs : List α) : Json := .array (xs.map f)

end Json

end MeshWatch
