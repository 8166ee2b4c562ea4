/-!
# TOML documents

A document as data. A table remembers how it came about, because that decides
whether a later line may add to it: a table with a header of its own is complete with
it, one that was only named on the way to another may still get its header, one made
by a dotted key may only grow by dotted keys, and an inline table never grows.

- `descend_nil`: at the end of a path the change is made.
-/

namespace MeshWatch

/-- How a table came about. -/
inductive TableOrigin where
  /-- By a header of its own; so did the root. -/
  | header
  /-- On the way to the table of a header. -/
  | implied
  /-- By a dotted key. -/
  | dotted
  /-- Between braces. -/
  | braced
deriving DecidableEq, Repr, Inhabited

/-- A TOML value. -/
inductive Toml where
  | string (s : String)
  | integer (n : Int)
  | float (x : Float)
  | boolean (b : Bool)
  /-- A date, a time or both, as it was written. -/
  | datetime (text : String)
  | array (items : List Toml)
  | table (origin : TableOrigin) (members : List (String × Toml))
  /-- An array whose elements are tables with headers. -/
  | tables (elements : List (List (String × Toml)))
deriving Inhabited

namespace Toml

/-- Named values. -/
abbrev Members := List (String × Toml)

/-- Gives a name a new value; the name is there already. -/
def replace (key : String) (v : Toml) (ms : Members) : Members :=
  ms.map fun m => if m.1 = key then (key, v) else m

/-- A change of the members of a table that came about in some way. -/
abbrev Change := TableOrigin → Members → Option Members

/-- Makes a change at the end of a path. Tables that are missing on the way come
about as `made`; for a dotted key no table with a header may be entered. Of an array
of tables the last one is entered. -/
def descend (made : TableOrigin) (change : Change) (origin : TableOrigin) (ms : Members) :
    List String → Option Members
  | [] => change origin ms
  | key :: path =>
    match ms.lookup key with
    | none =>
      (descend made change made [] path).map fun sub => ms ++ [(key, .table made sub)]
    | some (.table o sub) =>
      if o = .braced ∨ (made = .dotted ∧ o = .header) then none
      else (descend made change o sub path).map fun sub => replace key (.table o sub) ms
    | some (.tables elements) =>
      match elements.getLast? with
      | some last =>
        (descend made change .header last path).map fun last =>
          replace key (.tables (elements.dropLast ++ [last])) ms
      | none => none
    | some _ => none

theorem descend_nil (made : TableOrigin) (change : Change) (origin : TableOrigin) (ms : Members) :
    descend made change origin ms [] = change origin ms := rfl

/-- Adds a member that is not there yet. -/
def addNew (key : String) (v : Toml) (ms : Members) : Option Members :=
  match ms.lookup key with
  | none => some (ms ++ [(key, v)])
  | some _ => none

/-- The header of a table: the table is new, or was only implied so far. -/
def openTable (key : String) : Change := fun _ ms =>
  match ms.lookup key with
  | none => some (ms ++ [(key, .table .header [])])
  | some (.table .implied sub) => some (replace key (.table .header sub) ms)
  | some _ => none

/-- The header of an element of an array of tables. -/
def openElement (key : String) : Change := fun _ ms =>
  match ms.lookup key with
  | none => some (ms ++ [(key, .tables [[]])])
  | some (.tables elements) => some (replace key (.tables (elements ++ [[]])) ms)
  | some _ => none

/-- A value for the last part of a key. A table that is reached through a dotted key
must have come about by one. -/
def addValue (isDotted : Bool) (key : String) (v : Toml) : Change := fun origin ms =>
  if isDotted && origin != .dotted then none else addNew key v ms

/-- Adds a value under a possibly dotted key. -/
def addPair (path : List String) (key : String) (v : Toml) : Change := fun origin ms =>
  descend .dotted (addValue (!path.isEmpty) key v) origin ms path

end Toml

end MeshWatch
