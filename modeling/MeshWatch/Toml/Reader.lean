import MeshWatch.Toml.Scalar

/-!
# Reading TOML

A document is read line by line: a header opens a table, and a pair adds a value to
the table opened last. Arrays and inline tables may be nested less than eighty deep.

- `readLine_blank`: an empty line changes nothing.
-/

namespace MeshWatch.Toml

/-- A word at the front. -/
def readWord (word : List Char) (v : Toml) (cs : List Char) : Option (Toml × List Char) :=
  if word.isPrefixOf cs then some (v, cs.drop word.length) else none

/-- A value that holds no others. -/
def readScalar (cs : List Char) : Option (Toml × List Char) :=
  match cs with
  | [] => none
  | c :: _ =>
    if c = '"' ∨ c = '\'' then (readString cs).map fun (s, r) => (.string s, r)
    else if c = 't' then readWord ['t', 'r', 'u', 'e'] (.boolean true) cs
    else if c = 'f' then readWord ['f', 'a', 'l', 's', 'e'] (.boolean false) cs
    else
      match readDatetime cs with
      | some d => some d
      | none => readNumber cs

mutual

/-- A value; `depth` more arrays and inline tables may be opened. Every step uses up
fuel, and there are no more steps than characters. -/
def readValue (fuel depth : Nat) (cs : List Char) : Option (Toml × List Char) :=
  match fuel with
  | 0 => none
  | fuel + 1 =>
    match cs with
    | '[' :: r =>
      if depth = 0 then none
      else (readItems fuel (depth - 1) r).map fun (xs, r) => (.array xs, r)
    | '\x7b' :: r =>
      if depth = 0 then none
      else
        match skipSpace r with
        | '\x7d' :: r => some (.table .braced [], r)
        | r => (readPairs fuel (depth - 1) [] r).map fun (ms, r) => (.table .braced ms, r)
    | _ => readScalar cs

/-- The elements of an array up to its closing bracket; a comma may follow the last. -/
def readItems (fuel depth : Nat) (cs : List Char) : Option (List Toml × List Char) :=
  match fuel with
  | 0 => none
  | fuel + 1 =>
    match skipLines cs.length cs with
    | ']' :: r => some ([], r)
    | r =>
      match readValue fuel depth r with
      | none => none
      | some (x, r) =>
        match skipLines r.length r with
        | ',' :: r => (readItems fuel depth r).map fun (xs, r) => (x :: xs, r)
        | ']' :: r => some ([x], r)
        | _ => none

/-- The pairs of an inline table up to its closing brace, added to `ms`. -/
def readPairs (fuel depth : Nat) (ms : Members) (cs : List Char) :
    Option (Members × List Char) :=
  match fuel with
  | 0 => none
  | fuel + 1 =>
    match readKey cs with
    | none => none
    | some ((path, key), r) =>
      match r with
      | '=' :: r =>
        match readValue fuel depth (skipSpace r) with
        | none => none
        | some (v, r) =>
          match addPair path key v .braced ms with
          | none => none
          | some ms =>
            match skipSpace r with
            | ',' :: r => readPairs fuel depth ms r
            | '\x7d' :: r => some (ms, r)
            | _ => none
      | _ => none

end

/-- How many arrays and inline tables may be open at a time. -/
def maxDepth : Nat := 79

/-! ## Lines -/

/-- The members of the root, and the path of the table opened last. -/
structure Progress where
  root : Members := []
  current : List String := []
deriving Inhabited

/-- Makes a change in the table of a header path. -/
def Progress.change? (p : Progress) (path : List String) (change : Change) : Option Members :=
  descend .implied change .header p.root path

/-- A header after its opening bracket. -/
def readHeader (p : Progress) (cs : List Char) : Option (Progress × List Char) :=
  match readKey cs with
  | some ((path, key), ']' :: r) =>
    match p.change? path (openTable key), endOfLine? r with
    | some root, some r => some (⟨root, path ++ [key]⟩, r)
    | _, _ => none
  | _ => none

/-- The header of an element of an array of tables after its two opening brackets. -/
def readElementHeader (p : Progress) (cs : List Char) : Option (Progress × List Char) :=
  match readKey cs with
  | some ((path, key), ']' :: ']' :: r) =>
    match p.change? path (openElement key), endOfLine? r with
    | some root, some r => some (⟨root, path ++ [key]⟩, r)
    | _, _ => none
  | _ => none

/-- A key and its value. -/
def readPair (p : Progress) (cs : List Char) : Option (Progress × List Char) :=
  match readKey cs with
  | some ((path, key), '=' :: r) =>
    match readValue (2 * r.length + 2) maxDepth (skipSpace r) with
    | none => none
    | some (v, r) =>
      match p.change? p.current (addPair path key v), endOfLine? r with
      | some root, some r => some ({ p with root := root }, r)
      | _, _ => none
  | _ => none

/-- One line, or what it starts. -/
def readLine (p : Progress) (cs : List Char) : Option (Progress × List Char) :=
  match skipSpace cs with
  | '[' :: '[' :: r => readElementHeader p r
  | '[' :: r => readHeader p r
  | r =>
    match endOfLine? r with
    | some r => some (p, r)
    | none => readPair p r

theorem readLine_blank (p : Progress) (r : List Char) : readLine p ('\n' :: r) = some (p, r) := rfl

/-- All lines. -/
def readAll (p : Progress) : (fuel : Nat) → List Char → Option Members
  | _, [] => some p.root
  | 0, _ => none
  | fuel + 1, cs =>
    match readLine p cs with
    | some (p, r) => readAll p fuel r
    | none => none

/-- A byte order mark. -/
def byteOrderMark : Char := Char.ofNat 0xFEFF

/-- The members of the root of a document. -/
def read? (s : String) : Option Members :=
  let cs := s.toList
  let cs := if cs.head? = some byteOrderMark then cs.drop 1 else cs
  readAll {} (cs.length + 1) cs

end MeshWatch.Toml
