import MeshWatch.Json.Basic
import MeshWatch.Text.Quoted
import MeshWatch.Decimal.Layout

/-!
# Writing JSON

Two printers: one without any space, and one with a member or element a line,
indented by two spaces a level. Strings are escaped only where they must be.
-/

namespace MeshWatch.Json

/-- A character inside a string literal. -/
def escapedChar (c : Char) : List Char :=
  if c = '"' then ['\\', '"']
  else if c = '\\' then ['\\', '\\']
  else if c.toNat = 8 then ['\\', 'b']
  else if c.toNat = 12 then ['\\', 'f']
  else if c = '\n' then ['\\', 'n']
  else if c = '\r' then ['\\', 'r']
  else if c = '\t' then ['\\', 't']
  else if c.toNat < 0x20 then '\\' :: 'u' :: Hex.fixed 4 c.toNat
  else [c]

/-- A string literal. -/
def stringLiteral (s : String) : String :=
  String.ofList ('"' :: s.toList.flatMap escapedChar ++ ['"'])

/-- A value that holds no others. -/
def scalarText : Json → String
  | .null => "null"
  | .bool true => "true"
  | .bool false => "false"
  | .int n => String.ofList (Decimal.integerChars n)
  | .double x => (Decimal.ofDouble? x).elim "null" String.ofList
  | .single x => (Decimal.ofSingle? x).elim "null" String.ofList
  | .string s => stringLiteral s
  | .array _ => "[]"
  | .object _ => "\x7b\x7d"

mutual

/-- The document without any space. -/
def compact : Json → String
  | .array [] => "[]"
  | .array (x :: xs) => "[" ++ compact x ++ compactItems xs ++ "]"
  | .object [] => "\x7b\x7d"
  | .object ((k, v) :: ms) =>
    "\x7b" ++ stringLiteral k ++ ":" ++ compact v ++ compactMembers ms ++ "\x7d"
  | j => scalarText j

/-- Further elements, each after a comma. -/
def compactItems : List Json → String
  | [] => ""
  | x :: xs => "," ++ compact x ++ compactItems xs

/-- Further members, each after a comma. -/
def compactMembers : List (String × Json) → String
  | [] => ""
  | (k, v) :: ms => "," ++ stringLiteral k ++ ":" ++ compact v ++ compactMembers ms

end

/-- A line break and the indentation of a level. -/
def lineBreak (level : Nat) : String := String.ofList ('\n' :: List.replicate (2 * level) ' ')

mutual

/-- The document at a level of indentation, a line for each member and element. -/
def prettyAt (level : Nat) : Json → String
  | .array [] => "[]"
  | .array (x :: xs) =>
    "[" ++ lineBreak (level + 1) ++ prettyAt (level + 1) x ++ prettyItems level xs
      ++ lineBreak level ++ "]"
  | .object [] => "\x7b\x7d"
  | .object ((k, v) :: ms) =>
    "\x7b" ++ lineBreak (level + 1) ++ stringLiteral k ++ ": " ++ prettyAt (level + 1) v
      ++ prettyMembers level ms ++ lineBreak level ++ "\x7d"
  | j => scalarText j

/-- Further elements of a value at a level. -/
def prettyItems (level : Nat) : List Json → String
  | [] => ""
  | x :: xs => "," ++ lineBreak (level + 1) ++ prettyAt (level + 1) x ++ prettyItems level xs

/-- Further members of a value at a level. -/
def prettyMembers (level : Nat) : List (String × Json) → String
  | [] => ""
  | (k, v) :: ms =>
    "," ++ lineBreak (level + 1) ++ stringLiteral k ++ ": " ++ prettyAt (level + 1) v
      ++ prettyMembers level ms

end

/-- The document over several lines. -/
def pretty (j : Json) : String := prettyAt 0 j

end MeshWatch.Json
