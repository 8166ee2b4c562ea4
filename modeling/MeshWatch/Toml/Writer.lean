import MeshWatch.Bytes

/-!
# Writing TOML

Values are written in the form that needs the fewest escapes: a string stands in
double quotes, or in single quotes when that saves escapes, and over several lines
when it has line breaks.
-/

namespace MeshWatch.Toml

/-- What decides about the form of a string. -/
structure TextTraits where
  /-- The longest run of single quotes. -/
  singleQuotes : Nat := 0
  /-- The longest run of double quotes. -/
  doubleQuotes : Nat := 0
  /-- There is a backslash. -/
  backslash : Bool := false
  /-- There is a control character other than tab and line feed. -/
  control : Bool := false
  /-- There is a line feed. -/
  lineFeed : Bool := false
deriving DecidableEq, Repr

/-- The longest run of a character, when `run` of them stand right before. -/
def longestRun (c : Char) : (run : Nat) → List Char → Nat
  | run, [] => run
  | run, d :: ds => if d = c then longestRun c (run + 1) ds else max run (longestRun c 0 ds)

/-- A control character that has to be escaped in every form. -/
def isUnwritable (c : Char) : Bool :=
  (c.toNat ≤ 0x1F && c != '\t' && c != '\n') || c.toNat == 0x7F

/-- The traits of a text. -/
def TextTraits.of (cs : List Char) : TextTraits :=
  { singleQuotes := longestRun '\'' 0 cs
    doubleQuotes := longestRun '"' 0 cs
    backslash := cs.contains '\\'
    control := cs.any isUnwritable
    lineFeed := cs.contains '\n' }

/-- A character of a basic string; `quotes` double quotes stand right before, of which
up to `spared` in a row need no escape. Gives the run of unescaped double quotes too. -/
def escaped (manyLines : Bool) (spared quotes : Nat) (c : Char) : List Char × Nat :=
  if c = '"' then if quotes < spared then ([c], quotes + 1) else (['\\', '"'], 0)
  else if c = '\\' then (['\\', '\\'], 0)
  else if c = '\n' then (if manyLines then [c] else ['\\', 'n'], 0)
  else if c = '\t' then (['\\', 't'], 0)
  else if c = '\r' then (['\\', 'r'], 0)
  else if c.toNat = 8 then (['\\', 'b'], 0)
  else if c.toNat = 12 then (['\\', 'f'], 0)
  else if isUnwritable c then
    ('\\' :: 'u' :: (Hex.fixed 4 c.toNat).map Char.toUpper, 0)
  else ([c], 0)

/-- The characters of a basic string. -/
def escapedText (manyLines : Bool) (spared : Nat) : (quotes : Nat) → List Char → List Char
  | _, [] => []
  | quotes, c :: cs =>
    let (text, quotes) := escaped manyLines spared quotes c
    text ++ escapedText manyLines spared quotes cs

/-- A string literal. -/
def stringLiteral (s : String) : String :=
  let cs := s.toList
  let t := TextTraits.of cs
  let first := if t.lineFeed then "\n" else ""
  let basic := "\"" ++ String.ofList (escapedText false 0 0 cs) ++ "\""
  let basicLines := "\"\"\"" ++ first ++ String.ofList (escapedText true 2 0 cs) ++ "\"\"\""
  if !t.control && !t.backslash && t.doubleQuotes = 0 && !t.lineFeed then basic
  else if !t.control && t.singleQuotes = 0 && !t.lineFeed then "'" ++ s ++ "'"
  else if !t.control && !t.backslash && t.doubleQuotes ≤ 2 then basicLines
  else if !t.control && t.singleQuotes ≤ 2 then "'''" ++ first ++ s ++ "'''"
  else if t.lineFeed then basicLines
  else basic

/-- A line that gives a key a value. -/
def keyValue (key value : String) : String := key ++ " = " ++ value ++ "\n"

/-- A table: its header and its pairs. -/
def tableText (name : String) (pairs : List (String × String)) : String :=
  "[" ++ name ++ "]\n" ++ String.join (pairs.map fun (k, v) => keyValue k v)

end MeshWatch.Toml
