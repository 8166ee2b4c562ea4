import MeshWatch.Text.Numeral

/-!
# Words of TOML

White space, comments, strings and keys. Every function reads at the front of a
character sequence and gives what is left of it.
-/

namespace MeshWatch.Toml

/-- Space and tab. -/
def isSpace (c : Char) : Bool := c = ' ' || c = '\t'

def skipSpace (cs : List Char) : List Char := cs.dropWhile isSpace

/-- A line break: a line feed, with a carriage return before it or not. -/
def lineBreak? : List Char → Option (List Char)
  | '\n' :: r => some r
  | '\r' :: '\n' :: r => some r
  | _ => none

/-- A character that may stand in a comment, or as itself in a literal string. -/
def isPlain (c : Char) : Bool := c = '\t' || (0x20 ≤ c.toNat && c.toNat != 0x7F)

/-- Without a comment, if there is one. -/
def skipComment : List Char → List Char
  | '#' :: r => r.dropWhile isPlain
  | cs => cs

/-- The end of a line that holds nothing more but space and a comment. -/
def endOfLine? (cs : List Char) : Option (List Char) :=
  match skipComment (skipSpace cs) with
  | [] => some []
  | r => lineBreak? r

/-- Space, comments and line breaks, as they may stand inside an array; a comment
ends with its line. -/
def skipLines : (fuel : Nat) → List Char → List Char
  | 0, cs => cs
  | fuel + 1, cs =>
    let r := skipSpace cs
    match lineBreak? (skipComment r) with
    | some r => skipLines fuel r
    | none => r

/-! ## Strings -/

/-- The character of a number of hexadecimal digits. -/
def scalar? (digits : List Char) : Option Char :=
  match Text.digits? 16 digits with
  | some n => if n < 0xD800 ∨ (0xDFFF < n ∧ n < 0x110000) then some (Char.ofNat n) else none
  | none => none

/-- An escape after its backslash. -/
def readEscape : List Char → Option (Char × List Char)
  | 'b' :: r => some (Char.ofNat 8, r)
  | 't' :: r => some ('\t', r)
  | 'n' :: r => some ('\n', r)
  | 'f' :: r => some (Char.ofNat 12, r)
  | 'r' :: r => some ('\r', r)
  | '"' :: r => some ('"', r)
  | '\\' :: r => some ('\\', r)
  | 'u' :: r => if 4 ≤ r.length then (scalar? (r.take 4)).map (·, r.drop 4) else none
  | 'U' :: r => if 8 ≤ r.length then (scalar? (r.take 8)).map (·, r.drop 8) else none
  | _ => none

/-- The rest of a basic string on one line. -/
def readBasic : (fuel : Nat) → (acc : List Char) → List Char → Option (String × List Char)
  | 0, _, _ => none
  | fuel + 1, acc, cs =>
    match cs with
    | [] => none
    | '"' :: r => some (String.ofList acc.reverse, r)
    | '\\' :: r =>
      match readEscape r with
      | some (c, r) => readBasic fuel (c :: acc) r
      | none => none
    | c :: r => if isPlain c then readBasic fuel (c :: acc) r else none

/-- The rest of a literal string on one line. -/
def readLiteral (cs : List Char) : Option (String × List Char) :=
  match cs.dropWhile fun c => isPlain c && c != '\'' with
  | '\'' :: r => some (String.ofList (cs.takeWhile fun c => isPlain c && c != '\''), r)
  | _ => none

/-- Where a backslash ends a line, the text continues at the next character that is
neither space nor line break. -/
def continuedLine? (cs : List Char) : Option (List Char) :=
  (lineBreak? (skipSpace cs)).map fun r =>
    r.dropWhile fun c => isSpace c || c = '\n' || c = '\r'

/-- A run of quotation marks inside a text of several lines: up to two belong to the
text, three more end it. Gives how many belong to the text, and whether it ends. -/
def quoteRun (n : Nat) : Nat × Bool := if n < 3 then (n, false) else (min (n - 3) 2, true)

/-- The rest of a string over several lines, which ends at three marks; in a basic
string, a backslash starts an escape. -/
def readLines (mark : Char) (isBasic : Bool) :
    (fuel : Nat) → (acc : List Char) → List Char → Option (String × List Char)
  | 0, _, _ => none
  | fuel + 1, acc, cs =>
    match cs with
    | [] => none
    | c :: r =>
      if c = mark then
        let (kept, ends) := quoteRun (cs.takeWhile (· = mark)).length
        let acc := List.replicate kept mark ++ acc
        if ends then some (String.ofList acc.reverse, cs.drop (kept + 3))
        else readLines mark isBasic fuel acc (cs.drop kept)
      else if isBasic && c = '\\' then
        match continuedLine? r with
        | some r => readLines mark isBasic fuel acc r
        | none =>
          match readEscape r with
          | some (e, r) => readLines mark isBasic fuel (e :: acc) r
          | none => none
      else
        match lineBreak? cs with
        | some r => readLines mark isBasic fuel ('\n' :: acc) r
        | none => if isPlain c then readLines mark isBasic fuel (c :: acc) r else none

/-- Without the line break right after the opening marks. -/
def skipFirstBreak (cs : List Char) : List Char := (lineBreak? cs).getD cs

/-- A string on one line. -/
def readQuoted (cs : List Char) : Option (String × List Char) :=
  match cs with
  | '"' :: r => readBasic (r.length + 1) [] r
  | '\'' :: r => readLiteral r
  | _ => none

/-- A string of any kind. -/
def readString (cs : List Char) : Option (String × List Char) :=
  match cs with
  | '"' :: '"' :: '"' :: r => readLines '"' true (r.length + 1) [] (skipFirstBreak r)
  | '\'' :: '\'' :: '\'' :: r => readLines '\'' false (r.length + 1) [] (skipFirstBreak r)
  | _ => readQuoted cs

/-! ## Keys -/

/-- A character of a key without quotation marks. -/
def isBare (c : Char) : Bool := c.isAlphanum || c = '_' || c = '-'

/-- One part of a key. -/
def readSimpleKey (cs : List Char) : Option (String × List Char) :=
  match readQuoted cs with
  | some k => some k
  | none =>
    let word := cs.takeWhile isBare
    if word.isEmpty then none else some (String.ofList word, cs.drop word.length)

/-- How many parts a key has at most. -/
def maxKeyParts : Nat := 79

/-- The parts of a key, at most `parts` of them, with space around each. -/
def readKeyParts : (parts : Nat) → List Char → Option (List String × List Char)
  | 0, _ => none
  | parts + 1, cs =>
    match readSimpleKey (skipSpace cs) with
    | none => none
    | some (k, r) =>
      match skipSpace r with
      | '.' :: r => (readKeyParts parts r).map fun (ks, r) => (k :: ks, r)
      | r => some ([k], r)

/-- A key: the parts before the last, and the last. -/
def readKey (cs : List Char) : Option ((List String × String) × List Char) :=
  match readKeyParts maxKeyParts cs with
  | some (ks, r) => ks.getLast?.map fun k => ((ks.dropLast, k), r)
  | none => none

end MeshWatch.Toml
