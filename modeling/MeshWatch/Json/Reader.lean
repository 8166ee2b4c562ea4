import MeshWatch.Json.Basic
import MeshWatch.Bytes

/-!
# Reading JSON

A strict reader of RFC 8259: no comments, no trailing commas, no leading zeros,
no control characters inside strings, no half of a surrogate pair. At most 127
arrays and objects may be open at a time. Of members with one name the last
counts.

A number without point and exponent that fits 64 bits is an integer. Any other
number is a float computed from its digits as far as they fit 64 bits and from a
power of ten, with one rounding for each of the two, and is refused when it
exceeds the greatest float. The literal `-0` is the float zero with a sign.
-/

namespace MeshWatch.Json

/-- The white space between tokens. -/
def isSpace (c : Char) : Bool := c = ' ' || c = '\t' || c = '\n' || c = '\r'

def skipSpace (cs : List Char) : List Char := cs.dropWhile isSpace

/-! ## Numbers -/

/-- Exclusive bound of the digits that a significand keeps. -/
def wordBound : Nat := UInt64.size

/-- The nearest float to a power of ten. -/
def powerOfTen (k : Nat) : Float := Float.ofScientific 1 false k

/-- Scales a float by a power of ten: by one multiplication or division when the
power is a float itself, and downwards in steps of 10^308 otherwise. A number
above the greatest float is refused. -/
def scaled (f : Float) (exponent : Int) : (steps : Nat) → Option Float
  | 0 => some f
  | steps + 1 =>
    if exponent.natAbs ≤ 308 then
      if 0 ≤ exponent then
        let g := f * powerOfTen exponent.natAbs
        if g.isInf then none else some g
      else some (f / powerOfTen exponent.natAbs)
    else if f == 0 then some f
    else if 0 ≤ exponent then none
    else scaled (f / powerOfTen 308) (exponent + 308) steps

/-- The float of a significand, a power of ten and a sign. -/
def floatOf (negative : Bool) (significand : Nat) (exponent : Int) : Option Json :=
  (scaled (Float.ofNat significand) exponent (exponent.natAbs / 308 + 2)).map fun f =>
    .double (if negative then -f else f)

/-- The exponent after its letter: an optional sign and at least one digit. An
exponent beyond 32 bits makes the number zero, unless it would be too large. -/
def readExponent (negative : Bool) (significand : Nat) (start : Int) (cs : List Char) :
    Option (Json × List Char) :=
  let (down, cs) := match cs with
    | '+' :: r => (false, r)
    | '-' :: r => (true, r)
    | r => (false, r)
  let ds := cs.takeWhile Char.isDigit
  let rest := cs.dropWhile Char.isDigit
  if ds.isEmpty then none
  else
    let e : Nat := ds.foldl (fun acc c => acc * 10 + (c.toNat - 48)) 0
    if 0x80000000 ≤ e then
      if significand ≠ 0 ∧ !down then none
      else some (.double (if negative then -0.0 else 0.0), rest)
    else
      (floatOf negative significand (if down then start - (e : Int) else start + (e : Int))).map (·, rest)

/-- What follows the digits of a number: an exponent or nothing. -/
def finishFloat (negative : Bool) (significand : Nat) (exponent : Int) :
    List Char → Option (Json × List Char)
  | 'e' :: rest => readExponent negative significand exponent rest
  | 'E' :: rest => readExponent negative significand exponent rest
  | rest => (floatOf negative significand exponent).map (·, rest)

/-- Adds digits to a significand while it fits 64 bits; answers how many were
added and what is left of the digits. -/
def accumulate (significand count : Nat) : List Char → Nat × Nat × List Char
  | [] => (significand, count, [])
  | c :: cs =>
    let next := significand * 10 + (c.toNat - 48)
    if next < wordBound then accumulate next (count + 1) cs else (significand, count, c :: cs)

/-- What follows the integer digits of a number whose significand is known up to
a power of ten. -/
def readFraction (negative : Bool) (significand : Nat) (exponent : Int) (cs : List Char) :
    Option (Json × List Char) :=
  let ds := cs.takeWhile Char.isDigit
  let rest := cs.dropWhile Char.isDigit
  if ds.isEmpty then none
  else
    let (significand, count, _) := accumulate significand 0 ds
    finishFloat negative significand (exponent - count) rest

/-- The number without point and exponent. -/
def integer (negative : Bool) (n : Nat) : Json :=
  if negative then
    if n = 0 ∨ 0x8000000000000000 < n then .double (-(Float.ofNat n)) else .int (-(n : Int))
  else .int n

/-- A number after its sign. -/
def readNumber (negative : Bool) (cs : List Char) : Option (Json × List Char) :=
  let ds := cs.takeWhile Char.isDigit
  let rest := cs.dropWhile Char.isDigit
  if ds.isEmpty || (ds.length > 1 && ds.head? == some '0') then none
  else
    let (significand, _, dropped) := accumulate 0 0 ds
    match rest with
    | '.' :: r => readFraction negative significand dropped.length r
    | 'e' :: r => readExponent negative significand dropped.length r
    | 'E' :: r => readExponent negative significand dropped.length r
    | r =>
      if dropped.isEmpty then some (integer negative significand, r)
      else (floatOf negative significand dropped.length).map (·, r)

/-! ## Strings -/

/-- The value of four hexadecimal digits. -/
def codeUnit? (a b c d : Char) : Option Nat := do
  let w ← Hex.value? a
  let x ← Hex.value? b
  let y ← Hex.value? c
  let z ← Hex.value? d
  return ((w * 16 + x) * 16 + y) * 16 + z

/-- The character of a one-letter escape. -/
def escapeLetter? (c : Char) : Option Char :=
  if c = '"' ∨ c = '\\' ∨ c = '/' then some c
  else if c = 'b' then some (Char.ofNat 8)
  else if c = 'f' then some (Char.ofNat 12)
  else if c = 'n' then some '\n'
  else if c = 'r' then some '\r'
  else if c = 't' then some '\t'
  else none

/-- The rest of a string after its opening quote. `high` is the first half of a
surrogate pair whose second half has to follow at once; `acc` holds the characters
so far, last first. -/
def readString (high : Option Nat) (acc : List Char) : List Char → Option (String × List Char)
  | '\\' :: 'u' :: a :: b :: c :: d :: rest =>
    match codeUnit? a b c d, high with
    | none, _ => none
    | some u, some h =>
      if 0xDC00 ≤ u ∧ u ≤ 0xDFFF then
        readString none (Char.ofNat (0x10000 + (h - 0xD800) * 1024 + (u - 0xDC00)) :: acc) rest
      else none
    | some u, none =>
      if 0xD800 ≤ u ∧ u ≤ 0xDBFF then readString (some u) acc rest
      else if 0xDC00 ≤ u ∧ u ≤ 0xDFFF then none
      else readString none (Char.ofNat u :: acc) rest
  | '\\' :: e :: rest =>
    match escapeLetter? e, high with
    | some c, none => readString none (c :: acc) rest
    | _, _ => none
  | '"' :: rest => if high.isSome then none else some (String.ofList acc.reverse, rest)
  | c :: rest =>
    if high.isSome || c.toNat < 0x20 || c = '\\' then none else readString none (c :: acc) rest
  | [] => none

/-! ## Values -/

/-- A literal word. -/
def readWord (word : List Char) (v : Json) (cs : List Char) : Option (Json × List Char) :=
  if word.isPrefixOf cs then some (v, cs.drop word.length) else none

mutual

/-- A value at the front of a text; `depth` more arrays and objects may be opened.
Every step uses up fuel, and there are no more steps than characters. -/
def readValue (fuel depth : Nat) (cs : List Char) : Option (Json × List Char) :=
  match fuel with
  | 0 => none
  | fuel + 1 =>
    match skipSpace cs with
    | [] => none
    | '"' :: rest => (readString none [] rest).map fun (s, r) => (.string s, r)
    | '[' :: rest =>
      if depth = 0 then none
      else
        match skipSpace rest with
        | ']' :: r => some (.array [], r)
        | r => (readItems fuel (depth - 1) r).map fun (xs, r) => (.array xs, r)
    | '\x7b' :: rest =>
      if depth = 0 then none
      else
        match skipSpace rest with
        | '\x7d' :: r => some (.object [], r)
        | r => (readMembers fuel (depth - 1) [] r).map fun (ms, r) => (.object ms, r)
    | '-' :: rest => readNumber true rest
    | 't' :: rest => readWord ['r', 'u', 'e'] (.bool true) rest
    | 'f' :: rest => readWord ['a', 'l', 's', 'e'] (.bool false) rest
    | 'n' :: rest => readWord ['u', 'l', 'l'] .null rest
    | c :: rest => if c.isDigit then readNumber false (c :: rest) else none

/-- The elements of an array up to its closing bracket. -/
def readItems (fuel depth : Nat) (cs : List Char) : Option (List Json × List Char) :=
  match fuel with
  | 0 => none
  | fuel + 1 =>
    match readValue fuel depth cs with
    | none => none
    | some (x, rest) =>
      match skipSpace rest with
      | ',' :: r => (readItems fuel depth r).map fun (xs, r) => (x :: xs, r)
      | ']' :: r => some ([x], r)
      | _ => none

/-- The members of an object up to its closing brace, stored into `acc`. -/
def readMembers (fuel depth : Nat) (acc : Members) (cs : List Char) :
    Option (Members × List Char) :=
  match fuel with
  | 0 => none
  | fuel + 1 =>
    match skipSpace cs with
    | '"' :: rest =>
      match readString none [] rest with
      | none => none
      | some (key, rest) =>
        match skipSpace rest with
        | ':' :: rest =>
          match readValue fuel depth rest with
          | none => none
          | some (v, rest) =>
            let acc := insertMember key v acc
            match skipSpace rest with
            | ',' :: r => readMembers fuel depth acc r
            | '\x7d' :: r => some (acc, r)
            | _ => none
        | _ => none
    | _ => none

end

/-- How many arrays and objects may be open at a time. -/
def maxDepth : Nat := 127

/-- The document that a text holds. -/
def read? (s : String) : Option Json :=
  let cs := s.toList
  match readValue (2 * cs.length + 2) maxDepth cs with
  | some (v, rest) => if (skipSpace rest).isEmpty then some v else none
  | none => none

/-- The document that a byte string holds; it has to be UTF-8. -/
def readBytes? (bs : Bytes) : Option Json := (Bytes.toText? bs).bind read?

end MeshWatch.Json
