import MeshWatch.Text.Classes
import MeshWatch.Time.Calendar
import MeshWatch.Toml.Basic
import MeshWatch.Toml.Lexical

/-!
# Numbers and dates of TOML

An integer fits 64 bits with a sign; a float has a fraction or an exponent, or is one
of the words for infinity and for no number; underscores may stand between digits.
-/

namespace MeshWatch.Toml

/-- Digits of a kind, with single underscores between them. -/
def readDigits (isDigit : Char → Bool) (cs : List Char) : Option (List Char × List Char) :=
  let word := cs.takeWhile fun c => isDigit c || c = '_'
  if (Text.segments '_' word).any List.isEmpty then none
  else some (word.filter (· != '_'), cs.drop word.length)

/-- An optional sign; true for a minus. -/
def readSign : List Char → Bool × List Char
  | '+' :: r => (false, r)
  | '-' :: r => (true, r)
  | r => (false, r)

/-- The digits of a decimal integer: no zero in front of others. -/
def readWhole (cs : List Char) : Option (List Char × List Char) :=
  match cs with
  | '0' :: r => some (['0'], r)
  | _ => readDigits Char.isDigit cs

/-- An integer that fits 64 bits with a sign. -/
def integer? (n : Int) : Option Toml :=
  if -0x8000000000000000 ≤ n ∧ n < 0x8000000000000000 then some (.integer n) else none

/-- An integer in another base after its mark. -/
def readBased (base : Nat) (cs : List Char) : Option (Toml × List Char) :=
  match readDigits (fun c => (Text.digitBelow? base c).isSome) cs with
  | some (ds, r) => ((Text.digits? base ds).bind fun n => integer? n).map (·, r)
  | none => none

/-- A fraction after its point, if there is one. -/
def readFraction : List Char → Option (List Char × List Char)
  | '.' :: r => readDigits Char.isDigit r
  | r => some ([], r)

/-- An exponent, if there is one. -/
def readExponent (cs : List Char) : Option (Int × List Char) :=
  match cs with
  | c :: r =>
    if c = 'e' ∨ c = 'E' then
      let (down, r) := readSign r
      match readDigits Char.isDigit r with
      | some (ds, r) => (Text.digits? 10 ds).map fun n => (if down then -(n : Int) else n, r)
      | none => none
    else some (0, cs)
  | [] => some (0, [])

/-- The float of a number in decimal; none above the greatest one. -/
def float? (negative : Bool) (digits : List Char) (exponent : Int) : Option Toml :=
  match Text.digits? 10 digits with
  | none => none
  | some n =>
    let x := if 400 < exponent + digits.length ∧ n ≠ 0 then 1.0 / 0.0
      else if exponent < -800 - (digits.length : Int) then 0.0
      else Float.ofScientific n (exponent < 0) exponent.natAbs
    if negative then some (.float (-x)) else if x.isInf then none else some (.float x)

/-- A decimal number. -/
def readDecimal (cs : List Char) : Option (Toml × List Char) :=
  let (negative, r) := readSign cs
  match r with
  | 'i' :: 'n' :: 'f' :: r => some (.float (if negative then -1.0 / 0.0 else 1.0 / 0.0), r)
  | 'n' :: 'a' :: 'n' :: r => some (.float (0.0 / 0.0), r)
  | _ =>
    match readWhole r with
    | none => none
    | some (whole, r1) =>
      match readFraction r1 with
      | none => none
      | some (fraction, r2) =>
        match readExponent r2 with
        | none => none
        | some (exponent, r3) =>
          if r3.length = r1.length then
            match Text.digits? 10 whole with
            | some n => (integer? (if negative then -(n : Int) else n)).map (·, r1)
            | none => none
          else (float? negative (whole ++ fraction) (exponent - fraction.length)).map (·, r3)

/-- A number of any kind. -/
def readNumber (cs : List Char) : Option (Toml × List Char) :=
  match cs with
  | '0' :: 'x' :: r => readBased 16 r
  | '0' :: 'o' :: r => readBased 8 r
  | '0' :: 'b' :: r => readBased 2 r
  | _ => readDecimal cs

/-! ## Dates and times -/

/-- A number of exactly `count` digits in a range. -/
def readCount (count low high : Nat) (cs : List Char) : Option (Nat × List Char) :=
  let ds := (cs.take count).takeWhile Char.isDigit
  if ds.length = count then
    match Text.digits? 10 ds with
    | some n => if low ≤ n ∧ n ≤ high then some (n, cs.drop count) else none
    | none => none
  else none

/-- A character that has to be there. -/
def expect (c : Char) : List Char → Option (List Char)
  | d :: r => if d = c then some r else none
  | [] => none

/-- The rest after a date. -/
def skipDate (cs : List Char) : Option (List Char) := do
  let (year, r) ← readCount 4 0 9999 cs
  let (month, r) ← readCount 2 1 12 (← expect '-' r)
  let (_, r) ← readCount 2 1 (Time.daysInMonth year month) (← expect '-' r)
  return r

/-- The rest after a fraction of a second, if there is one. -/
def skipSecondFraction : List Char → Option (List Char)
  | '.' :: r => if (r.takeWhile Char.isDigit).isEmpty then none else some (r.dropWhile Char.isDigit)
  | r => some r

/-- The rest after a time of day. -/
def skipTime (cs : List Char) : Option (List Char) := do
  let (_, r) ← readCount 2 0 23 cs
  let (_, r) ← readCount 2 0 59 (← expect ':' r)
  let (_, r) ← readCount 2 0 60 (← expect ':' r)
  skipSecondFraction r

/-- The rest after an offset from UTC, if there is one. -/
def skipOffset (cs : List Char) : List Char :=
  match cs with
  | 'Z' :: r => r
  | 'z' :: r => r
  | c :: r =>
    if c = '+' ∨ c = '-' then
      (do
        let (_, r) ← readCount 2 0 23 r
        let (_, r) ← readCount 2 0 59 (← expect ':' r)
        return r : Option (List Char)).getD cs
    else cs
  | [] => []

/-- The rest after a time of day that follows a date, if there is one. -/
def skipTimeOfDate (cs : List Char) : List Char :=
  match cs with
  | c :: r =>
    if c = 'T' ∨ c = 't' ∨ c = ' ' then ((skipTime r).map skipOffset).getD cs else cs
  | [] => []

/-- A date, a time or both. -/
def readDatetime (cs : List Char) : Option (Toml × List Char) :=
  let rest := match skipDate cs with
    | some r => some (skipTimeOfDate r)
    | none => skipTime cs
  rest.map fun r => (.datetime (String.ofList (cs.take (cs.length - r.length))), r)

end MeshWatch.Toml
