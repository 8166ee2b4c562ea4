import MeshWatch.Bytes
import MeshWatch.Text.Classes

/-!
# Quoted text in messages

Error messages show a rejected value between quotes, with everything that would
not be visible on a terminal written as an escape: backslash and the quote
itself, the usual letters for line feed, carriage return, tab and NUL, and a
numbered form for the other controls and the zero-width space.
-/

namespace MeshWatch.Text

/-- Hexadecimal digits without leading zeros. -/
def hexDigits (n : Nat) : List Char := Nat.toDigits 16 n

/-- A character as it stands between two `quote` marks. -/
def escaped (quote c : Char) : List Char :=
  if c = quote then ['\\', c]
  else if c = '\\' then ['\\', '\\']
  else if c = '\n' then ['\\', 'n']
  else if c = '\r' then ['\\', 'r']
  else if c = '\t' then ['\\', 't']
  else if c.toNat = 0 then ['\\', '0']
  else if isControl c || c.toNat == 0x200B then
    ['\\', 'u', '\x7b'] ++ hexDigits c.toNat ++ ['\x7d']
  else [c]

/-- A text in double quotes. -/
def quoted (s : String) : String :=
  String.ofList ('"' :: s.toList.flatMap (escaped '"') ++ ['"'])

/-- A single character in single quotes. -/
def quotedChar (c : Char) : String :=
  String.ofList ('\'' :: escaped '\'' c ++ ['\''])

end MeshWatch.Text
