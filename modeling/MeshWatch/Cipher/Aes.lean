import MeshWatch.Bytes

/-!
# AES-256

The block cipher of FIPS 197 with a key of 32 bytes, in the encrypting direction,
which is all that counter mode needs. The state of sixteen bytes stands column by
column, and the substitution box is computed from its definition: the inverse in
the field of 256 elements followed by an affine map.
-/

namespace MeshWatch.Aes

/-! ## The field of 256 elements -/

/-- Multiplication by the element `x`. -/
def double (b : UInt8) : UInt8 := if b < 0x80 then b <<< 1 else (b <<< 1) ^^^ 0x1B

/-- The product of two elements, over the bits of the second. -/
def product (a b : UInt8) : (bits : Nat) → UInt8
  | 0 => 0
  | n + 1 => (if b % 2 = 1 then a else 0) ^^^ product (double a) (b >>> 1) n

/-- The product of two elements. -/
def mul (a b : UInt8) : UInt8 := product a b 8

/-- The inverse of an element, its 254th power; zero for zero. -/
def inverse (b : UInt8) : UInt8 :=
  let b2 := mul b b
  let b4 := mul b2 b2
  let b8 := mul b4 b4
  let b16 := mul b8 b8
  let b32 := mul b16 b16
  let b64 := mul b32 b32
  let b128 := mul b64 b64
  mul (mul (mul b2 b4) (mul b8 b16)) (mul (mul b32 b64) b128)

/-- Rotation to the left by `0 < n < 8` places. -/
def rotate (b n : UInt8) : UInt8 := (b <<< n) ||| (b >>> (8 - n))

/-- The substitution box. -/
def substitute (b : UInt8) : UInt8 :=
  let i := inverse b
  i ^^^ rotate i 1 ^^^ rotate i 2 ^^^ rotate i 3 ^^^ rotate i 4 ^^^ 0x63

example : substitute 0x00 = 0x63 ∧ substitute 0x53 = 0xED := by decide

/-- The substitution box as a table, so that each entry is computed once. -/
def box : Array UInt8 := (Array.range 256).map fun n => substitute (UInt8.ofNat n)

/-- The substitution of a byte. -/
def sub (b : UInt8) : UInt8 := box.getD b.toNat 0

/-! ## The key schedule -/

/-- Bytewise exclusive or. -/
def xorBytes (a b : Bytes) : Bytes := List.zipWith (· ^^^ ·) a b

/-- The words of the schedule after the last eight, `index` counting them from the
start and `rcon` being the next round constant. -/
def scheduleFrom (window : List Bytes) (rcon : UInt8) (index : Nat) : (steps : Nat) → List Bytes
  | 0 => []
  | n + 1 =>
    let last := window.getD 7 []
    let mixed :=
      if index % 8 = 0 then xorBytes ((last.drop 1 ++ last.take 1).map sub) [rcon, 0, 0, 0]
      else if index % 8 = 4 then last.map sub
      else last
    let word := xorBytes (window.getD 0 []) mixed
    let rcon := if index % 8 = 0 then double rcon else rcon
    word :: scheduleFrom (window.drop 1 ++ [word]) rcon (index + 1) n

/-- Pieces of a length. -/
def pieces (size : Nat) (bs : Bytes) : (count : Nat) → List Bytes
  | 0 => []
  | n + 1 => bs.take size :: pieces size (bs.drop size) n

/-- The fifteen round keys of a key. -/
def roundKeys (key : Bytes) : List Bytes :=
  let words := pieces 4 key 8
  pieces 16 (words ++ scheduleFrom words 1 8 52).flatten 15

/-! ## Rounds -/

/-- Where each byte of the state comes from when the rows are shifted. -/
def shiftSources : List Nat := [0, 5, 10, 15, 4, 9, 14, 3, 8, 13, 2, 7, 12, 1, 6, 11]

def shiftRows (s : Bytes) : Bytes := shiftSources.map fun i => s.getD i 0

/-- A column times the fixed matrix. -/
def mixColumn : Bytes → Bytes
  | [a, b, c, d] =>
    [double a ^^^ double b ^^^ b ^^^ c ^^^ d,
     a ^^^ double b ^^^ double c ^^^ c ^^^ d,
     a ^^^ b ^^^ double c ^^^ double d ^^^ d,
     double a ^^^ a ^^^ b ^^^ c ^^^ double d]
  | other => other

def mixColumns (s : Bytes) : Bytes := (pieces 4 s 4).flatMap mixColumn

/-- The rounds after the first key addition; the last does not mix columns. -/
def rounds (s : Bytes) : List Bytes → Bytes
  | [] => s
  | [k] => xorBytes (shiftRows (s.map sub)) k
  | k :: ks => rounds (xorBytes (mixColumns (shiftRows (s.map sub))) k) ks

/-- A block of sixteen bytes under the round keys. -/
def encryptBlock (keys : List Bytes) (block : Bytes) : Bytes :=
  match keys with
  | [] => block
  | k :: ks => rounds (xorBytes block k) ks

end MeshWatch.Aes
