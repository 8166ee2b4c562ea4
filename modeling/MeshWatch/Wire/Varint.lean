import MeshWatch.Bytes

/-!
# Variable-length integers

Unsigned numbers of up to 64 bits in groups of seven bits, lowest group first, a
set top bit meaning that another byte follows. A number takes at most ten bytes,
of which the tenth holds a single bit.

- `read?_write`: a written number is read back, whatever follows it.
-/

namespace MeshWatch.Wire.Varint

/-- Writes a number in at most `room + 1` bytes. -/
def writeIn : (room : Nat) → (n : Nat) → Bytes
  | 0, n => [UInt8.ofNat n]
  | room + 1, n =>
    if n < 128 then [UInt8.ofNat n]
    else UInt8.ofNat (n % 128 + 128) :: writeIn room (n / 128)

/-- Reads a number of at most `room + 1` bytes, the last of them below two. -/
def readIn? : (room : Nat) → Bytes → Option (Nat × Bytes)
  | _, [] => none
  | 0, b :: rest => if b.toNat < 2 then some (b.toNat, rest) else none
  | room + 1, b :: rest =>
    if b.toNat < 128 then some (b.toNat, rest)
    else
      match readIn? room rest with
      | some (n, rest) => some (b.toNat - 128 + 128 * n, rest)
      | none => none

/-- The least number that `room + 1` bytes do not hold. -/
def limit : (room : Nat) → Nat
  | 0 => 2
  | room + 1 => 128 * limit room

theorem readIn?_writeIn (room n : Nat) (rest : Bytes) (h : n < limit room) :
    readIn? room (writeIn room n ++ rest) = some (n, rest) := by
  induction room generalizing n with
  | zero =>
    have hn : n < 2 := h
    have : n % 256 = n := by omega
    simp [writeIn, readIn?, this, hn]
  | succ room ih =>
    rw [writeIn]
    split
    · next hn =>
      have : n % 256 = n := by omega
      simp [readIn?, this, hn]
    · next hn =>
      have hdiv : n / 128 < limit room := Nat.div_lt_of_lt_mul h
      have hb : (n % 128 + 128) % 256 = n % 128 + 128 := by omega
      have hlt : ¬ n % 128 + 128 < 128 := by omega
      have hjoin : n % 128 + 128 - 128 + 128 * (n / 128) = n := by omega
      simp only [List.cons_append, readIn?, UInt8.toNat_ofNat', Nat.reducePow, hb, if_neg hlt,
        ih (n / 128) hdiv, hjoin]

/-- The bytes of a 64-bit number. -/
def write (n : UInt64) : Bytes := writeIn 9 n.toNat

/-- The number at the front of a byte string, and what follows it. -/
def read? (bs : Bytes) : Option (UInt64 × Bytes) :=
  match readIn? 9 bs with
  | some (n, rest) => some (UInt64.ofNat n, rest)
  | none => none

theorem read?_write (n : UInt64) (rest : Bytes) : read? (write n ++ rest) = some (n, rest) := by
  have h : n.toNat < limit 9 := n.toNat_lt
  simp [read?, write, readIn?_writeIn 9 n.toNat rest h]

end MeshWatch.Wire.Varint
