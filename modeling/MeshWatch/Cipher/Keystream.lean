import MeshWatch.Cipher.Aes
import MeshWatch.Cipher.Sha256
import MeshWatch.NodeId

/-!
# Counter mode

A message is combined byte by byte with a keystream that depends on the key and
on the packet's id and sender only. The keystream is the encryption of successive
counter blocks, counted as 128-bit big-endian numbers from the packet's nonce.

- `crypt_crypt`: combining twice with one keystream gives the message back.
- `length_crypt`: the length of a message is kept.
-/

namespace MeshWatch.Keystream

/-- A 32-bit number as eight bytes, lowest first. -/
def wide (w : UInt32) : Bytes := Bytes.ofWord32 w ++ [0, 0, 0, 0]

/-- The first counter block of a packet: its id, then its sender. -/
def nonce (packetId : UInt32) (sender : NodeId) : Bytes := wide packetId ++ wide sender.value

/-- Bytes read as a number, highest first. -/
def number (bs : Bytes) : Nat := bs.foldl (fun n b => n * 256 + b.toNat) 0

/-- The number of the `i`-th counter block. -/
def counter (packetId : UInt32) (sender : NodeId) (i : Nat) : Nat :=
  (number (nonce packetId sender) + i) % 0x100000000000000000000000000000000

/-- Encrypted counter blocks from the `i`-th on. -/
def blocks (keys : List Bytes) (packetId : UInt32) (sender : NodeId) (i : Nat) :
    (count : Nat) → Bytes
  | 0 => []
  | n + 1 =>
    Aes.encryptBlock keys (Sha256.bigEndian 16 (counter packetId sender i))
      ++ blocks keys packetId sender (i + 1) n

/-- At least `length` bytes of keystream, filled up with zeros should a block be
short. -/
def stream (key : Bytes) (packetId : UInt32) (sender : NodeId) (length : Nat) : Bytes :=
  let bs := blocks (Aes.roundKeys key) packetId sender 0 ((length + 15) / 16)
  (bs ++ List.replicate length 0).take length

theorem length_stream (key : Bytes) (packetId : UInt32) (sender : NodeId) (length : Nat) :
    (stream key packetId sender length).length = length := by
  simp [stream]

/-- A message combined with its keystream. -/
def crypt (key : Bytes) (packetId : UInt32) (sender : NodeId) (message : Bytes) : Bytes :=
  List.zipWith (· ^^^ ·) message (stream key packetId sender message.length)

theorem length_crypt (key : Bytes) (packetId : UInt32) (sender : NodeId) (message : Bytes) :
    (crypt key packetId sender message).length = message.length := by
  simp [crypt, length_stream]

/-- Exclusive or with a list that is long enough undoes itself. -/
theorem zipWith_xor_zipWith_xor (xs ks : Bytes) (h : xs.length ≤ ks.length) :
    List.zipWith (· ^^^ ·) (List.zipWith (· ^^^ ·) xs ks) ks = xs := by
  induction xs generalizing ks with
  | nil => simp
  | cons x xs ih =>
    cases ks with
    | nil => simp at h
    | cons k ks =>
      simp only [List.length_cons, Nat.add_le_add_iff_right] at h
      rw [List.zipWith_cons_cons, List.zipWith_cons_cons, ih ks h, UInt8.xor_assoc,
        UInt8.xor_self, UInt8.xor_zero]

theorem crypt_crypt (key : Bytes) (packetId : UInt32) (sender : NodeId) (message : Bytes) :
    crypt key packetId sender (crypt key packetId sender message) = message := by
  unfold crypt
  rw [List.length_zipWith, length_stream, Nat.min_self]
  exact zipWith_xor_zipWith_xor _ _ (Nat.le_of_eq (length_stream key packetId sender _).symm)

end MeshWatch.Keystream
