import Mathlib.Data.List.Nodup
import Mathlib.Tactic.Ring
import MeshWatch.Cipher.ChannelKey
import MeshWatch.Proofs.WireRoundTrip

/-!
# Counter blocks

The first counter block of a packet holds its id and its sender, each lowest byte first and
filled up with four zero bytes. It is counted on from as a number that has its highest byte
first, so the zeros after the sender come last: they leave room for 2^32 blocks that have all
other bytes in common. Two packets that differ in id or sender differ in these other bytes.

- `number_append`, `number_injective`, `number_bigEndian`: bytes as numbers.
- `counter_eq`: a counter block is made of the id, the sender and its index.
- `stream_eq`: a keystream is made of the encrypted counter blocks.
- `no_block_twice`: no two packets share a counter block.
-/

namespace MeshWatch

theorem Bytes.ofWord32_injective {v w : UInt32} (h : ofWord32 v = ofWord32 w) : v = w := by
  simp only [ofWord32, List.cons.injEq, and_true] at h
  obtain ⟨h₀, h₁, h₂, h₃⟩ := h
  rw [← word32_ofWord32 v, h₀, h₁, h₂, h₃, word32_ofWord32]

/-- A number is split in one way only into a multiple and what is left. -/
theorem eq_and_eq_of_mul_add_eq {k a b r s : Nat} (hr : r < k) (hs : s < k)
    (h : a * k + r = b * k + s) : a = b ∧ r = s := by
  have hk : 0 < k := Nat.zero_lt_of_lt hr
  have hdiv := congrArg (· / k) h
  have hmod := congrArg (· % k) h
  simp only [Nat.mul_comm _ k, Nat.mul_add_div hk, Nat.mul_add_mod, Nat.div_eq_of_lt hr,
    Nat.div_eq_of_lt hs, Nat.mod_eq_of_lt hr, Nat.mod_eq_of_lt hs, Nat.add_zero] at hdiv hmod
  exact ⟨hdiv, hmod⟩

namespace Keystream

/-! ## Bytes as numbers -/

theorem foldl_number (n : Nat) (ys : Bytes) :
    ys.foldl (fun n b => n * 256 + b.toNat) n = n * 256 ^ ys.length + number ys := by
  induction ys generalizing n with
  | nil => simp [number]
  | cons y ys ih =>
    have hnumber : number (y :: ys) = (0 * 256 + y.toNat) * 256 ^ ys.length + number ys := ih _
    rw [List.foldl_cons, ih, hnumber, List.length_cons]
    ring

theorem number_append (xs ys : Bytes) :
    number (xs ++ ys) = number xs * 256 ^ ys.length + number ys := by
  rw [number, List.foldl_append]
  exact foldl_number _ ys

theorem number_cons (b : UInt8) (bs : Bytes) :
    number (b :: bs) = b.toNat * 256 ^ bs.length + number bs := by
  simpa [number] using number_append [b] bs

theorem number_lt (bs : Bytes) : number bs < 256 ^ bs.length := by
  induction bs with
  | nil => decide
  | cons b bs ih =>
    have hb : b.toNat + 1 ≤ 256 := b.toNat_lt
    have hle := Nat.mul_le_mul_right (256 ^ bs.length) hb
    rw [number_cons, List.length_cons, Nat.pow_succ]
    rw [Nat.add_mul, Nat.one_mul] at hle
    omega

/-- Byte strings of one length are told apart by their numbers. -/
theorem number_injective {xs : Bytes} : ∀ {ys : Bytes}, xs.length = ys.length →
    number xs = number ys → xs = ys := by
  induction xs with
  | nil =>
    intro ys hlen _
    exact (List.length_eq_zero_iff.1 hlen.symm).symm
  | cons x xs ih =>
    intro ys hlen h
    cases ys with
    | nil => cases hlen
    | cons y ys =>
      have hlen : xs.length = ys.length := Nat.succ.inj hlen
      rw [number_cons, number_cons, ← hlen] at h
      obtain ⟨hfirst, hrest⟩ := eq_and_eq_of_mul_add_eq (number_lt xs) (hlen ▸ number_lt ys) h
      rw [UInt8.toNat_inj.1 hfirst, ih hlen hrest]

theorem number_bigEndian {w : Nat} : ∀ {n : Nat}, n < 256 ^ w →
    number (Sha256.bigEndian w n) = n := by
  induction w with
  | zero =>
    intro n hn
    exact (Nat.lt_one_iff.1 hn).symm
  | succ w ih =>
    intro n hn
    have hhigh : n / 256 < 256 ^ w := Nat.div_lt_of_lt_mul (by rwa [Nat.mul_comm, ← Nat.pow_succ])
    have hlow : number [UInt8.ofNat (n % 256)] = n % 256 := by
      simp [number]
    rw [Sha256.bigEndian, number_append, ih hhigh, hlow, List.length_singleton, Nat.pow_one]
    omega

/-! ## Counter blocks -/

/-- What all counter blocks of a packet begin with, as a number. -/
def leadingNumber (packetId : UInt32) (sender : NodeId) : Nat :=
  number (wide packetId ++ Bytes.ofWord32 sender.value)

theorem leadingNumber_lt (packetId : UInt32) (sender : NodeId) :
    leadingNumber packetId sender < 256 ^ 12 := number_lt _

theorem leadingNumber_injective {p p' : UInt32} {s s' : NodeId}
    (h : leadingNumber p s = leadingNumber p' s') : p = p' ∧ s = s' := by
  have hbytes := number_injective (by rfl) h
  obtain ⟨hid, hsender⟩ := List.append_inj hbytes rfl
  exact ⟨Bytes.ofWord32_injective (List.append_inj hid rfl).1,
    NodeId.ext_value (Bytes.ofWord32_injective hsender)⟩

theorem number_nonce (packetId : UInt32) (sender : NodeId) :
    number (nonce packetId sender) = leadingNumber packetId sender * UInt32.size := by
  have hnonce : nonce packetId sender
      = (wide packetId ++ Bytes.ofWord32 sender.value) ++ [0, 0, 0, 0] := by
    rw [nonce, wide, wide, ← List.append_assoc]
  have hzeros : number [0, 0, 0, 0] = 0 := rfl
  rw [hnonce, number_append, hzeros, Nat.add_zero]
  exact congrArg (leadingNumber packetId sender * ·) (by decide)

/-- **A counter block** counts on from the nonce without a carry into the sender. -/
theorem counter_eq {packetId : UInt32} {sender : NodeId} {i : Nat} (hi : i < UInt32.size) :
    counter packetId sender i = leadingNumber packetId sender * UInt32.size + i := by
  have hleading := leadingNumber_lt packetId sender
  rw [counter, number_nonce]
  have hsize : UInt32.size = 0x100000000 := rfl
  rw [hsize] at hi ⊢
  exact Nat.mod_eq_of_lt (by omega)

/-- The counter blocks that are encrypted for a message of a length. -/
def counterBlocks (packetId : UInt32) (sender : NodeId) (length : Nat) : List Bytes :=
  (List.range ((length + 15) / 16)).map fun i => Sha256.bigEndian 16 (counter packetId sender i)

theorem blocks_eq (keys : List Bytes) (packetId : UInt32) (sender : NodeId) (count : Nat) :
    ∀ i, blocks keys packetId sender i count = (List.range' i count).flatMap fun i =>
      Aes.encryptBlock keys (Sha256.bigEndian 16 (counter packetId sender i)) := by
  induction count with
  | zero => intro i; rfl
  | succ count ih =>
    intro i
    rw [blocks, ih, List.range'_succ, List.flatMap_cons]

/-- **A keystream** is made of the encrypted counter blocks and of nothing else. -/
theorem stream_eq (key : Bytes) (packetId : UInt32) (sender : NodeId) (length : Nat) :
    stream key packetId sender length =
      ((counterBlocks packetId sender length).flatMap (Aes.encryptBlock (Aes.roundKeys key))
        ++ List.replicate length 0).take length := by
  rw [stream, blocks_eq, counterBlocks, List.flatMap_map, List.range_eq_range']

/-- The indices of the blocks of a message of at most 2^32 blocks. -/
theorem index_lt {length i : Nat} (hlen : length ≤ 16 * UInt32.size)
    (hi : i ∈ List.range ((length + 15) / 16)) : i < UInt32.size := by
  rw [List.mem_range] at hi
  omega

theorem number_counterBlocks {packetId : UInt32} {sender : NodeId} {length : Nat}
    (hlen : length ≤ 16 * UInt32.size) :
    (counterBlocks packetId sender length).map number =
      (List.range ((length + 15) / 16)).map (number (nonce packetId sender) + ·) := by
  rw [counterBlocks, List.map_map]
  refine List.map_congr_left fun i hi => ?_
  have hlt : counter packetId sender i < 256 ^ 16 := Nat.mod_lt _ (by decide)
  rw [Function.comp_apply, number_bigEndian hlt, counter_eq (index_lt hlen hi), number_nonce]

/-- **No block twice.** The keystream for a message of at most 2^32 blocks is made of the
encrypted counter blocks that follow its nonce, without a carry out of 128 bits. All of them
are different, and none of them is a counter block of a message of such a length that goes with
another id or another sender. -/
theorem no_block_twice {p p' : UInt32} {s s' : NodeId} {length length' : Nat}
    (hne : (p, s) ≠ (p', s')) (hlen : length ≤ 16 * UInt32.size)
    (hlen' : length' ≤ 16 * UInt32.size) :
    (∀ key, stream key p s length =
      ((counterBlocks p s length).flatMap (Aes.encryptBlock (Aes.roundKeys key))
        ++ List.replicate length 0).take length) ∧
    (counterBlocks p s length).map number =
      (List.range ((length + 15) / 16)).map (number (nonce p s) + ·) ∧
    (counterBlocks p s length).Nodup ∧
    ∀ block ∈ counterBlocks p s length, block ∉ counterBlocks p' s' length' := by
  have hnumbers : (counterBlocks p s length).map number =
      (List.range ((length + 15) / 16)).map (number (nonce p s) + ·) := number_counterBlocks hlen
  refine ⟨fun key => stream_eq key p s length, hnumbers, ?_, ?_⟩
  · refine List.Nodup.of_map number ?_
    rw [hnumbers]
    exact List.nodup_range.map fun _ _ h => Nat.add_left_cancel h
  · intro block hblock hblock'
    -- the number of a shared block would split into leading bytes and index in two ways
    have h := List.mem_map_of_mem (f := number) hblock
    have h' := List.mem_map_of_mem (f := number) hblock'
    rw [hnumbers, List.mem_map] at h
    rw [number_counterBlocks hlen', List.mem_map] at h'
    obtain ⟨i, hi, hnumber⟩ := h
    obtain ⟨i', hi', hnumber'⟩ := h'
    rw [number_nonce] at hnumber hnumber'
    obtain ⟨hleading, -⟩ := eq_and_eq_of_mul_add_eq (index_lt hlen hi) (index_lt hlen' hi')
      (hnumber.trans hnumber'.symm)
    obtain ⟨rfl, rfl⟩ := leadingNumber_injective hleading
    exact hne rfl

/-- Two packets of one sender, each as long as they may be. -/
theorem no_block_twice_one_sender :
    let sender : NodeId := ⟨0xa1b2c3d4⟩
    let length := 16 * UInt32.size
    nonce 1 sender = [1, 0, 0, 0, 0, 0, 0, 0, 0xd4, 0xc3, 0xb2, 0xa1, 0, 0, 0, 0] ∧
    (counterBlocks 1 sender length).Nodup ∧
    ∀ block ∈ counterBlocks 1 sender length, block ∉ counterBlocks 2 sender length := by
  intro sender length
  exact ⟨by decide, (no_block_twice (by decide) (Nat.le_refl _) (Nat.le_refl _)).2.2⟩

/-- One block more would be the first one of another sender. -/
example : counter 1 ⟨1⟩ UInt32.size = counter 1 ⟨0x01000001⟩ 0 := by decide

end Keystream

end MeshWatch
