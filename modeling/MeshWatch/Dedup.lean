import MeshWatch.NodeId
import MeshWatch.Time.Moment
import Std.Data.ExtTreeMap

/-!
# Duplicate packets

One packet usually reaches the broker through several gateways. The cache
remembers who sent which packet id for a window of time, so that each packet is
applied once. Keys are held in a map for looking up and in a queue in the order in
which they were accepted; from the queue's front they expire, and give way when
the cache is full.

- `accept_of_mem`: a key that is still remembered is a duplicate.
- `seen_empty`: a new cache remembers nothing.
-/

namespace MeshWatch

/-- What identifies a packet. -/
structure PacketKey where
  packetId : UInt32
  sender : NodeId
deriving DecidableEq, Repr, Inhabited

namespace PacketKey

/-- The key as one number, by which keys are ordered. -/
def code (k : PacketKey) : Nat := k.packetId.toNat * UInt32.size + k.sender.value.toNat

theorem code_inj {a b : PacketKey} (h : a.code = b.code) : a = b := by
  obtain ⟨p, s⟩ := a
  obtain ⟨q, t⟩ := b
  have hs : s.value.toNat < 2 ^ 32 := s.value.toNat_lt
  have ht : t.value.toNat < 2 ^ 32 := t.value.toNat_lt
  simp only [code, UInt32.size] at h
  have h1 : p.toNat = q.toNat := by omega
  have h2 : s.value.toNat = t.value.toNat := by omega
  have e1 : p = q := UInt32.toNat_inj.1 h1
  have e2 : s = t := NodeId.ext_value (UInt32.toNat_inj.1 h2)
  rw [e1, e2]

instance : Ord PacketKey := ⟨fun a b => compare a.code b.code⟩

instance : Std.TransOrd PacketKey where
  eq_swap {a b} := @Std.OrientedCmp.eq_swap Nat compare _ a.code b.code
  isLE_trans {a b c} := @Std.TransCmp.isLE_trans Nat compare _ a.code b.code c.code

instance : Std.LawfulEqOrd PacketKey where
  compare_self {a} := @Std.ReflCmp.compare_self Nat compare _ a.code
  eq_of_compare h :=
    code_inj (@Std.LawfulEqCmp.eq_of_compare Nat compare _ _ _ h)

end PacketKey

/-- When each remembered key was accepted. -/
abbrev SeenKeys := Std.ExtTreeMap PacketKey Moment

/-- The packets seen lately. -/
structure DedupCache where
  window : Span
  /-- The greatest number of remembered keys, at least one. -/
  capacity : Nat
  seen : SeenKeys
  /-- The remembered keys with their times, first accepted first. -/
  order : List (PacketKey × Moment)

namespace DedupCache

/-- How long packets are remembered by default. -/
def defaultWindow : Span := .ofSecs 300

/-- How many packets are remembered by default. -/
def defaultCapacity : Nat := 10000

/-- A cache that remembers nothing yet. -/
def empty (window : Span) (maxEntries : Nat) : DedupCache := ⟨window, max maxEntries 1, ∅, []⟩

/-- The cache that is used when nothing is configured. -/
def standard : DedupCache := empty defaultWindow defaultCapacity

theorem seen_empty (window : Span) (maxEntries : Nat) (k : PacketKey) :
    (empty window maxEntries).seen[k]? = none := by simp [empty]

/-- Forgets a key, unless it was accepted again since. -/
def forget (seen : SeenKeys) (k : PacketKey) (accepted : Moment) : SeenKeys :=
  if seen[k]? = some accepted then seen.erase k else seen

/-- Drops keys from the front of the queue that are older than the window. -/
def dropExpired (window : Span) (now : Moment) (seen : SeenKeys) :
    List (PacketKey × Moment) → SeenKeys × List (PacketKey × Moment)
  | [] => (seen, [])
  | (k, at') :: rest =>
    if now.within at' window then (seen, (k, at') :: rest)
    else dropExpired window now (forget seen k at') rest

/-- Drops keys from the front of the queue until it is shorter than the capacity. -/
def makeRoom (capacity : Nat) (seen : SeenKeys) :
    List (PacketKey × Moment) → SeenKeys × List (PacketKey × Moment)
  | [] => (seen, [])
  | (k, at') :: rest =>
    if capacity ≤ rest.length + 1 then makeRoom capacity (forget seen k at') rest
    else (seen, (k, at') :: rest)

/-- Whether a packet was seen within the window; it is remembered if it was not. -/
def accept (c : DedupCache) (k : PacketKey) (now : Moment) : Bool × DedupCache :=
  let (seen, order) := dropExpired c.window now c.seen c.order
  if seen.contains k then (true, { c with seen := seen, order := order })
  else
    let (seen, order) := makeRoom c.capacity seen order
    (false, { c with seen := seen.insert k now, order := order ++ [(k, now)] })

theorem accept_of_mem {c : DedupCache} {k : PacketKey} {now : Moment}
    (h : (dropExpired c.window now c.seen c.order).1.contains k = true) :
    (c.accept k now).1 = true := by simp [accept, h]

/-- The number of remembered keys. -/
def size (c : DedupCache) : Nat := c.seen.size

def isEmpty (c : DedupCache) : Bool := c.seen.isEmpty

/-- Forgets everything. -/
def clear (c : DedupCache) : DedupCache := { c with seen := ∅, order := [] }

end DedupCache

end MeshWatch
