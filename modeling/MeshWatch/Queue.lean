import MeshWatch.Monitor

/-!
# Packets from attached devices

Devices hand over packets that are read already. Between a device and the monitor
there is a queue of limited length; when it is full, further packets are dropped and
counted, and a warning is given now and then. The count of dropped packets has no bound here;
one of 64 bits says the same until 2^64 packets were dropped.

- `length_push_le`: the queue never grows beyond its capacity.
- `push_full`: a packet that finds the queue full is counted as dropped.
-/

namespace MeshWatch

/-- A device that plays back packets given to it. -/
structure Replay where
  name : String
  pending : List Packet := []

namespace Replay

/-- Adds a packet to play back. -/
def push (r : Replay) (p : Packet) : Replay := { r with pending := r.pending ++ [p] }

/-- The next packet, if there is one. -/
def poll (r : Replay) : Option Packet × Replay :=
  match r.pending with
  | p :: rest => (some p, { r with pending := rest })
  | [] => (none, r)

end Replay

/-- Packets that wait to be applied. -/
structure PacketQueue where
  /-- How many packets may wait, at least one. -/
  capacity : Nat
  waiting : List Packet := []
  /-- How many packets found it full. -/
  dropped : Nat := 0
  lastWarning : Option Tick := none

namespace PacketQueue

/-- How many packets may wait by default. -/
def defaultCapacity : Nat := 5000

/-- How far apart warnings are at least. -/
def warningGap : Span := .ofSecs 10

/-- A queue in which nothing waits. -/
def new (capacity : Nat) : PacketQueue := { capacity := max capacity 1 }

def length (q : PacketQueue) : Nat := q.waiting.length

def isEmpty (q : PacketQueue) : Bool := q.waiting.isEmpty

/-- Whether the last warning is long enough ago for another one. -/
def mayWarn (q : PacketQueue) (tick : Tick) : Bool :=
  match q.lastWarning with
  | some at' => warningGap.nanos ≤ (tick - at').toNat
  | none => true

/-- Puts a packet last, or drops it when the queue is full; tells whether it waits. -/
def push (q : PacketQueue) (p : Packet) (tick : Tick) : PacketQueue × Journal × Bool :=
  if q.waiting.length < q.capacity then ({ q with waiting := q.waiting ++ [p] }, [], true)
  else
    let dropped := q.dropped + 1
    if q.mayWarn tick then
      ({ q with dropped := dropped, lastWarning := some tick },
       [.warning (.queueFull q.capacity dropped p.sender)], false)
    else ({ q with dropped := dropped }, [], false)

theorem length_push_le {q : PacketQueue} (h : q.length ≤ q.capacity) (p : Packet) (tick : Tick) :
    (q.push p tick).1.length ≤ (q.push p tick).1.capacity := by
  unfold push
  split
  · next hlt => simpa [length] using Nat.succ_le_of_lt hlt
  · split <;> simpa [length] using h

theorem push_full {q : PacketQueue} (h : q.capacity ≤ q.length) (p : Packet) (tick : Tick) :
    (q.push p tick).1.dropped = q.dropped + 1 ∧ (q.push p tick).2.2 = false := by
  have : ¬ q.waiting.length < q.capacity := Nat.not_lt.2 h
  unfold push
  rw [if_neg this]
  split <;> simp

end PacketQueue

/-- A monitor and the queue from which it is fed. -/
structure Intake where
  monitor : Monitor
  queue : PacketQueue

namespace Intake

/-- Puts a packet into the queue; a dropped one is counted by the monitor too. -/
def push (i : Intake) (p : Packet) (tick : Tick) : Intake × Journal × Bool :=
  let (queue, told, accepted) := i.queue.push p tick
  if accepted then ({ i with queue := queue }, told, true)
  else
    ({ monitor := { i.monitor with stats := i.monitor.stats.queueDrop }, queue := queue },
     told, false)

/-- Puts several packets into the queue, and counts those accepted. -/
def pushAll (i : Intake) (tick : Tick) : List Packet → Intake × Journal × Nat
  | [] => (i, [], 0)
  | p :: ps =>
    let (i, told, accepted) := i.push p tick
    let (i, more, count) := i.pushAll tick ps
    (i, told ++ more, Stats.countIf accepted count)

/-- Moves everything that a device has into the queue. -/
def pump (i : Intake) (r : Replay) (tick : Tick) : (Intake × Replay) × Journal × Nat :=
  let (i, told, count) := i.pushAll tick r.pending
  ((i, { r with pending := [] }), told, count)

/-- Applies packets in order. -/
def applyAll (m : Monitor) (now : Moment) : List Packet → Monitor × Journal
  | [] => (m, [])
  | p :: ps =>
    let (m, told, _) := m.applyPacket p now
    let (m, more) := applyAll m now ps
    (m, told ++ more)

/-- Applies every packet that waits, and counts them. -/
def drain (i : Intake) (now : Moment) : Intake × Journal × Nat :=
  let (monitor, told) := applyAll i.monitor now i.queue.waiting
  ({ monitor := monitor, queue := { i.queue with waiting := [] } }, told, i.queue.length)

end Intake

end MeshWatch
