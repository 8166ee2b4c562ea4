import Mathlib.Data.List.Basic
import MeshWatch.Queue

/-!
# Every packet is accounted for

Between a device and the monitor a packet may be refused, and it may have to wait. Two books
are kept of that here. One has every packet that was pushed, with the answer of the queue,
and the other every packet that was applied, with the time. The queue and the monitor are
what these books say: what was accepted and not applied waits, in the order in which it was
pushed, and what was refused is counted twice, on the queue and on the monitor.

- `Intake.pump_of_poll`: a pump polls the device until nothing is left.
- `Intake.push_cases`: a packet waits, or it is counted as dropped.
- `Books`: what the books say. `Books.push`, `Books.pushAll`, `Books.drain`: what they say
  after a packet, several packets and a drain, and `Books.served`: after any calls.
- `nothing_lost_silently`: all of it, for every queue.
-/

namespace MeshWatch

namespace Monitor

/-- Applies packets, each at its own time. -/
def applyEach (m : Monitor) (ps : List (Packet × Moment)) : Monitor :=
  ps.foldl (fun m e => (m.applyPacket e.1 e.2).1) m

/-- Counts packets that found the queue full. -/
def countDrops (m : Monitor) (n : Nat) : Monitor :=
  { m with stats := { m.stats with queueDrops := m.stats.queueDrops + n } }

theorem countDrops_countDrops (m : Monitor) (n k : Nat) :
    (m.countDrops n).countDrops k = m.countDrops (n + k) := by
  simp only [countDrops, Nat.add_assoc]

/-- Packets are applied alike whatever was dropped before. -/
theorem applyPacket_countDrops (m : Monitor) (n : Nat) (p : Packet) (now : Moment) :
    ((m.countDrops n).applyPacket p now).1 = (m.applyPacket p now).1.countDrops n := by
  rcases hreport : m.mesh.apply p now with ⟨mesh, told, report⟩
  simp only [applyPacket, countDrops, hreport]
  cases report.duplicate <;> rfl

theorem applyEach_countDrops (n : Nat) (ps : List (Packet × Moment)) : ∀ m : Monitor,
    (m.countDrops n).applyEach ps = (m.applyEach ps).countDrops n := by
  induction ps with
  | nil => intro m; rfl
  | cons e ps ih =>
    intro m
    show ((m.countDrops n).applyPacket e.1 e.2).1.applyEach ps = _
    rw [applyPacket_countDrops, ih]
    rfl

theorem queueDrops_applyEach (ps : List (Packet × Moment)) : ∀ m : Monitor,
    (m.applyEach ps).stats.queueDrops = m.stats.queueDrops := by
  induction ps with
  | nil => intro m; rfl
  | cons e ps ih =>
    intro m
    have hone : (m.applyPacket e.1 e.2).1.stats.queueDrops = m.stats.queueDrops := by
      simp only [applyPacket]
      split <;> rfl
    rw [← hone]
    exact ih _

end Monitor

namespace Intake

/-! ## Calls and their books -/

/-- What is asked of an intake: to take a packet, all packets of a device, or to apply what
waits. -/
inductive Call where
  | push (p : Packet) (tick : Tick)
  | pump (r : Replay) (tick : Tick)
  | drain (now : Moment)

/-- The packets that a call brings. -/
def Call.packets : Call → List Packet
  | push p _ => [p]
  | pump r _ => r.pending
  | drain _ => []

/-- Does what is asked for. -/
def serve (i : Intake) : Call → Intake
  | .push p tick => (i.push p tick).1
  | .pump r tick => (i.pump r tick).1.1
  | .drain now => (i.drain now).1

/-- The intake after several calls. -/
def served (i : Intake) (calls : List Call) : Intake := calls.foldl serve i

/-- Packets that are pushed one after the other, and whether each of them was accepted. -/
def answers (i : Intake) (tick : Tick) : List Packet → List (Packet × Bool)
  | [] => []
  | p :: ps => (p, (i.push p tick).2.2) :: answers (i.push p tick).1 tick ps

/-- The packets that a call pushes, with the answers of the queue. -/
def pushes (i : Intake) : Call → List (Packet × Bool)
  | .push p tick => i.answers tick [p]
  | .pump r tick => i.answers tick r.pending
  | .drain _ => []

/-- The packets that a call applies, with the time. -/
def applies (i : Intake) : Call → List (Packet × Moment)
  | .push .. => []
  | .pump .. => []
  | .drain now => i.queue.waiting.map fun p => (p, now)

/-- The book of all packets that were pushed. -/
def pushed (i : Intake) : List Call → List (Packet × Bool)
  | [] => []
  | c :: calls => i.pushes c ++ pushed (i.serve c) calls

/-- The book of all packets that were applied. -/
def applied (i : Intake) : List Call → List (Packet × Moment)
  | [] => []
  | c :: calls => i.applies c ++ applied (i.serve c) calls

/-- The packets in a book that were accepted, first pushed first. -/
def accepted (book : List (Packet × Bool)) : List Packet := (book.filter Prod.snd).map Prod.fst

/-- The packets in a book that were refused. -/
def refused (book : List (Packet × Bool)) : List Packet :=
  (book.filter fun e => !e.2).map Prod.fst

@[simp] theorem accepted_append (book more : List (Packet × Bool)) :
    accepted (book ++ more) = accepted book ++ accepted more := by
  simp [accepted]

@[simp] theorem refused_append (book more : List (Packet × Bool)) :
    refused (book ++ more) = refused book ++ refused more := by
  simp [refused]

theorem length_book (book : List (Packet × Bool)) :
    book.length = (accepted book).length + (refused book).length := by
  rw [accepted, refused, List.length_map, List.length_map]
  exact List.length_eq_length_filter_add Prod.snd

theorem packets_answers (tick : Tick) (ps : List Packet) : ∀ i : Intake,
    (i.answers tick ps).map Prod.fst = ps := by
  induction ps with
  | nil => intro i; rfl
  | cons p ps ih => intro i; rw [answers, List.map_cons, ih]

/-- Every packet that a call brings is in the book. -/
theorem packets_pushed (calls : List Call) : ∀ i : Intake,
    (i.pushed calls).map Prod.fst = calls.flatMap Call.packets := by
  induction calls with
  | nil => intro i; rfl
  | cons c calls ih =>
    intro i
    have hone : (i.pushes c).map Prod.fst = c.packets := by
      cases c with
      | push p tick => exact i.packets_answers tick [p]
      | pump r tick => exact i.packets_answers tick r.pending
      | drain now => rfl
    rw [pushed, List.map_append, hone, ih, List.flatMap_cons]

/-! ## Single calls -/

/-- **A pump** polls a packet, pushes it and goes on, until the device has nothing left. -/
theorem pump_of_poll (i : Intake) {r r' : Replay} {p : Packet} (h : r.poll = (some p, r'))
    (tick : Tick) :
    i.pump r tick =
      let (i, told, accepted) := i.push p tick
      let (after, more, count) := i.pump r' tick
      (after, told ++ more, Stats.countIf accepted count) := by
  obtain ⟨name, pending⟩ := r
  cases pending with
  | nil => cases h
  | cons q rest =>
    cases h
    rfl

/-- A packet waits if there is room for it. If there is none it is counted, on the queue and
on the monitor, and a warning may be given. -/
theorem push_cases (i : Intake) (p : Packet) (tick : Tick) :
    (i.queue.length < i.queue.capacity ∧ (i.push p tick).2.2 = true ∧
      (i.push p tick).1 = { i with queue := { i.queue with waiting := i.queue.waiting ++ [p] } }) ∨
    (i.queue.capacity ≤ i.queue.length ∧ (i.push p tick).2.2 = false ∧ ∃ lastWarning,
      (i.push p tick).1 =
        ⟨i.monitor.countDrops 1,
          { i.queue with dropped := i.queue.dropped + 1, lastWarning := lastWarning }⟩) := by
  unfold push PacketQueue.push
  by_cases hroom : i.queue.waiting.length < i.queue.capacity
  · rw [if_pos hroom]
    exact Or.inl ⟨hroom, rfl, rfl⟩
  · rw [if_neg hroom]
    refine Or.inr ⟨Nat.not_lt.1 hroom, ?_⟩
    cases i.queue.mayWarn tick <;> exact ⟨rfl, _, rfl⟩

/-- The number of packets that a device had and that were accepted. -/
theorem count_pushAll (tick : Tick) (ps : List Packet) : ∀ i : Intake,
    (i.pushAll tick ps).2.2 = (accepted (i.answers tick ps)).length := by
  induction ps with
  | nil => intro i; rfl
  | cons p ps ih =>
    intro i
    show Stats.countIf (i.push p tick).2.2 ((i.push p tick).1.pushAll tick ps).2.2 = _
    rw [ih, answers]
    cases hp : (i.push p tick).2.2 <;> rfl

theorem applyAll_eq (now : Moment) (ps : List Packet) : ∀ m : Monitor,
    (applyAll m now ps).1 = m.applyEach (ps.map fun p => (p, now)) := by
  induction ps with
  | nil => intro m; rfl
  | cons p ps ih => intro m; exact ih _

/-! ## What the books say -/

/-- The queue and the monitor are those that come of the packets in the books. -/
structure Books (size : Nat) (start : Monitor) (pushed : List (Packet × Bool))
    (applied : List (Packet × Moment)) (i : Intake) : Prop where
  capacity : i.queue.capacity = max size 1
  fits : i.queue.length ≤ max size 1
  order : applied.map Prod.fst ++ i.queue.waiting = accepted pushed
  dropped : i.queue.dropped = (refused pushed).length
  monitor : i.monitor = (start.applyEach applied).countDrops i.queue.dropped

theorem books_new (start : Monitor) (size : Nat) : Books size start [] [] ⟨start, .new size⟩ :=
  ⟨rfl, Nat.zero_le _, rfl, rfl, rfl⟩

namespace Books

variable {size : Nat} {start : Monitor} {book : List (Packet × Bool)}
  {applied : List (Packet × Moment)} {i : Intake}

/-- **A packet** is refused if and only if the queue is full. -/
theorem refused_iff (h : Books size start book applied i) (p : Packet) (tick : Tick) :
    (i.push p tick).2.2 = false ↔ i.queue.length = max size 1 := by
  have hcapacity := h.capacity
  have hfits := h.fits
  rcases i.push_cases p tick with ⟨hroom, ht, -⟩ | ⟨hfull, hf, -⟩
  · rw [ht]
    exact iff_of_false nofun (by omega)
  · exact iff_of_true hf (by omega)

theorem push (h : Books size start book applied i) (p : Packet) (tick : Tick) :
    Books size start (book ++ [(p, (i.push p tick).2.2)]) applied (i.push p tick).1 := by
  rcases i.push_cases p tick with ⟨hroom, ht, he⟩ | ⟨-, hf, lastWarning, he⟩
  · rw [ht, he]
    refine ⟨h.capacity, ?_, ?_, ?_, h.monitor⟩
    · rw [← h.capacity]
      show (i.queue.waiting ++ [p]).length ≤ i.queue.capacity
      rw [List.length_append]
      exact hroom
    · rw [accepted_append, ← h.order, List.append_assoc]
      rfl
    · rw [refused_append]
      show i.queue.dropped = (refused book ++ []).length
      rw [List.append_nil]
      exact h.dropped
  · rw [hf, he]
    refine ⟨h.capacity, h.fits, ?_, ?_, ?_⟩
    · rw [accepted_append]
      show _ = accepted book ++ []
      rw [List.append_nil]
      exact h.order
    · rw [refused_append, List.length_append, ← h.dropped]
      rfl
    · show i.monitor.countDrops 1 = _
      rw [h.monitor, Monitor.countDrops_countDrops]

theorem pushAll (tick : Tick) (ps : List Packet) :
    ∀ {i : Intake} {book : List (Packet × Bool)}, Books size start book applied i →
      Books size start (book ++ i.answers tick ps) applied (i.pushAll tick ps).1 := by
  induction ps with
  | nil =>
    intro i book h
    rw [answers, List.append_nil]
    exact h
  | cons p ps ih =>
    intro i book h
    have hrest := ih (h.push p tick)
    rw [List.append_assoc] at hrest
    exact hrest

/-- **A drain** applies what waits, in order. -/
theorem drain (h : Books size start book applied i) (now : Moment) :
    Books size start book (applied ++ i.applies (.drain now)) (i.drain now).1 := by
  refine ⟨h.capacity, Nat.zero_le _, ?_, h.dropped, ?_⟩
  · show (applied ++ i.queue.waiting.map fun p => (p, now)).map Prod.fst ++ [] = _
    rw [← h.order, List.append_nil, List.map_append, List.map_map]
    exact congrArg _ (List.map_id _)
  · show (applyAll i.monitor now i.queue.waiting).1 = _
    rw [applyAll_eq, h.monitor, Monitor.applyEach_countDrops, Monitor.applyEach, Monitor.applyEach,
      Monitor.applyEach, List.foldl_append]
    rfl

theorem serve (h : Books size start book applied i) (c : Call) :
    Books size start (book ++ i.pushes c) (applied ++ i.applies c) (i.serve c) := by
  cases c with
  | push p tick =>
    rw [applies, List.append_nil]
    exact h.push p tick
  | pump r tick =>
    rw [applies, List.append_nil]
    exact h.pushAll tick r.pending
  | drain now =>
    rw [pushes, List.append_nil]
    exact h.drain now

theorem served {calls : List Call} : ∀ {i : Intake} {book : List (Packet × Bool)}
    {applied : List (Packet × Moment)}, Books size start book applied i →
      Books size start (book ++ i.pushed calls) (applied ++ i.applied calls)
        (i.served calls) := by
  induction calls with
  | nil =>
    intro i book applied h
    rw [pushed, Intake.applied, List.append_nil, List.append_nil]
    exact h
  | cons c calls ih =>
    intro i book applied h
    have hrest := ih (h.serve c)
    rw [List.append_assoc, List.append_assoc] at hrest
    exact hrest

end Books

/-- **Nothing is lost silently.** Whatever is asked of a queue between devices and a monitor,
and in whatever order: every packet that was pushed is in the book. What was accepted was
applied or waits, each packet once and in the order in which they were pushed, and nothing
else was done to the monitor than to apply these packets and to count those dropped. Dropped
is what was refused, and the counters of queue and monitor agree on it. There never wait more
packets than fit, and a packet is refused exactly if so many wait. A pump leaves the device
with nothing and tells how many of its packets were accepted, and a drain leaves nothing
waiting. -/
theorem nothing_lost_silently (monitor : Monitor) (capacity : Nat) (calls : List Call) :
    let start : Intake := ⟨monitor, .new capacity⟩
    let i := start.served calls
    let pushed := start.pushed calls
    let applied := start.applied calls
    pushed.map Prod.fst = calls.flatMap Call.packets ∧
    applied.map Prod.fst ++ i.queue.waiting = accepted pushed ∧
    i.monitor = (monitor.applyEach applied).countDrops i.queue.dropped ∧
    i.queue.dropped = (refused pushed).length ∧
    i.monitor.stats.queueDrops = monitor.stats.queueDrops + i.queue.dropped ∧
    pushed.length = applied.length + i.queue.length + i.queue.dropped ∧
    i.queue.length ≤ max capacity 1 ∧
    (∀ p tick, (i.push p tick).2.2 = false ↔ i.queue.length = max capacity 1) ∧
    (∀ r tick, (i.pump r tick).1.2.poll.1 = none ∧
      (i.pump r tick).2.2 = (accepted (i.pushes (.pump r tick))).length) ∧
    ∀ now, (i.drain now).1.queue.length = 0 ∧ (i.drain now).2.2 = i.queue.length := by
  intro start i pushed applied
  have h : Books capacity monitor pushed applied i := (books_new monitor capacity).served
  refine ⟨start.packets_pushed calls, h.order, h.monitor, h.dropped, ?_, ?_, h.fits, h.refused_iff,
    fun r tick => ⟨rfl, i.count_pushAll tick r.pending⟩, fun now => ⟨rfl, rfl⟩⟩
  · rw [h.monitor]
    show (monitor.applyEach applied).stats.queueDrops + _ = _
    rw [Monitor.queueDrops_applyEach]
  · have hwaiting := congrArg List.length h.order
    rw [List.length_append, List.length_map] at hwaiting
    rw [length_book, ← hwaiting, h.dropped]
    rfl

/-- In a queue made for no packet at all one may wait. A device brings three, and after a drain
there is room for one more. -/
example :
    let packet (id : UInt32) : Packet :=
      { packetId := id, sender := ⟨0x1001⟩, recipient := .broadcast, gateway := none
        channelName := "", channelIndex := 0, hopLimit := 3, hopStart := 3, rxSnr := none
        rxRssi := none, rxTime := none, relay := none, wantAck := false, encrypted := false
        payload := .sealed }
    let start : Intake := ⟨⟨Mesh.new {} "" {}, {}, {}, .standard⟩, .new 0⟩
    let calls : List Call :=
      [.pump ⟨"replay", [1, 2, 3].map packet⟩ 0, .drain (.ofSecs 10), .push (packet 4) 0]
    (start.pushed calls).map Prod.snd = [true, false, false, true] ∧
    (start.applied calls).map (fun e => e.1.packetId) = [1] ∧
    (start.served calls).queue.waiting.map Packet.packetId = [4] ∧
    (start.served calls).queue.dropped = 2 := by
  decide

end Intake

end MeshWatch
