import MeshWatch.Proofs.EventStream
import MeshWatch.Proofs.Lasting

/-!
# What the counters tell

A monitor takes in broker messages, and packets that were read elsewhere. What becomes of
each of them is one outcome, and one counter at most stands for that outcome. The counters
of texts, positions and telemetry go up only for packets that were read in full, and for
each of these at most one of them.

- `Acts`: a call does one operation to the mesh, or tells nothing that others could see.
- `Counts`: what one call adds to the counters. `counts_serve`: every call adds that.
- `every_message_counted`: the counters after any calls.
-/

namespace MeshWatch

/-- A message was refused. -/
def Outcome.isRejection : Outcome → Bool
  | .rejected _ => true
  | _ => false

theorem Stats.countIf_eq (b : Bool) (n : Nat) : Stats.countIf b n = n + b.toNat := by
  cases b <;> rfl

namespace Monitor

/-! ## Calls -/

/-- What is asked of a monitor: a step of its traffic, or to apply a packet. -/
inductive Call where
  | step (s : Step)
  | packet (p : Packet) (now : Moment)

/-- A call, what was told during it and what became of its message. -/
structure Answer where
  call : Call
  told : Journal
  outcome : Option Outcome

namespace Call

def isMessage : Call → Bool
  | step ⟨.message .., _⟩ => true
  | _ => false

def isPacket : Call → Bool
  | packet .. => true
  | _ => false

end Call

namespace Answer

/-- The call was about a message, and that was neither a status nor ignored. -/
def isCounted (a : Answer) : Bool :=
  a.call.isMessage && a.outcome != some .status && a.outcome != some .ignored

end Answer

/-- Does what is asked for. -/
def serve (m : Monitor) : Call → Monitor × Journal × Option Outcome
  | .step s => m.perform s
  | .packet p now =>
    let (m, told, outcome) := m.applyPacket p now
    (m, told, some outcome)

/-- The monitor after several calls. -/
def served (m : Monitor) (calls : List Call) : Monitor :=
  calls.foldl (fun m c => (m.serve c).1) m

/-- The answers to several calls. -/
def answers (m : Monitor) : List Call → List Answer
  | [] => []
  | c :: calls => ⟨c, (m.serve c).2.1, (m.serve c).2.2⟩ :: answers (m.serve c).1 calls

theorem calls_answers {calls : List Call} : ∀ m : Monitor,
    (m.answers calls).map Answer.call = calls := by
  induction calls with
  | nil => intro m; rfl
  | cons c calls ih => intro m; rw [answers, List.map_cons, ih]

/-! ## What a call does to the mesh -/

/-- The monitor does to its mesh what one operation other than a restoration does, and
tells that; or it leaves the mesh alone and tells no events. -/
def Acts (m m' : Mesh) (told : Journal) : Prop :=
  (∃ s : Mesh.Step, s.operation.isRestoration = false ∧
    m' = (m.perform s).1 ∧ told = (m.perform s).2) ∨
  (m' = m ∧ Journal.events told = [])

theorem operation_ne_restoration {s : Step} {r : Receiver} {op : Mesh.Step}
    (h : s.operation? r = some op) : op.operation.isRestoration = false := by
  rcases operation?_cases h with ⟨p, rfl⟩ | ⟨id, rfl⟩ | rfl
  · rfl
  · rfl
  · rfl

theorem Acts.perform {m : Mesh} (s : Mesh.Step) (hs : s.operation.isRestoration = false) :
    Acts m (m.perform s).1 (m.perform s).2 := Or.inl ⟨s, hs, rfl, rfl⟩

theorem Acts.speaks {m m' : Mesh} {told : Journal} (h : Acts m m' told) :
    Mesh.Speaks (Mesh.received told) m m' told := by
  rcases h with ⟨s, hs, rfl, rfl⟩ | ⟨rfl, ht⟩
  · have hspeaks := Mesh.speaks_perform m s hs
    refine ⟨rfl, ?_⟩
    rw [hspeaks.messages, hspeaks.received]
  · refine ⟨rfl, ?_⟩
    rw [Mesh.received, ht]
    rfl

theorem acts_applyPacket (m : Monitor) (p : Packet) (now : Moment) :
    Acts m.mesh (m.applyPacket p now).1.mesh (m.applyPacket p now).2.1 := by
  obtain ⟨hmesh, htold⟩ := m.mesh_applyPacket p now
  rw [hmesh, htold]
  exact Acts.perform ⟨.packet p, now⟩ rfl

theorem acts_perform (m : Monitor) (s : Step) :
    Acts m.mesh (m.perform s).1.mesh (m.perform s).2.1 := by
  have hdoes := m.does_perform s
  cases hop : s.operation? m.receiver with
  | none =>
    rw [hop] at hdoes
    exact Or.inr hdoes
  | some op =>
    rw [hop] at hdoes
    exact Or.inl ⟨op, operation_ne_restoration hop, hdoes⟩

theorem acts_serve (m : Monitor) (c : Call) :
    Acts m.mesh (m.serve c).1.mesh (m.serve c).2.1 := by
  cases c with
  | packet p now => exact acts_applyPacket m p now
  | step s => exact acts_perform m s

theorem limits_acts {m m' : Mesh} {told : Journal} (h : Acts m m' told) : m'.limits = m.limits := by
  rcases h with ⟨s, -, rfl, -⟩ | ⟨rfl, -⟩
  · exact Mesh.limits_perform m s
  · rfl

/-! ## What a packet adds -/

/-- A text, a valid position and telemetry are different bodies, and none of them is one
that could not be read. -/
theorem one_update (p : Packet) :
    (Mesh.addsMessage p.payload).toNat
      + (p.nodeUpdate.position.bind PositionReport.coordinates).isSome.toNat
      + p.nodeUpdate.telemetry.isSome.toNat ≤ (!p.isHeaderOnly).toNat := by
  unfold Packet.nodeUpdate Packet.isHeaderOnly
  cases p.payload with
  | sealed => exact Nat.le_refl 0
  | position r =>
    show 0 + r.coordinates.isSome.toNat + 0 ≤ 1
    rw [Nat.zero_add]
    exact Bool.toNat_le _
  | text | telemetry => exact Nat.le_refl 1
  | _ => exact Nat.zero_le 1

theorem report_applyNew (m : Mesh) (p : Packet) (now : Moment) {mesh : Mesh} {told : Journal}
    {report : ApplyReport} (h : m.applyNew p now = (mesh, told, report)) :
    report.duplicate = false ∧
    report.messageAdded.toNat + report.positionUpdated.toNat + report.telemetryUpdated.toNat
      ≤ (!p.isHeaderOnly).toNat ∧
    (Mesh.received told).length = report.messageAdded.toNat := by
  cases hp : p.hasUsableSender with
  | false =>
    rw [Mesh.applyNew_unusable hp] at h
    cases h
    exact ⟨rfl, Nat.zero_le _, rfl⟩
  | true =>
    have hreceived := (Mesh.speaks_applyNew m now hp).received
    rw [h] at hreceived
    simp only [Mesh.applyNew, hp, if_true, Prod.mk.injEq] at h
    obtain ⟨-, -, rfl⟩ := h
    refine ⟨rfl, one_update p, ?_⟩
    rw [hreceived, Mesh.brought]
    cases p.payload <;> rfl

/-- A packet was dropped as a repetition, or applied and counted by its report. -/
theorem applyPacket_cases (m : Monitor) (p : Packet) (now : Moment) : ∃ dedup,
    (m.mesh.isRepeated p now = true ∧ m.applyPacket p now =
      ({ m with mesh := { m.mesh with dedup := dedup }, stats := m.stats.duplicate }, [],
        .duplicate)) ∨
    (m.mesh.isRepeated p now = false ∧ ∃ mesh told report,
      { m.mesh with dedup := dedup }.applyNew p now = (mesh, told, report) ∧
      m.applyPacket p now =
        ({ m with
            mesh := mesh
            stats := m.stats.applied p.isHeaderOnly report.telemetryUpdated
              report.positionUpdated report.messageAdded },
          told, if p.isHeaderOnly then .headerOnly else .applied)) := by
  obtain ⟨dedup, ⟨hr, he⟩ | ⟨hr, he⟩⟩ := m.mesh.apply_cases p now
  · refine ⟨dedup, Or.inl ⟨hr, ?_⟩⟩
    rw [applyPacket, he]
    rfl
  · refine ⟨dedup, Or.inr ⟨hr, ?_⟩⟩
    rcases hnew : Mesh.applyNew { m.mesh with dedup := dedup } p now with ⟨mesh, told, report⟩
    refine ⟨mesh, told, report, rfl, ?_⟩
    have hfirst : report.duplicate = false := (report_applyNew _ p now hnew).1
    rw [applyPacket, he, hnew]
    show (if report.duplicate = true then _ else _) = _
    rw [hfirst]
    rfl

/-! ## What a call adds -/

/-- What is added to the counters for a number of messages, by what was told and by what
became of them. -/
structure Counts (messages : Nat) (told : Journal) (outcome : Option Outcome)
    (before after : Stats) : Prop where
  received : after.messagesReceived = before.messagesReceived + messages
  decoded : after.messagesDecoded = before.messagesDecoded + (outcome == some .applied).toNat
  headerOnly : after.headerOnly = before.headerOnly + (outcome == some .headerOnly).toNat
  duplicates :
    after.duplicatesDropped = before.duplicatesDropped + (outcome == some .duplicate).toNat
  rejected : after.messagesRejected
    = before.messagesRejected + (outcome.any Outcome.isRejection).toNat
  texts : after.textMessages = before.textMessages + (Mesh.received told).length
  updates :
    after.textMessages + after.positionUpdates + after.telemetryUpdates + before.messagesDecoded
      ≤ before.textMessages + before.positionUpdates + before.telemetryUpdates
        + after.messagesDecoded

theorem Counts.ofMessage {told : Journal} {outcome : Option Outcome} {before after : Stats}
    {now : Moment} (h : Counts 0 told outcome (before.received now) after) :
    Counts 1 told outcome before after :=
  ⟨h.received, h.decoded, h.headerOnly, h.duplicates, h.rejected, h.texts, h.updates⟩

theorem counts_applyPacket (m : Monitor) (p : Packet) (now : Moment) :
    Counts 0 (m.applyPacket p now).2.1 (some (m.applyPacket p now).2.2) m.stats
      (m.applyPacket p now).1.stats := by
  obtain ⟨dedup, ⟨-, he⟩ | ⟨-, mesh, told, report, happly, he⟩⟩ := m.applyPacket_cases p now
  · rw [he]
    exact ⟨rfl, rfl, rfl, rfl, rfl, rfl, Nat.le_refl _⟩
  · obtain ⟨-, hone, htold⟩ := report_applyNew _ p now happly
    rw [he]
    have htexts : Stats.countIf report.messageAdded m.stats.textMessages
        = m.stats.textMessages + (Mesh.received told).length := by
      rw [Stats.countIf_eq, htold]
    have hupdates : Stats.countIf report.messageAdded m.stats.textMessages
          + Stats.countIf report.positionUpdated m.stats.positionUpdates
          + Stats.countIf report.telemetryUpdated m.stats.telemetryUpdates
          + m.stats.messagesDecoded
        ≤ m.stats.textMessages + m.stats.positionUpdates + m.stats.telemetryUpdates
          + Stats.countIf (!p.isHeaderOnly) m.stats.messagesDecoded := by
      simp only [Stats.countIf_eq]
      omega
    cases hh : p.isHeaderOnly with
    | false =>
      rw [hh] at hupdates
      exact ⟨rfl, rfl, rfl, rfl, rfl, htexts, hupdates⟩
    | true =>
      rw [hh] at hupdates
      exact ⟨rfl, rfl, rfl, rfl, rfl, htexts, hupdates⟩

theorem counts_reject (m : Monitor) (fault : DecodeFault) (tick : Tick) :
    Counts 0 (m.reject fault tick).2.1 (some (m.reject fault tick).2.2) m.stats
      (m.reject fault tick).1.stats := by
  refine ⟨rfl, rfl, rfl, rfl, rfl, ?_, Nat.le_refl _⟩
  rw [Mesh.received, events_reject]
  rfl

/-- Heartbeats of gateways and what is not tracked are only received. -/
theorem Counts.nothing {told : Journal} {outcome : Outcome} (s : Stats)
    (ho : outcome = .status ∨ outcome = .ignored) (ht : Mesh.received told = []) :
    Counts 0 told (some outcome) s s := by
  rcases ho with rfl | rfl
  · exact ⟨rfl, rfl, rfl, rfl, rfl, by rw [ht]; rfl, Nat.le_refl _⟩
  · exact ⟨rfl, rfl, rfl, rfl, rfl, by rw [ht]; rfl, Nat.le_refl _⟩

theorem counts_takeStatus (m : Monitor) (t : Topic) (body : Bytes) (now : Moment) :
    Counts 0 (m.takeStatus t body now).2.1 (some (m.takeStatus t body now).2.2) m.stats
      (m.takeStatus t body now).1.stats := by
  rw [stats_takeStatus]
  unfold takeStatus
  split
  · next id _ =>
    split
    · exact Counts.nothing m.stats (Or.inl rfl) (Mesh.speaks_updateNode m.mesh id {} now).received
    · exact Counts.nothing m.stats (Or.inl rfl) rfl
  · exact Counts.nothing m.stats (Or.inl rfl) rfl

theorem counts_dispatch (m : Monitor) (topic : String) (body : Bytes) (now : Moment)
    (tick : Tick) :
    Counts 0 (m.dispatch topic body now tick).2.1 (some (m.dispatch topic body now tick).2.2)
      m.stats (m.dispatch topic body now tick).1.stats := by
  unfold dispatch
  split
  · exact counts_reject m _ tick
  · split
    · exact counts_takeStatus m _ body now
    · exact Counts.nothing m.stats (Or.inr rfl) rfl
    · split
      · exact counts_reject m _ tick
      · exact counts_applyPacket m _ now

theorem counts_serve (m : Monitor) (c : Call) :
    Counts c.isMessage.toNat (m.serve c).2.1 (m.serve c).2.2 m.stats (m.serve c).1.stats := by
  cases c with
  | packet p now => exact counts_applyPacket m p now
  | step s =>
    obtain ⟨input, now⟩ := s
    cases input with
    | message topic body tick =>
      exact (counts_dispatch { m with stats := m.stats.received now } topic body now tick).ofMessage
    | sweep =>
      have hquiet := (Mesh.speaks_perform m.mesh ⟨.sweep, now⟩ rfl).received
      refine ⟨rfl, rfl, rfl, rfl, rfl, ?_, Nat.le_refl _⟩
      exact congrArg (fun xs => m.stats.textMessages + xs.length) hquiet.symm

/-! ## Several calls -/

/-- Everything that several calls told. -/
def toldBy (answers : List Answer) : Journal := answers.flatMap Answer.told

/-- What several calls with these answers add to the counters. -/
structure Tally (answers : List Answer) (before after : Stats) : Prop where
  received :
    after.messagesReceived = before.messagesReceived + answers.countP (·.call.isMessage)
  decoded :
    after.messagesDecoded = before.messagesDecoded + answers.countP (·.outcome == some .applied)
  headerOnly :
    after.headerOnly = before.headerOnly + answers.countP (·.outcome == some .headerOnly)
  duplicates : after.duplicatesDropped
    = before.duplicatesDropped + answers.countP (·.outcome == some .duplicate)
  rejected : after.messagesRejected
    = before.messagesRejected + answers.countP (·.outcome.any Outcome.isRejection)
  texts :
    after.textMessages = before.textMessages + (Mesh.received (toldBy answers)).length
  updates :
    after.textMessages + after.positionUpdates + after.telemetryUpdates + before.messagesDecoded
      ≤ before.textMessages + before.positionUpdates + before.telemetryUpdates
        + after.messagesDecoded

theorem countP_cons_eq {α : Type} (p : α → Bool) (a : α) (as : List α) :
    (a :: as).countP p = (p a).toNat + as.countP p := by
  rw [List.countP_cons, Nat.add_comm]
  cases p a <;> rfl

theorem Counts.tally {a : Answer} {answers : List Answer} {before between after : Stats}
    (h : Counts a.call.isMessage.toNat a.told a.outcome before between)
    (hrest : Tally answers between after) : Tally (a :: answers) before after := by
  refine ⟨?_, ?_, ?_, ?_, ?_, ?_, ?_⟩
  · rw [hrest.received, h.received, countP_cons_eq, Nat.add_assoc]
  · rw [hrest.decoded, h.decoded, countP_cons_eq, Nat.add_assoc]
  · rw [hrest.headerOnly, h.headerOnly, countP_cons_eq, Nat.add_assoc]
  · rw [hrest.duplicates, h.duplicates, countP_cons_eq, Nat.add_assoc]
  · rw [hrest.rejected, h.rejected, countP_cons_eq, Nat.add_assoc]
  · have htold : Mesh.received (toldBy (a :: answers))
        = Mesh.received a.told ++ Mesh.received (toldBy answers) := Mesh.received_append ..
    rw [hrest.texts, h.texts, htold, List.length_append, Nat.add_assoc]
  · have hfirst := h.updates
    have hlater := hrest.updates
    omega

theorem tally_served {calls : List Call} : ∀ m : Monitor,
    Tally (m.answers calls) m.stats (m.served calls).stats := by
  induction calls with
  | nil => exact fun m => ⟨rfl, rfl, rfl, rfl, rfl, rfl, Nat.le_refl _⟩
  | cons c calls ih => exact fun m => (counts_serve m c).tally (ih (m.serve c).1)

theorem speaks_served {calls : List Call} : ∀ m : Monitor,
    Mesh.Speaks (Mesh.received (toldBy (m.answers calls))) m.mesh (m.served calls).mesh
      (toldBy (m.answers calls)) := by
  induction calls with
  | nil => exact fun m => ⟨rfl, rfl⟩
  | cons c calls ih =>
    intro m
    have hact := acts_serve m c
    have hrest := ih (m.serve c).1
    refine ⟨rfl, ?_⟩
    show ((m.serve c).1.served calls).mesh.messages = _
    rw [hrest.messages, limits_acts hact, hact.speaks.messages, ← Mesh.recorded_append,
      ← Mesh.received_append]
    rfl

/-- A call ends in one bucket, unless it is a sweep or its message is of a kind that is not
counted. -/
theorem buckets_serve (m : Monitor) (c : Call) :
    let a : Answer := ⟨c, (m.serve c).2.1, (m.serve c).2.2⟩
    (a.outcome == some .applied).toNat + (a.outcome == some .headerOnly).toNat
      + (a.outcome == some .duplicate).toNat + (a.outcome.any Outcome.isRejection).toNat
      = c.isPacket.toNat + a.isCounted.toNat := by
  cases c with
  | packet p now =>
    obtain ⟨dedup, ⟨-, he⟩ | ⟨-, mesh, told, report, -, he⟩⟩ := m.applyPacket_cases p now
    · simp only [serve, he]
      rfl
    · simp only [serve, he]
      cases p.isHeaderOnly <;> rfl
  | step s =>
    obtain ⟨input, now⟩ := s
    cases input with
    | message topic body tick =>
      simp only [serve, perform, Answer.isCounted]
      cases (m.receive topic body now tick).2.2 <;> rfl
    | sweep => rfl

theorem buckets_answers {calls : List Call} : ∀ m : Monitor,
    let answers := m.answers calls
    answers.countP (·.outcome == some .applied) + answers.countP (·.outcome == some .headerOnly)
      + answers.countP (·.outcome == some .duplicate)
      + answers.countP (·.outcome.any Outcome.isRejection)
      = calls.countP Call.isPacket + answers.countP Answer.isCounted := by
  induction calls with
  | nil => exact fun _ => rfl
  | cons c calls ih =>
    intro m answers
    have hfirst := m.buckets_serve c
    have hrest := ih (m.serve c).1
    simp only [answers, Monitor.answers, countP_cons_eq]
    dsimp only at hfirst hrest
    omega

/-- **Every message is counted once.** The counters that a monitor reaches from fresh ones
are how many messages came in and how many calls ended in each outcome; every packet, and
every message which is neither a status nor ignored, is in one of the four buckets. Texts
are counted as often as a message was put into the history, and no packet is counted as
two kinds of update. -/
theorem every_message_counted (m : Monitor) (calls : List Call) :
    let start := { m with stats := {} }
    let after := start.served calls
    let answers := start.answers calls
    let appended := Mesh.received (toldBy answers)
    after.stats.messagesReceived = calls.countP Call.isMessage ∧
    after.stats.messagesDecoded = answers.countP (·.outcome == some .applied) ∧
    after.stats.headerOnly = answers.countP (·.outcome == some .headerOnly) ∧
    after.stats.duplicatesDropped = answers.countP (·.outcome == some .duplicate) ∧
    after.stats.messagesRejected = answers.countP (·.outcome.any Outcome.isRejection) ∧
    after.stats.messagesDecoded + after.stats.headerOnly + after.stats.duplicatesDropped
        + after.stats.messagesRejected
      = calls.countP Call.isPacket + answers.countP Answer.isCounted ∧
    after.stats.textMessages = appended.length ∧
    after.mesh.messages
      = Mesh.recorded m.mesh.limits.messageHistory m.mesh.messages appended ∧
    after.stats.textMessages + after.stats.positionUpdates + after.stats.telemetryUpdates
      ≤ after.stats.messagesDecoded := by
  intro start after answers appended
  have htally : Tally answers {} after.stats := tally_served start
  have hspeaks := @speaks_served calls start
  have hbuckets : _ = _ := @buckets_answers calls start
  have hcalls : answers.countP (·.call.isMessage) = calls.countP Call.isMessage := by
    rw [← @calls_answers calls start, List.countP_map]
    rfl
  have hreceived := htally.received
  have hdecoded := htally.decoded
  have hheader := htally.headerOnly
  have hduplicates := htally.duplicates
  have hrejected := htally.rejected
  have htexts := htally.texts
  have hupdates := htally.updates
  simp only [Nat.zero_add] at hreceived hdecoded hheader hduplicates hrejected htexts
  simp only [Nat.zero_add, Nat.add_zero] at hupdates
  refine ⟨hreceived.trans hcalls, hdecoded, hheader, hduplicates, hrejected, ?_, htexts,
    hspeaks.messages, hupdates⟩
  rw [hdecoded, hheader, hduplicates, hrejected]
  exact hbuckets

end Monitor

end MeshWatch
