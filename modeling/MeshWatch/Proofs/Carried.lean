import MeshWatch.Proofs.Noise

/-!
# Packets that calls bring

A message of a broker brings one packet or none, and what becomes of the message is what
becomes of that packet. A packet that was not seen before is counted as applied. Its sender
was heard by then: nothing that the packet does later removes a node that it names.

- `heardAt_applyNew`: the sender of a packet is stored, and was heard when it was applied.
- `serve_cases`: a call applies the packet that it brings, or neither looks into the cache
  nor brings a message.
- `counted_packet`: what a message that is counted as applied leaves behind.
- `counted_served`: over a run, what is counted is what the calls brought.
-/

namespace MeshWatch

namespace Mesh

variable {m m' : Mesh} {id : NodeId} {now : Moment}

/-! ## Nodes that were just heard -/

/-- The node is stored, and was heard at this time. -/
def HeardAt (id : NodeId) (now : Moment) (m : Mesh) : Prop :=
  ∃ n, m.nodes[id]? = some n ∧ n.lastHeard = now

/-- Edits that mark a node as heard do not take that mark from another one. -/
theorem HeardAt.edits {P : Edit} {node : NodeId} (he : Edits P m m') (hP : Marks node now P) :
    HeardAt id now m → HeardAt id now m' := by
  induction he with
  | frame h =>
    rintro ⟨n, hn, ht⟩
    exact ⟨n, by rw [h.nodes, hn], ht⟩
  | @modify m i f hf =>
    rintro ⟨n, hn, ht⟩
    rw [HeardAt, getElem?_modifyNode, hn]
    split
    · refine ⟨f n, rfl, ?_⟩
      rcases (hP i f n hf).2 with hkept | ⟨-, hmarked⟩
      · exact hkept.trans ht
      · exact hmarked
    · exact ⟨n, rfl, ht⟩
  | trans _ _ ih ih' => exact fun h => ih' (ih h)

theorem Quiet.marks {P : Edit} (hP : Quiet P) (node : NodeId) (now : Moment) : Marks node now P :=
  fun id f n hf => ⟨(hP id f n hf).1, Or.inl (hP id f n hf).2⟩

theorem HeardAt.removeOldest {keep : List NodeId} (h : HeardAt id now m) (hid : id ∈ keep) :
    HeardAt id now (m.removeOldest keep).1 := by
  have hsome := fun i => @Sightings.oldest_some m.isUpToDate keep.contains i m.sightings.size []
    m.sightings
  obtain ⟨found, rest, hfound, he⟩ := m.removeOldest_eq keep
  rw [hfound] at hsome
  rw [he]
  cases found with
  | none => exact h
  | some i =>
    obtain ⟨_, _, _, _, hkeep, _⟩ := hsome i rfl
    have hne : i ≠ id := by
      rintro rfl
      rw [List.contains_iff_mem.2 hid] at hkeep
      cases hkeep
    obtain ⟨n, hn, ht⟩ := h
    exact ⟨n, by rw [getElem?_removeNode, if_neg hne]; exact hn, ht⟩

theorem HeardAt.ensure {keep : List NodeId} (h : HeardAt id now m) (hid : id ∈ keep)
    (other : NodeId) : HeardAt id now (m.ensure other now keep).1 := by
  obtain ⟨n, hn, ht⟩ := announce_keeps (P := HeardAt id now) (fun _ h => h.removeOldest hid) h other
  refine ⟨n, ?_, ht⟩
  show (((m.announce other keep).1.sight other now).nodes[id]?) = some n
  rw [getElem?_sight, if_neg, hn]
  rintro ⟨rfl, hnot⟩
  rw [← Bool.not_eq_true, contains_iff] at hnot
  exact hnot ⟨n, hn⟩

/-- **Moves.** Whoever was just heard and may not be removed stays so. -/
theorem HeardAt.moves {keep heard : List NodeId} {told : Journal}
    (hm : Moves keep now heard m m' told) (hid : id ∈ keep) :
    HeardAt id now m → HeardAt id now m' := by
  induction hm with
  | hear _ he hP _ => exact fun h => (h.ensure hid _).edits he hP
  | edits he hP hn _ _ _ =>
    intro h
    obtain ⟨n, hn', ht⟩ := h.edits he (hP.marks id now)
    exact ⟨n, by rw [hn, hn'], ht⟩
  | trans _ _ ih ih' => exact fun h => ih' (ih h)

theorem heardAt_hearSender (m : Mesh) (p : Packet) (now : Moment) :
    HeardAt p.sender now (m.hearSender p now).1 := by
  obtain ⟨n, hn⟩ := (contains_iff _ _).1 (contains_ensure m p.sender now p.named)
  have hupdated : HeardAt p.sender now
      ((m.ensure p.sender now p.named).1.applyUpdate p.sender p.nodeUpdate now).1 := by
    refine ⟨n.update p.nodeUpdate now, ?_, rfl⟩
    show ((m.ensure p.sender now p.named).1.modifyNode p.sender _).nodes[p.sender]? = _
    rw [getElem?_modifyNode, if_pos rfl, hn]
    rfl
  have hheader : Edits (SenderEdit p now)
      ((m.ensure p.sender now p.named).1.applyUpdate p.sender p.nodeUpdate now).1
      (m.hearSender p now).1 := .modify _ ⟨rfl, Or.inr rfl⟩
  exact hupdated.edits hheader (marks_senderEdit p now)

/-- **A packet** leaves its sender stored and just heard. -/
theorem heardAt_applyNew (m : Mesh) {p : Packet} (now : Moment) (hp : p.hasUsableSender = true) :
    HeardAt p.sender now (m.applyNew p now).1 := by
  have hsender : p.sender ∈ p.named := List.mem_cons_self ..
  -- relay and gateway may take the place of others, but not of a node that the packet names
  refine applyNew_of_stages m now hp (fun m₀ _ => ?_) (fun m' h => ?_) (fun m' h => ?_)
    (fun m' channel h => ?_) fun _ h => h
  · exact heardAt_hearSender m₀ p now
  · exact h.moves (moves_hearRelay m' p now) hsender
  · exact h.moves (moves_hearGateway m' p now) hsender
  · exact h.moves (moves_takePayload p.named m' p channel now) hsender

/-- A node was heard at this time, nothing was heard since, and listeners were told. -/
structure Noticed (id : NodeId) (now : Moment) (m : Mesh) (told : Journal) : Prop where
  heard : HeardAt id now m
  updated : m.lastUpdate = some now
  told : .nodeUpdated id ∈ Journal.events told

theorem noticed_applyNew (m : Mesh) {p : Packet} (now : Moment) (hp : p.hasUsableSender = true) :
    Noticed p.sender now (m.applyNew p now).1 (m.applyNew p now).2.1 where
  heard := heardAt_applyNew m now hp
  updated := by
    obtain ⟨_, _, _, _, _, _, _, _, _, _, -, -, -, -, -, hm, -⟩ := m.applyNew_stages now hp
    rw [hm]
  told := List.mem_of_getLast? (nodeUpdated_applyNew m now hp).1

theorem dedup_of_blind {α : Type} {f : Mesh → Mesh × α}
    (hf : ∀ m c, f (m.withCache c) = ((f m).1.withCache c, (f m).2)) (m : Mesh) :
    (f m).1.dedup = m.dedup := congrArg (fun r => r.1.dedup) (hf m m.dedup)

/-- A packet without an id leaves the cache alone, and any other one is looked up in it. -/
theorem dedup_apply (m : Mesh) (p : Packet) (now : Moment) :
    (m.apply p now).1.dedup =
      if p.packetId = 0 then m.dedup else (m.dedup.accept ⟨p.packetId, p.sender⟩ now).2 := by
  have hnew : ∀ m : Mesh, (m.applyNew p now).1.dedup = m.dedup :=
    dedup_of_blind (f := fun m => m.applyNew p now) fun m c => applyNew_withCache m c p now
  unfold apply
  split
  · exact hnew m
  · generalize m.dedup.accept ⟨p.packetId, p.sender⟩ now = answer
    obtain ⟨seen, dedup⟩ := answer
    cases seen with
    | true => rfl
    | false => exact hnew _

end Mesh

/-! ## Senders of packets that can be read -/

theorem Envelope.sender_ne_unknown {t : Topic} {body : Bytes} {e : Envelope}
    (h : decode t body = .ok e) : e.sender ≠ .unknown := by
  rcases decode_cases h with ⟨-, he⟩ | ⟨-, he⟩
  · obtain ⟨ms, sender, b, -, hsender, -, rfl⟩ := exists_of_ofObject he
    exact hsender
  · obtain ⟨message, packet, hsender, -⟩ := exists_of_ofBinary he
    exact hsender

theorem Receiver.sender_ne_unknown {r : Receiver} {topic : String} {body : Bytes} {p : Packet}
    (h : r.packetOf topic body = .ok p) : p.sender ≠ .unknown := by
  obtain ⟨t, e, payload, -, he, -, rfl⟩ := exists_of_packetOf h
  exact Envelope.sender_ne_unknown he

/-- The packet of a message was applied, even if its header was all that could be read. -/
def Outcome.isApplied : Outcome → Bool
  | .applied => true
  | .headerOnly => true
  | _ => false

namespace Monitor

/-! ## What a call brings -/

/-- The packet that a call brings, if it brings one that can be read. -/
def Call.carried (r : Receiver) : Call → Option Packet
  | step ⟨.message topic body _, _⟩ => (r.packetOf topic body).toOption
  | step ⟨.sweep, _⟩ => none
  | packet p _ => some p

/-- No packet was looked at: the cache was left alone, and nothing came of it that a packet
could have brought. -/
structure Idle (m m' : Monitor) (told : Journal) (outcome : Option Outcome) : Prop where
  receiver : m'.receiver = m.receiver
  dedup : m'.mesh.dedup = m.mesh.dedup
  received : Mesh.received told = []
  outcome : ∀ o ∈ outcome, o.isApplied = false ∧ o ≠ .duplicate

theorem idle_reject (m : Monitor) (fault : DecodeFault) (tick : Tick) :
    Idle m (m.reject fault tick).1 (m.reject fault tick).2.1 (some (m.reject fault tick).2.2) where
  receiver := rfl
  dedup := rfl
  received := by rw [Mesh.received, events_reject]; rfl
  outcome o ho := by cases ho; exact ⟨rfl, by simp [reject]⟩

theorem idle_takeStatus (m : Monitor) (t : Topic) (body : Bytes) (now : Moment) :
    Idle m (m.takeStatus t body now).1 (m.takeStatus t body now).2.1
      (some (m.takeStatus t body now).2.2) := by
  have hnothing : Idle m m [] (some .status) :=
    ⟨rfl, rfl, rfl, fun o ho => by cases ho; exact ⟨rfl, by decide⟩⟩
  unfold takeStatus
  split
  · next id _ =>
    split
    · refine ⟨rfl, ?_, (Mesh.speaks_updateNode m.mesh id {} now).received, hnothing.outcome⟩
      exact Mesh.dedup_of_blind (f := fun m => m.updateNode id {} now)
        (fun m c => Mesh.updateNode_withCache m c id {} now) m.mesh
    · exact hnothing
  · exact hnothing

/-- A message applies the packet that is read from it, or no packet can be. -/
theorem dispatch_cases (m : Monitor) (topic : String) (body : Bytes) (now : Moment) (tick : Tick) :
    (∃ p, m.receiver.packetOf topic body = .ok p ∧
      m.dispatch topic body now tick = m.applyPacket p now) ∨
    ((m.receiver.packetOf topic body).toOption = none ∧
      Idle m (m.dispatch topic body now tick).1 (m.dispatch topic body now tick).2.1
        (some (m.dispatch topic body now tick).2.2)) := by
  unfold dispatch Receiver.packetOf
  cases ht : Topic.decode topic with
  | error fault => exact Or.inr ⟨rfl, idle_reject m fault tick⟩
  | ok t =>
    cases hk : t.kind with
    | status =>
      have hnone : t.carriesPackets = false := by rw [Topic.carriesPackets, hk]; rfl
      simp only [hnone, hk]
      exact Or.inr ⟨rfl, idle_takeStatus m t body now⟩
    | map =>
      have hnone : t.carriesPackets = false := by rw [Topic.carriesPackets, hk]; rfl
      simp only [hnone, hk]
      exact Or.inr ⟨rfl, rfl, rfl, rfl, fun o ho => by cases ho; exact ⟨rfl, by decide⟩⟩
    | protobuf | json | legacy =>
      have hsome : t.carriesPackets = true := by rw [Topic.carriesPackets, hk]; rfl
      simp only [hsome, hk, if_true]
      cases hp : m.receiver.packetOfBody t body with
      | error fault => exact Or.inr ⟨rfl, idle_reject m fault tick⟩
      | ok p => exact Or.inl ⟨p, rfl, rfl⟩

/-- **A call** applies the packet that it brings, or brings none. -/
theorem serve_cases (m : Monitor) (c : Call) :
    (∃ p stats, c.carried m.receiver = some p ∧ m.serve c =
      let r := { m with stats := stats }.applyPacket p c.now
      (r.1, r.2.1, some r.2.2)) ∨
    (c.carried m.receiver = none ∧
      Idle m (m.serve c).1 (m.serve c).2.1 (m.serve c).2.2) := by
  cases c with
  | packet p now => exact Or.inl ⟨p, m.stats, rfl, rfl⟩
  | step s =>
    obtain ⟨input, now⟩ := s
    cases input with
    | message topic body tick =>
      have hcounted := dispatch_cases { m with stats := m.stats.received now } topic body now tick
      rcases hcounted with ⟨p, hp, he⟩ | ⟨hnone, hidle⟩
      · refine Or.inl ⟨p, m.stats.received now, congrArg Except.toOption hp, ?_⟩
        exact congrArg (fun r : Monitor × Journal × Outcome => (r.1, r.2.1, some r.2.2)) he
      · exact Or.inr ⟨hnone, hidle.receiver, hidle.dedup, hidle.received, hidle.outcome⟩
    | sweep =>
      refine Or.inr ⟨rfl, rfl, ?_, (Mesh.speaks_perform m.mesh ⟨.sweep, now⟩ rfl).received, nofun⟩
      exact Mesh.dedup_of_blind (f := fun m => m.sweep now)
        (fun m c => Mesh.sweep_withCache m c now) m.mesh

theorem receiver_serve (m : Monitor) (c : Call) : (m.serve c).1.receiver = m.receiver := by
  rcases m.serve_cases c with ⟨p, stats, -, he⟩ | ⟨-, hidle⟩
  · rw [he]
    obtain ⟨dedup, ⟨-, hp⟩ | ⟨-, mesh, told, report, -, hp⟩⟩ :=
      { m with stats := stats }.applyPacket_cases p c.now
    · rw [hp]
    · rw [hp]
  · exact hidle.receiver

/-! ## What is counted as applied -/

theorem counted_serve (m : Monitor) (c : Call) :
    (m.serve c).1.stats.messagesDecoded + (m.serve c).1.stats.headerOnly
      = m.stats.messagesDecoded + m.stats.headerOnly
        + ((m.serve c).2.2.any Outcome.isApplied).toNat := by
  have hone : ∀ o : Option Outcome, (o == some .applied).toNat + (o == some .headerOnly).toNat
      = (o.any Outcome.isApplied).toNat := by
    rintro (_ | o)
    · rfl
    · cases o <;> rfl
  have hcounts := counts_serve m c
  rw [hcounts.decoded, hcounts.headerOnly, ← hone]
  omega

theorem isApplied_applyPacket (m : Monitor) (p : Packet) (now : Moment) :
    (m.applyPacket p now).2.2.isApplied = !m.mesh.isRepeated p now := by
  obtain ⟨dedup, ⟨hr, he⟩ | ⟨hr, _, _, _, -, he⟩⟩ := m.applyPacket_cases p now
  · rw [he, hr]
    rfl
  · rw [he, hr]
    cases p.isHeaderOnly <;> rfl

/-- What is left behind by a packet that is counted as applied: its sender was heard, unless
that is no node. -/
theorem noticed_applyPacket (m : Monitor) (p : Packet) (now : Moment)
    (h : (m.applyPacket p now).2.2.isApplied = true) :
    (p.hasUsableSender = true →
      Mesh.Noticed p.sender now (m.applyPacket p now).1.mesh (m.applyPacket p now).2.1) ∧
    (p.hasUsableSender = false →
      (m.applyPacket p now).1.mesh.nodes = m.mesh.nodes ∧
      (m.applyPacket p now).1.mesh.lastUpdate = m.mesh.lastUpdate ∧
      (m.applyPacket p now).2.1 = []) := by
  obtain ⟨dedup, ⟨-, he⟩ | ⟨-, mesh, told, report, hnew, he⟩⟩ := m.applyPacket_cases p now
  · rw [he] at h
    cases h
  · rw [he]
    refine ⟨fun hp => ?_, fun hp => ?_⟩
    · have hnoticed := Mesh.noticed_applyNew { m.mesh with dedup := dedup } now hp
      rw [hnew] at hnoticed
      exact hnoticed
    · rw [Mesh.applyNew_unusable hp] at hnew
      cases hnew
      exact ⟨rfl, rfl, rfl⟩

/-- A message that is counted as applied brought a packet, and was counted once. -/
theorem exists_packet_of_isApplied {m : Monitor} {topic : String} {body : Bytes} {now : Moment}
    {tick : Tick} (h : (m.receive topic body now tick).2.2.isApplied = true) :
    ∃ p, m.receiver.packetOf topic body = .ok p ∧
      m.receive topic body now tick =
        { m with stats := m.stats.received now }.applyPacket p now := by
  rcases dispatch_cases { m with stats := m.stats.received now } topic body now tick with
    hp | ⟨-, hidle⟩
  · exact hp
  · rw [receive, (hidle.outcome _ rfl).1] at h
    cases h

/-- **Counted packets.** A message that is counted as applied, in full or by its header
alone, brought a packet. Afterwards the sender of the packet is a node that was heard just
now, the mesh was updated just now, and listeners were told of the sender; unless the sender
is everybody, in which case it is the counters and the cache alone that changed. -/
theorem counted_packet (m : Monitor) (topic : String) (body : Bytes) (now : Moment) (tick : Tick)
    (h : (m.receive topic body now tick).2.2.isApplied = true) :
    let after := (m.receive topic body now tick).1
    let told := (m.receive topic body now tick).2.1
    after.stats.messagesDecoded + after.stats.headerOnly
        = m.stats.messagesDecoded + m.stats.headerOnly + 1 ∧
    ∃ p, m.receiver.packetOf topic body = .ok p ∧
      (Mesh.Noticed p.sender now after.mesh told ↔ p.sender ≠ .broadcast) ∧
      (p.sender = .broadcast →
        after.mesh.nodes = m.mesh.nodes ∧ after.mesh.lastUpdate = m.mesh.lastUpdate ∧
        told = []) := by
  intro after told
  obtain ⟨p, hp, he⟩ := exists_packet_of_isApplied h
  have hsender : p.hasUsableSender = true ↔ p.sender ≠ .broadcast :=
    p.hasUsableSender_iff.trans (and_iff_right (Receiver.sender_ne_unknown hp))
  have htaken := h
  rw [he] at htaken
  obtain ⟨husable, hunusable⟩ := noticed_applyPacket _ p now htaken
  rw [← he] at husable hunusable
  have hnone : p.sender = .broadcast → p.hasUsableSender = false := fun hb =>
    Bool.eq_false_iff.2 fun hp => hsender.1 hp hb
  refine ⟨?_, p, hp, ⟨fun hn hb => ?_, fun hb => husable (hsender.2 hb)⟩,
    fun hb => hunusable (hnone hb)⟩
  · have hcounted := counted_serve m (.step ⟨.message topic body tick, now⟩)
    have happlied : (m.serve (.step ⟨.message topic body tick, now⟩)).2.2.any Outcome.isApplied
        = true := h
    rw [happlied] at hcounted
    exact hcounted
  · -- nobody is told of a packet from everybody
    have hquiet : told = [] := (hunusable (hnone hb)).2.2
    have htold := hn.told
    rw [hquiet] at htold
    cases htold

/-- The header of a packet from a node that was not known. -/
theorem header_of_stranger :
    let start : Monitor := ⟨Mesh.new {} "" {}, {}, {}, .standard⟩
    let topic := "msh/2/json/LongFast/!bbbbbbbb"
    let body := Bytes.ofText "\x7b\"from\":2863311530,\"id\":7\x7d"
    let after := (start.receive topic body (.ofSecs 10) 0).1
    let told := (start.receive topic body (.ofSecs 10) 0).2.1
    (start.receive topic body (.ofSecs 10) 0).2.2.isApplied = true ∧
    after.stats.messagesDecoded + after.stats.headerOnly = 1 ∧
    ∃ p, start.receiver.packetOf topic body = .ok p ∧ p.sender = ⟨0xaaaaaaaa⟩ ∧
      Mesh.Noticed p.sender (.ofSecs 10) after.mesh told := by
  intro start topic body after told
  have happlied : (start.receive topic body (.ofSecs 10) 0).2.2.isApplied = true := by
    decide +kernel
  have hsender : (start.receiver.packetOf topic body).toOption.map Packet.sender
      = some ⟨0xaaaaaaaa⟩ := by decide +kernel
  obtain ⟨hcounted, p, hp, hnoticed, -⟩ :=
    counted_packet start topic body (.ofSecs 10) 0 happlied
  have hp' : p.sender = ⟨0xaaaaaaaa⟩ := by
    rw [hp] at hsender
    exact Option.some.inj hsender
  exact ⟨happlied, hcounted, p, hp, hp', hnoticed.2 (by rw [hp']; decide)⟩

/-- The header of a packet from everybody is counted, and nothing comes of it. -/
theorem header_of_everybody :
    let start : Monitor := ⟨Mesh.new {} "" {}, {}, {}, .standard⟩
    let topic := "msh/2/json/LongFast/!bbbbbbbb"
    let body := Bytes.ofText "\x7b\"from\":4294967295,\"id\":7\x7d"
    let after := (start.receive topic body (.ofSecs 10) 0).1
    let told := (start.receive topic body (.ofSecs 10) 0).2.1
    (start.receiver.packetOf topic body).toOption.map Packet.sender = some .broadcast ∧
    (start.receive topic body (.ofSecs 10) 0).2.2 = .headerOnly ∧
    after.stats.headerOnly = 1 ∧
    after.mesh.nodes.contains .broadcast = false ∧ after.mesh.lastUpdate = none ∧ told = [] := by
  refine ⟨?_, ?_, ?_, ?_, ?_, ?_⟩ <;> decide +kernel

/-! ## Runs -/

/-- The packet that a call brings, unless it was seen before. -/
def fresh? (m : Monitor) (c : Call) : Option Packet :=
  (c.carried m.receiver).filter fun p => !m.mesh.isRepeated p c.now

/-- The packets that several calls bring, without repetitions. -/
def fresh (m : Monitor) : List Call → List Packet
  | [] => []
  | c :: calls => (m.fresh? c).toList ++ fresh (m.serve c).1 calls

theorem served_append (m : Monitor) (calls more : List Call) :
    m.served (calls ++ more) = (m.served calls).served more := List.foldl_append

theorem fresh_append (calls more : List Call) : ∀ m : Monitor,
    m.fresh (calls ++ more) = m.fresh calls ++ (m.served calls).fresh more := by
  induction calls with
  | nil => exact fun _ => rfl
  | cons c calls ih =>
    intro m
    rw [List.cons_append, fresh, ih, fresh, List.append_assoc]
    rfl

/-- A call is counted as applied exactly if its packet was not seen before. -/
theorem isApplied_serve (m : Monitor) (c : Call) :
    (m.serve c).2.2.any Outcome.isApplied = (m.fresh? c).isSome := by
  unfold fresh?
  rcases m.serve_cases c with ⟨p, stats, hp, he⟩ | ⟨hnone, hidle⟩
  · have happlied := isApplied_applyPacket { m with stats := stats } p c.now
    rw [hp, he]
    dsimp only
    rw [Option.any_some, happlied, Option.filter_some]
    cases m.mesh.isRepeated p c.now <;> rfl
  · rw [hnone]
    cases ho : (m.serve c).2.2 with
    | none => rfl
    | some o => exact (hidle.outcome o ho).1

/-- **A run** counts as applied, in full or by the header alone, what its calls brought
without repetitions. -/
theorem counted_served {calls : List Call} : ∀ m : Monitor,
    (m.served calls).stats.messagesDecoded + (m.served calls).stats.headerOnly
      = m.stats.messagesDecoded + m.stats.headerOnly + (m.fresh calls).length := by
  induction calls with
  | nil => exact fun _ => rfl
  | cons c calls ih =>
    intro m
    have hcounted := m.counted_serve c
    have hone : (m.fresh? c).isSome.toNat = (m.fresh? c).toList.length := by
      cases m.fresh? c <;> rfl
    rw [isApplied_serve, hone] at hcounted
    show ((m.serve c).1.served calls).stats.messagesDecoded
      + ((m.serve c).1.served calls).stats.headerOnly = _
    rw [ih, hcounted, fresh, List.length_append, Nat.add_assoc]

end Monitor

end MeshWatch
