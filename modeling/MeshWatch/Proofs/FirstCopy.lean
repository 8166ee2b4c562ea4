import MeshWatch.Proofs.Carried

/-!
# Copies of one packet

A packet may reach a monitor several times, in different encodings and under different
topics, so that some copies can be read and some cannot. It is applied once, and which copy
that is does not depend on what can be read: the cache is asked before the body is looked
at. So the first copy decides whether the packet brings a message.

- `dedup_served`: the cache after a run is the cache after the arrivals of the run.
- `said_served`: the messages of a run are what its packets say, without repetitions.
- `Copies.fresh_eq`: of all copies only the first one is applied.
- `first_copy_decides`: the messages of a run that come from one packet.
-/

namespace MeshWatch

/-- What identifies the packet. -/
def Packet.key (p : Packet) : PacketKey := ⟨p.packetId, p.sender⟩

/-- What identifies the packet of the message. -/
def Message.key (x : Message) : PacketKey := ⟨x.packetId, x.sender⟩

/-- The text that a packet holds, if it could be read and is one. -/
def Packet.texts (p : Packet) : List String :=
  match p.payload with
  | .text t => [t]
  | _ => []

/-- What the packet adds to a history when it is applied. -/
def Packet.said (p : Packet) : List (PacketKey × String) :=
  if p.hasUsableSender then p.texts.map fun t => (p.key, t) else []

namespace DedupCache

theorem accepted_sublist (as : List Arrival) : ∀ c : DedupCache, (c.accepted as).Sublist as := by
  induction as with
  | nil => exact fun _ => .slnil
  | cons a as ih =>
    intro c
    rw [accepted]
    split
    · exact (ih _).cons a
    · exact (ih _).cons_cons a

theorem run_append (c : DedupCache) (as bs : List Arrival) : c.run (as ++ bs) = (c.run as).run bs :=
  List.foldl_append

end DedupCache

namespace Monitor

open DedupCache (run accepted)

variable {m : Monitor} {k : PacketKey}

/-! ## The cache of a run -/

/-- What a call asks the cache about: the packet that it brings, if that has an id. -/
def Call.arrival? (r : Receiver) (c : Call) : Option Arrival :=
  ((c.carried r).filter fun p => p.packetId != 0).map fun p => (p.key, c.now)

/-- What several calls ask the cache about. -/
def arrivals (r : Receiver) (calls : List Call) : List Arrival := calls.filterMap (Call.arrival? r)

theorem dedup_serve (m : Monitor) (c : Call) :
    (m.serve c).1.mesh.dedup = m.mesh.dedup.run (c.arrival? m.receiver).toList := by
  unfold Call.arrival?
  rcases m.serve_cases c with ⟨p, stats, hp, he⟩ | ⟨hnone, hidle⟩
  · have hmesh := ({ m with stats := stats }.mesh_applyPacket p c.now).1
    rw [he, hp]
    dsimp only
    rw [hmesh, Mesh.dedup_apply, Option.filter_some]
    by_cases hid : p.packetId = 0
    · rw [if_pos hid, hid]
      rfl
    · rw [if_neg hid, if_pos (by simpa using hid)]
      rfl
  · rw [hnone, hidle.dedup]
    rfl

/-- **The cache of a run** has seen the arrivals of the run, whatever else happened. -/
theorem dedup_served {calls : List Call} : ∀ m : Monitor,
    (m.served calls).mesh.dedup = m.mesh.dedup.run (arrivals m.receiver calls) := by
  induction calls with
  | nil => exact fun _ => rfl
  | cons c calls ih =>
    intro m
    have harrivals : arrivals m.receiver (c :: calls)
        = (c.arrival? m.receiver).toList ++ arrivals m.receiver calls := by
      rw [arrivals, List.filterMap_cons]
      cases c.arrival? m.receiver <;> rfl
    show ((m.serve c).1.served calls).mesh.dedup = _
    rw [ih, receiver_serve, dedup_serve, harrivals, DedupCache.run_append]

theorem arrivals_append (r : Receiver) (calls more : List Call) :
    arrivals r (calls ++ more) = arrivals r calls ++ arrivals r more := List.filterMap_append ..

theorem receiver_served {calls : List Call} : ∀ m : Monitor,
    (m.served calls).receiver = m.receiver := by
  induction calls with
  | nil => exact fun _ => rfl
  | cons c calls ih => exact fun m => (ih (m.serve c).1).trans (m.receiver_serve c)

theorem inOrder_arrivals {r : Receiver} {calls : List Call} (h : InOrder calls) :
    DedupCache.InOrder (arrivals r calls) := by
  have htime : ∀ c a, a ∈ Call.arrival? r c → a.2 = c.now := by
    intro c a ha
    obtain ⟨p, -, rfl⟩ := Option.map_eq_some_iff.1 ha
    rfl
  refine List.pairwise_filterMap.2 (h.imp fun {c d} hle a ha b hb => ?_)
  rw [htime c a ha, htime d b hb]
  exact hle

/-! ## What a run says -/

theorem said_serve (m : Monitor) (c : Call) :
    (Mesh.received (m.serve c).2.1).map (fun x => (x.key, x.text))
      = (m.fresh? c).toList.flatMap Packet.said := by
  unfold fresh?
  rcases m.serve_cases c with ⟨p, stats, hp, he⟩ | ⟨hnone, hidle⟩
  · rw [he, hp, Option.filter_some]
    obtain ⟨dedup, ⟨hr, ha⟩ | ⟨hr, mesh, told, report, hnew, ha⟩⟩ :=
      { m with stats := stats }.applyPacket_cases p c.now
    · have hseen : m.mesh.isRepeated p c.now = true := hr
      rw [ha, hseen]
      rfl
    · have hnot : m.mesh.isRepeated p c.now = false := hr
      rw [ha, hnot]
      show (Mesh.received told).map _ = p.said ++ []
      rw [List.append_nil, Packet.said]
      cases hu : p.hasUsableSender with
      | false =>
        rw [Mesh.applyNew_unusable hu] at hnew
        cases hnew
        rfl
      | true =>
        have hspeaks := (Mesh.speaks_applyNew { m.mesh with dedup := dedup } c.now hu).received
        rw [hnew] at hspeaks
        rw [hspeaks, Mesh.brought, Packet.texts]
        cases p.payload <;> rfl
  · rw [hnone, hidle.received]
    rfl

/-- **The messages of a run** are what its packets say, without repetitions. -/
theorem said_served {calls : List Call} : ∀ m : Monitor,
    (Mesh.received (toldBy (m.answers calls))).map (fun x => (x.key, x.text))
      = (m.fresh calls).flatMap Packet.said := by
  induction calls with
  | nil => exact fun _ => rfl
  | cons c calls ih =>
    intro m
    have htold : Mesh.received (toldBy (m.answers (c :: calls)))
        = Mesh.received (m.serve c).2.1
          ++ Mesh.received (toldBy ((m.serve c).1.answers calls)) := Mesh.received_append ..
    rw [htold, List.map_append, said_serve, ih, fresh, List.flatMap_append]

/-- The texts among what several packets say that come from one of them. -/
theorem said_filter (k : PacketKey) (ps : List Packet) :
    (ps.flatMap Packet.said).filter (fun x => x.1 == k)
      = (ps.filter fun p => p.key == k).flatMap Packet.said := by
  have hone : ∀ p : Packet, p.said.filter (fun x => x.1 == k)
      = if p.key == k then p.said else [] := by
    intro p
    have hkey : ∀ x ∈ p.said, x.1 = p.key := by
      intro x hx
      unfold Packet.said at hx
      split at hx
      · obtain ⟨t, -, rfl⟩ := List.mem_map.1 hx
        rfl
      · cases hx
    split
    · next hk => exact List.filter_eq_self.2 fun x hx => by rw [hkey x hx, hk]
    · next hk => exact List.filter_eq_nil_iff.2 fun x hx => by rw [hkey x hx]; exact hk
  induction ps with
  | nil => rfl
  | cons p ps ih =>
    rw [List.flatMap_cons, List.filter_append, hone, ih, List.filter_cons]
    split
    · rw [List.flatMap_cons]
    · rw [List.nil_append]

/-! ## Copies -/

/-- The call brings a copy of the packet. -/
def Call.Brings (r : Receiver) (k : PacketKey) (c : Call) : Prop :=
  ∃ p, c.carried r = some p ∧ p.key = k

instance (r : Receiver) (k : PacketKey) (c : Call) : Decidable (c.Brings r k) :=
  decidable_of_iff ((c.carried r).any (fun p => p.key == k) = true) <| by
    simp [Call.Brings, Option.any_eq_true]

/-- A run with copies of one packet. The first of them comes while no other one is
remembered, and each later one while the first is: within the window, and before as many
other packets were accepted as the cache holds. -/
structure Copies (m : Monitor) (k : PacketKey) (before : List Call) (first : Call)
    (later : List Call) : Prop where
  inOrder : InOrder (before ++ first :: later)
  brings : first.Brings m.receiver k
  earlier : ∀ c ∈ before, ¬ c.Brings m.receiver k
  window : ∀ c ∈ later, c.Brings m.receiver k → c.now.since first.now ≤ m.mesh.dedup.window.reach
  capacity : ∀ between c after, later = between ++ c :: after → c.Brings m.receiver k →
    ((m.served (before ++ [first])).mesh.dedup.accepted (arrivals m.receiver between)).length
      < m.mesh.dedup.capacity

theorem isRepeated_eq (m : Mesh) {p : Packet} (hid : p.key.packetId ≠ 0) (now : Moment) :
    m.isRepeated p now = (m.dedup.accept p.key now).1 := by
  have hne : (p.packetId != 0) = true := bne_iff_ne.2 hid
  rw [Mesh.isRepeated, hne, Bool.true_and]
  rfl

theorem fresh_filter_nil {calls : List Call} : ∀ {m : Monitor},
    (∀ between c after, calls = between ++ c :: after → ∀ p, c.carried m.receiver = some p →
      p.key = k → (m.served between).mesh.isRepeated p c.now = true) →
    (m.fresh calls).filter (fun p => p.key == k) = [] := by
  induction calls with
  | nil => exact fun _ => rfl
  | cons c calls ih =>
    intro m h
    have hrest : ((m.serve c).1.fresh calls).filter (fun p => p.key == k) = [] := by
      refine ih fun between d after he p hp hk => ?_
      rw [receiver_serve] at hp
      exact h (c :: between) d after (by rw [he]; rfl) p hp hk
    have hfirst : (m.fresh? c).toList.filter (fun p => p.key == k) = [] := by
      refine List.filter_eq_nil_iff.2 fun p hp hk => ?_
      obtain ⟨hc, hnew⟩ := Option.filter_eq_some_iff.1 (Option.mem_toList.1 hp)
      have hseen := h [] c calls rfl p hc (beq_iff_eq.1 hk)
      rw [show (m.served []).mesh = m.mesh from rfl] at hseen
      rw [hseen] at hnew
      cases hnew
    rw [fresh, List.filter_append, hfirst, hrest]
    rfl

theorem arrival?_of_brings {r : Receiver} {c : Call} (h : c.Brings r k) (hid : k.packetId ≠ 0) :
    c.arrival? r = some (k, c.now) := by
  obtain ⟨p, hp, rfl⟩ := h
  have hne : (p.packetId != 0) = true := bne_iff_ne.2 hid
  rw [Call.arrival?, hp, Option.filter_some, if_pos hne]
  rfl

theorem brings_of_mem_arrivals {r : Receiver} {calls : List Call} {a : Arrival}
    (h : a ∈ arrivals r calls) : ∃ c ∈ calls, c.Brings r a.1 ∧ a.2 = c.now := by
  obtain ⟨c, hc, ha⟩ := List.mem_filterMap.1 h
  obtain ⟨p, hp, rfl⟩ := Option.map_eq_some_iff.1 ha
  exact ⟨c, hc, ⟨p, (Option.filter_eq_some_iff.1 hp).1, rfl⟩, rfl⟩

section Copies

variable {limits : Limits} {primary : String} {orders : HashOrders}
  {before later : List Call} {first : Call}
  (hstart : m.mesh = Mesh.new limits primary orders)
include hstart

/-- The cache of a run remembers what was accepted in it. -/
theorem remembers_served {past : List Call} {t : Moment} (hord : InOrder past)
    (hpast : ∀ c ∈ past, c.now ≤ t) : ∃ last, last ≤ t ∧
      (m.served past).mesh.dedup.Remembers (m.mesh.dedup.accepted (arrivals m.receiver past)) last ∧
      (m.served past).mesh.dedup.window = m.mesh.dedup.window ∧
      (m.served past).mesh.dedup.capacity = m.mesh.dedup.capacity := by
  have hcache : m.mesh.dedup = .empty limits.dedupWindow DedupCache.defaultCapacity := by
    rw [hstart]
    rfl
  rw [dedup_served, hcache]
  refine DedupCache.remembers_run limits.dedupWindow DedupCache.defaultCapacity
    (inOrder_arrivals hord) fun a ha => ?_
  obtain ⟨c, hc, -, htime⟩ := brings_of_mem_arrivals ha
  rw [htime]
  exact hpast c hc

/-- The first copy is not taken for a repetition. -/
theorem Copies.first_new (h : Copies m k before first later) :
    ((m.served before).mesh.dedup.accept k first.now).1 = false := by
  have hsplit := List.pairwise_append.1 h.inOrder
  obtain ⟨last, hlast, hr, -, -⟩ := remembers_served hstart hsplit.1
    fun c hc => hsplit.2.2 c hc first (List.mem_cons_self ..)
  rw [Bool.eq_false_iff, ne_eq, hr.seen_iff_newest k hlast]
  rintro ⟨b, hb, hk, -⟩
  -- whatever the cache remembers was brought by a call before, and none of these brought `k`
  have hmem := (DedupCache.accepted_sublist _ _).subset ((Recent.newest_sublist ..).subset hb)
  obtain ⟨c, hc, hbrings, -⟩ := brings_of_mem_arrivals hmem
  exact h.earlier c hc (hk ▸ hbrings)

variable (hid : k.packetId ≠ 0)
include hid

/-- What was accepted by the time of a later copy: the first one, and after it too few others
to drive it out. -/
theorem Copies.accepted_eq (h : Copies m k before first later) (between : List Call) :
    m.mesh.dedup.accepted (arrivals m.receiver (before ++ first :: between))
      = m.mesh.dedup.accepted (arrivals m.receiver before) ++ (k, first.now) ::
        (m.served (before ++ [first])).mesh.dedup.accepted (arrivals m.receiver between) := by
  have hfirst : arrivals m.receiver [first] = [(k, first.now)] := by
    rw [arrivals, List.filterMap_cons, arrival?_of_brings h.brings hid]
    rfl
  have hnew : (m.served before).mesh.dedup.accepted [(k, first.now)] = [(k, first.now)] := by
    simp [accepted, h.first_new hstart]
  have hsplit : before ++ first :: between = (before ++ [first]) ++ between := by simp
  rw [hsplit, arrivals_append, DedupCache.accepted_append, ← dedup_served, arrivals_append,
    DedupCache.accepted_append, ← dedup_served, hfirst, hnew, List.append_assoc]
  rfl

/-- Every later copy is taken for one. -/
theorem Copies.later_seen (h : Copies m k before first later) {between after : List Call} {c : Call}
    (hl : later = between ++ c :: after) (hc : c.Brings m.receiver k) :
    ((m.served (before ++ first :: between)).mesh.dedup.accept k c.now).1 = true := by
  have hord : InOrder ((before ++ first :: between) ++ c :: after) := by
    have := h.inOrder
    rw [hl] at this
    simpa using this
  have hsplit := List.pairwise_append.1 hord
  obtain ⟨last, hlast, hr, hw, hcap⟩ := remembers_served hstart hsplit.1
    fun d hd => hsplit.2.2 d hd c (List.mem_cons_self ..)
  have hlater : c ∈ later := by
    rw [hl]
    exact List.mem_append_right _ (List.mem_cons_self ..)
  -- the witness is the first copy itself: young enough, and among the newest that are kept
  rw [hr.seen_iff_newest k hlast, hw, hcap, h.accepted_eq hstart hid]
  exact ⟨(k, first.now), Recent.mem_newest_of_lt (h.capacity between c after hl hc), rfl,
    h.window c hlater hc⟩

/-- **Copies.** Of all copies of one packet only the first one is applied. -/
theorem Copies.fresh_eq (h : Copies m k before first later) {p : Packet}
    (hp : first.carried m.receiver = some p) (hk : p.key = k) :
    (m.fresh (before ++ first :: later)).filter (fun p => p.key == k) = [p] := by
  subst hk
  have hbefore : (m.fresh before).filter (fun q => q.key == p.key) = [] := by
    refine fresh_filter_nil fun between c after he q hq hk => ?_
    have hc : c ∈ before := by
      rw [he]
      exact List.mem_append_right _ (List.mem_cons_self ..)
    exact absurd ⟨q, hq, hk⟩ (h.earlier c hc)
  have hfirst : (m.served before).fresh? first = some p := by
    have hnew := h.first_new hstart
    rw [← isRepeated_eq _ hid] at hnew
    rw [fresh?, receiver_served, hp, Option.filter_some, hnew]
    rfl
  have hlater : (((m.served before).serve first).1.fresh later).filter
      (fun q => q.key == p.key) = [] := by
    refine fresh_filter_nil fun between c after he q hq hk => ?_
    rw [receiver_serve, receiver_served] at hq
    have hseen := h.later_seen hstart hid he ⟨q, hq, hk⟩
    rw [← hk, ← isRepeated_eq _ (hk ▸ hid), served_append] at hseen
    exact hseen
  rw [fresh_append, List.filter_append, hbefore, fresh, hfirst, Option.toList_some,
    List.filter_append, hlater]
  simp

end Copies

/-- A packet that was seen before is reported as a repetition. -/
theorem outcome_of_repeated {c : Call} {p : Packet} (hp : c.carried m.receiver = some p)
    (hr : m.mesh.isRepeated p c.now = true) : (m.serve c).2.2 = some .duplicate := by
  rcases m.serve_cases c with ⟨q, stats, hq, he⟩ | ⟨hnone, -⟩
  · obtain rfl : p = q := Option.some.inj (hp.symm.trans hq)
    rw [he]
    obtain ⟨dedup, ⟨-, ha⟩ | ⟨hnew, -⟩⟩ := { m with stats := stats }.applyPacket_cases p c.now
    · rw [ha]
    · exact absurd (hr.symm.trans hnew) nofun
  · rw [hp] at hnone
    cases hnone

/-- **The first copy decides.** In a run of a monitor that starts out empty, let copies of one
packet with an id and a sender come at times that do not go back, and each later one while the
first is remembered. If the first copy to come is a text that can be read, exactly that text is
put into the history; if it is not, no later copy of the packet puts anything there, whether it
can be read or not. All later copies are repetitions. -/
theorem first_copy_decides (m : Monitor) (limits : Limits) (primary : String) (orders : HashOrders)
    (k : PacketKey) (before : List Call) (first : Call) (later : List Call) (p : Packet)
    (hstart : m.mesh = Mesh.new limits primary orders) (hid : k.packetId ≠ 0)
    (hsender : k.sender.IsNode) (h : Copies m k before first later)
    (hp : first.carried m.receiver = some p) (hk : p.key = k) :
    let calls := before ++ first :: later
    let messages := Mesh.received (toldBy (m.answers calls))
    (messages.filter fun x => x.key == k).map Message.text = p.texts ∧
    (m.served calls).mesh.messages = Recent.newest limits.messageHistory messages ∧
    ∀ between c after, later = between ++ c :: after → c.Brings m.receiver k →
      ((m.served (before ++ first :: between)).serve c).2.2 = some .duplicate := by
  intro calls messages
  refine ⟨?_, ?_, fun between c after hl hc => ?_⟩
  · have hsaid : (messages.map fun x => (x.key, x.text)).filter (fun x => x.1 == k) = p.said := by
      rw [m.said_served, said_filter, h.fresh_eq hstart hid hp hk]
      exact List.append_nil _
    have husable : p.hasUsableSender = true := by
      subst hk
      exact p.hasUsableSender_iff.2 hsender
    rw [Packet.said, husable, if_pos rfl, List.filter_map] at hsaid
    have htexts := congrArg (List.map Prod.snd) hsaid
    simpa [Function.comp_def] using htexts
  · have hspeaks := (@speaks_served calls m).messages
    have hempty : m.mesh.messages = Recent.newest limits.messageHistory [] := by
      rw [hstart, Recent.newest_of_le (Nat.zero_le _)]
      rfl
    have hlimits : m.mesh.limits = limits := by
      rw [hstart]
      rfl
    rw [hspeaks, hempty, hlimits, Mesh.recorded_newest]
    rfl
  · obtain ⟨q, hq, hqk⟩ := hc
    have hseen := h.later_seen hstart hid hl ⟨q, hq, hqk⟩
    refine outcome_of_repeated (p := q) (by rw [receiver_served]; exact hq) ?_
    rw [isRepeated_eq _ (hqk ▸ hid), hqk]
    exact hseen

/-- A run of fewer calls than the cache holds packets drives none out of it. -/
theorem length_accepted_le {r : Receiver} {c : DedupCache} (calls : List Call) :
    (c.accepted (arrivals r calls)).length ≤ calls.length :=
  Nat.le_trans (DedupCache.accepted_sublist _ c).length_le (List.length_filterMap_le ..)

section Example

/-- A ciphertext that a receiver without a key cannot read. -/
def sealedCopy (s : Int) : Call :=
  .step ⟨.message "msh/2/e/LongFast/!bbbbbbbb"
    [0x0a, 0x13, 0x0d, 0xaa, 0xaa, 0xaa, 0xaa, 0x15, 0xff, 0xff, 0xff, 0xff, 0x2a, 0x02, 0x01, 0x02,
      0x35, 0x07, 0x00, 0x00, 0x00] 0, .ofSecs s⟩

/-- The text of the same packet. -/
def textCopy (s : Int) : Call :=
  .step ⟨.message "msh/2/json/LongFast/!bbbbbbbb" (Bytes.ofText
    "\x7b\"from\":2863311530,\"id\":7,\"type\":\"text\",\"payload\":\x7b\"text\":\"hi\"\x7d\x7d") 0,
    .ofSecs s⟩

theorem text_before_ciphertext :
    let start : Monitor := ⟨Mesh.new {} "" {}, {}, {}, .standard⟩
    let k : PacketKey := ⟨7, ⟨0xaaaaaaaa⟩⟩
    let calls := [textCopy 10, sealedCopy 11, textCopy 12]
    let messages := Mesh.received (toldBy (start.answers calls))
    Copies start k [] (textCopy 10) [sealedCopy 11, textCopy 12] ∧
    (messages.filter fun x => x.key == k).map Message.text = ["hi"] := by
  intro start k calls messages
  have hcopies : Copies start k [] (textCopy 10) [sealedCopy 11, textCopy 12] := by
    refine ⟨by decide, by decide +kernel, fun c hc => absurd hc List.not_mem_nil, by decide +kernel,
      fun between c after hl _ => ?_⟩
    have hlength := congrArg List.length hl
    simp only [List.length_append, List.length_cons, List.length_nil] at hlength
    have hle := length_accepted_le (r := start.receiver)
      (c := (start.served ([] ++ [textCopy 10])).mesh.dedup) between
    have hcap : start.mesh.dedup.capacity = 10000 := by decide
    omega
  obtain ⟨p, hp, hk⟩ := hcopies.brings
  have hdecides := first_copy_decides start {} "" {} k [] (textCopy 10) [sealedCopy 11, textCopy 12] p
    rfl (by decide) ⟨by decide, by decide⟩ hcopies hp hk
  have htexts : ((textCopy 10).carried start.receiver).map Packet.texts = some ["hi"] := by
    decide +kernel
  rw [hp] at htexts
  exact ⟨hcopies, hdecides.1.trans (Option.some.inj htexts)⟩

/-- In the other order the text is lost. -/
theorem ciphertext_before_text :
    let start : Monitor := ⟨Mesh.new {} "" {}, {}, {}, .standard⟩
    let calls := [sealedCopy 10, textCopy 11]
    InOrder calls ∧
    calls.map (fun c => (c.carried start.receiver).map fun p => (p.key, p.texts))
      = [some (⟨7, ⟨0xaaaaaaaa⟩⟩, []), some (⟨7, ⟨0xaaaaaaaa⟩⟩, ["hi"])] ∧
    (start.answers calls).map Answer.outcome = [some .headerOnly, some .duplicate] ∧
    (start.served calls).mesh.messages = [] := by
  refine ⟨?_, ?_, ?_, ?_⟩ <;> decide +kernel

end Example

end Monitor

end MeshWatch
