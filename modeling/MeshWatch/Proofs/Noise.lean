import MeshWatch.Proofs.Duplicates
import MeshWatch.Proofs.Tallies

/-!
# Noise

A broker delivers a lot that is no news: malformed messages, repetitions, gateways that go
offline. All of it could be taken out of a run, and nobody would notice. A repetition does
touch the cache of packets: it makes it drop what expired. As long as times do not go back,
that answers no later question differently. The tables of nodes and routes it does not touch,
and so they hand out what they hold in the order in which they would have done it without.

- `Alike`: caches that hold the same from some time on. `dropExpired_dropExpired`: what
  expired may be dropped early.
- `applyNew_withCache`, `sweep_withCache`: nothing else looks into the cache.
- `Near.serve`, `Near.noise`: one call, on monitors that differ in their caches.
- `noise_leaves_no_trace`: a whole run, with its noise and without.
-/

namespace MeshWatch

/-! ## Caches that answer alike -/

namespace DedupCache

variable {now later : Moment}

/-- What is dropped at one time and what is left dropped later is dropped later at once. -/
theorem dropExpired_dropExpired (window : Span) (h : now ≤ later) (order : List Arrival) :
    ∀ seen, dropExpired window later (dropExpired window now seen order).1
        (dropExpired window now seen order).2 = dropExpired window later seen order := by
  induction order with
  | nil => intro seen; rfl
  | cons b order ih =>
    intro seen
    obtain ⟨k, t⟩ := b
    cases hnow : now.within t window with
    | true => simp only [dropExpired, hnow, if_true]
    | false =>
      have hlater : later.within t window = false := by
        rw [← Bool.not_eq_true]
        intro hyoung
        have hfirst : now.within t window = true := isYoung_of_le (b := (k, t)) h hyoung
        rw [hnow] at hfirst
        cases hfirst
      simp only [dropExpired, hnow, hlater, if_false, Bool.false_eq_true]
      exact ih (forget seen k t)

/-- A cache after it dropped what expired. -/
def expired (c : DedupCache) (now : Moment) : DedupCache :=
  { c with
    seen := (dropExpired c.window now c.seen c.order).1
    order := (dropExpired c.window now c.seen c.order).2 }

theorem expired_expired (c : DedupCache) (h : now ≤ later) :
    (c.expired now).expired later = c.expired later := by
  have hdrop := dropExpired_dropExpired c.window h c.order c.seen
  unfold expired
  dsimp only
  rw [hdrop]

/-- Whatever is asked from some time on, both caches hold the same by then. -/
def Alike (now : Moment) (c c' : DedupCache) : Prop :=
  ∀ later, now ≤ later → c.expired later = c'.expired later

theorem Alike.refl (now : Moment) (c : DedupCache) : Alike now c c := fun _ _ => rfl

theorem Alike.mono {c c' : DedupCache} (h : Alike now c c') (hle : now ≤ later) :
    Alike later c c' := fun t ht => h t (Int.le_trans hle ht)

theorem accept_expired (c : DedupCache) (k : PacketKey) (now : Moment) :
    c.accept k now = (c.expired now).accept k now := by
  have hdrop := dropExpired_dropExpired c.window (Int.le_refl now.nanos) c.order c.seen
  unfold accept expired
  dsimp only
  rw [hdrop]

theorem Alike.accept {c c' : DedupCache} (h : Alike now c c') (k : PacketKey) :
    c.accept k now = c'.accept k now := by
  rw [accept_expired c, accept_expired c', h now (Int.le_refl _)]

/-- A repetition only makes the cache drop what expired. -/
theorem accept_repeated {c : DedupCache} {k : PacketKey} (h : (c.accept k now).1 = true) :
    (c.accept k now).2 = c.expired now := by
  unfold DedupCache.accept at h ⊢
  dsimp only at h ⊢
  split at h
  · next hk =>
    rw [if_pos hk]
    rfl
  · cases h

theorem Alike.repeated {c c' : DedupCache} {k : PacketKey} (h : Alike now c c')
    (hr : (c.accept k now).1 = true) : Alike now (c.accept k now).2 c' := by
  intro later hle
  rw [accept_repeated hr, expired_expired c hle]
  exact h later hle

end DedupCache

/-! ## What does not look into the cache -/

namespace Mesh

/-- A mesh with another cache. -/
def withCache (m : Mesh) (c : DedupCache) : Mesh := { m with dedup := c }

theorem resolveChannel_withCache (m : Mesh) (c : DedupCache) (name : String) (index : UInt32) :
    (m.withCache c).resolveChannel name index
      = ((m.resolveChannel name index).1.withCache c, (m.resolveChannel name index).2) := by
  have hnamed : (m.withCache c).slotNamed? name = m.slotNamed? name := rfl
  have hfree : (m.withCache c).freeSlot? = m.freeSlot? := rfl
  unfold resolveChannel
  rw [hnamed, hfree]
  split
  · rfl
  · split
    · rfl
    · split <;> rfl

theorem removeOldest_withCache (m : Mesh) (c : DedupCache) (keep : List NodeId) :
    (m.withCache c).removeOldest keep
      = ((m.removeOldest keep).1.withCache c, (m.removeOldest keep).2) := by
  have hfound : (m.withCache c).sightings.oldest (m.withCache c).isUpToDate keep.contains
      (m.withCache c).sightings.size [] = m.sightings.oldest m.isUpToDate keep.contains
      m.sightings.size [] := rfl
  unfold removeOldest
  rw [hfound]
  generalize m.sightings.oldest m.isUpToDate keep.contains m.sightings.size [] = r
  obtain ⟨oldest, rest⟩ := r
  cases oldest <;> rfl

theorem makeRoom_withCache (c : DedupCache) (keep : List NodeId) (fuel : Nat) : ∀ m : Mesh,
    makeRoom keep fuel (m.withCache c)
      = ((makeRoom keep fuel m).1.withCache c, (makeRoom keep fuel m).2) := by
  induction fuel with
  | zero => intro m; rfl
  | succ fuel ih =>
    intro m
    have hfull : ((m.withCache c).nodes.size < (m.withCache c).limits.nodeCap)
        = (m.nodes.size < m.limits.nodeCap) := rfl
    have hsize : (m.withCache c).nodes.size = m.nodes.size := rfl
    simp only [makeRoom, removeOldest_withCache, hfull]
    split
    · rfl
    · rcases m.removeOldest keep with ⟨m', _ | id⟩
      · rfl
      · simp only [ih, hsize]

theorem ensure_withCache (m : Mesh) (c : DedupCache) (id : NodeId) (now : Moment)
    (keep : List NodeId) :
    (m.withCache c).ensure id now keep
      = ((m.ensure id now keep).1.withCache c, (m.ensure id now keep).2) := by
  have hknown : (m.withCache c).nodes.contains id = m.nodes.contains id := rfl
  have hsize : (m.withCache c).nodes.size = m.nodes.size := rfl
  have hsight : ∀ m : Mesh, (m.withCache c).sight id now = (m.sight id now).withCache c := by
    intro m
    unfold sight
    by_cases hmany : m.sightingBound < m.sightings.size
    · have hmany' : (m.withCache c).sightingBound < (m.withCache c).sightings.size := hmany
      rw [if_pos hmany, if_pos hmany']
      rfl
    · have hmany' : ¬(m.withCache c).sightingBound < (m.withCache c).sightings.size := hmany
      rw [if_neg hmany, if_neg hmany']
      rfl
  simp only [ensure, announce, hknown, hsize, makeRoom_withCache]
  split <;> simp only [hsight]

theorem applyUpdate_withCache (m : Mesh) (c : DedupCache) (id : NodeId) (u : NodeUpdate)
    (now : Moment) :
    (m.withCache c).applyUpdate id u now
      = ((m.applyUpdate id u now).1.withCache c, (m.applyUpdate id u now).2) := rfl

theorem updateNode_withCache (m : Mesh) (c : DedupCache) (id : NodeId) (u : NodeUpdate)
    (now : Moment) :
    (m.withCache c).updateNode id u now
      = ((m.updateNode id u now).1.withCache c, (m.updateNode id u now).2) := by
  unfold updateNode
  split
  · rfl
  · simp only [ensure_withCache, applyUpdate_withCache]
    rfl

theorem hearSender_withCache (m : Mesh) (c : DedupCache) (p : Packet) (now : Moment) :
    (m.withCache c).hearSender p now
      = ((m.hearSender p now).1.withCache c, (m.hearSender p now).2) := by
  simp only [hearSender, ensure_withCache, applyUpdate_withCache]
  rfl

theorem hearRelay_withCache (m : Mesh) (c : DedupCache) (p : Packet) (now : Moment) :
    (m.withCache c).hearRelay p now
      = ((m.hearRelay p now).1.withCache c, (m.hearRelay p now).2) := by
  unfold hearRelay
  split
  · simp only [ensure_withCache]
    rfl
  · rfl

theorem hearGateway_withCache (m : Mesh) (c : DedupCache) (p : Packet) (now : Moment) :
    (m.withCache c).hearGateway p now
      = ((m.hearGateway p now).1.withCache c, (m.hearGateway p now).2) := by
  unfold hearGateway
  split
  · simp only [ensure_withCache]
    split <;> rfl
  · rfl

theorem removeRoute_withCache (m : Mesh) (c : DedupCache) (id : NodeId) :
    (m.withCache c).removeRoute id = (m.removeRoute id).withCache c := by
  have hknown : (m.withCache c).routes[id]? = m.routes[id]? := rfl
  unfold removeRoute
  rw [hknown]
  split <;> rfl

theorem makeRouteRoom_withCache (c : DedupCache) (fuel : Nat) : ∀ m : Mesh,
    makeRouteRoom fuel (m.withCache c) = (makeRouteRoom fuel m).withCache c := by
  induction fuel with
  | zero => intro m; rfl
  | succ fuel ih =>
    intro m
    have hfull : ((m.withCache c).routes.size < (m.withCache c).limits.routeCap)
        = (m.routes.size < m.limits.routeCap) := rfl
    have holdest : (m.withCache c).oldestRoute? = m.oldestRoute? := rfl
    simp only [makeRouteRoom, hfull, holdest, removeRoute_withCache]
    split
    · rfl
    · split
      · exact ih _
      · rfl

theorem updateRoute_withCache (m : Mesh) (c : DedupCache) (r : Route) :
    (m.withCache c).updateRoute r
      = ((m.updateRoute r).1.withCache c, (m.updateRoute r).2) := by
  have hbetter : (m.withCache c).isBetterRoute r = m.isBetterRoute r := rfl
  have hknown : (m.withCache c).routes[r.destination]? = m.routes[r.destination]? := rfl
  have hsize : (m.withCache c).routes.size = m.routes.size := rfl
  have hstore : (m.withCache c).storeRoute r = (m.storeRoute r).withCache c := by
    unfold storeRoute
    rw [hknown, hsize, makeRouteRoom_withCache]
    split <;> rfl
  unfold updateRoute
  rw [hbetter, hstore]
  split <;> rfl

theorem updateNeighbors_withCache (m : Mesh) (c : DedupCache) (id : NodeId)
    (entries : List NeighborEntry) :
    (m.withCache c).updateNeighbors id entries = (m.updateNeighbors id entries).withCache c := by
  have hfold : ∀ (ids : List NodeId) (m : Mesh),
      ids.foldl (fun m i => m.modifyNode i fun n => n.isHeardBy id) (m.withCache c)
        = (ids.foldl (fun m i => m.modifyNode i fun n => n.isHeardBy id) m).withCache c := by
    intro ids
    induction ids with
    | nil => intro m; rfl
    | cons i ids ih => exact fun m => ih (m.modifyNode i fun n => n.isHeardBy id)
  unfold updateNeighbors
  exact hfold _ (m.modifyNode id _)

theorem takePayload_withCache (m : Mesh) (c : DedupCache) (p : Packet) (channel : UInt32)
    (now : Moment) :
    (m.withCache c).takePayload p channel now
      = ((m.takePayload p channel now).1.withCache c, (m.takePayload p channel now).2) := by
  have hreporter : ∀ r, (m.withCache c).reporterOf p.sender r = m.reporterOf p.sender r :=
    fun _ => rfl
  unfold takePayload
  split
  · rfl
  · simp only [updateRoute_withCache]
  · simp only [hreporter, updateNeighbors_withCache]
  · rfl

/-- A packet that is applied is applied without looking into the cache. -/
theorem applyNew_withCache (m : Mesh) (c : DedupCache) (p : Packet) (now : Moment) :
    (m.withCache c).applyNew p now = ((m.applyNew p now).1.withCache c, (m.applyNew p now).2) := by
  have hknown : (m.withCache c).nodes.contains p.sender = m.nodes.contains p.sender := rfl
  have htouch : ∀ (m : Mesh) (channel : UInt32), (m.withCache c).touchChannel channel false now
      = (m.touchChannel channel false now).withCache c := fun _ _ => rfl
  unfold applyNew
  split
  · simp only [hknown, resolveChannel_withCache, htouch, hearSender_withCache,
      hearRelay_withCache, hearGateway_withCache, takePayload_withCache]
    rfl
  · rfl

theorem removeNodes_withCache (c : DedupCache) (ids : List NodeId) : ∀ m : Mesh,
    (m.withCache c).removeNodes ids = (m.removeNodes ids).withCache c := by
  induction ids with
  | nil => intro m; rfl
  | cons id ids ih => exact fun m => ih (m.removeNode id)

theorem sweep_withCache (m : Mesh) (c : DedupCache) (now : Moment) :
    (m.withCache c).sweep now = ((m.sweep now).1.withCache c, (m.sweep now).2) := by
  have hstale : (m.withCache c).staleNodes now = m.staleNodes now := rfl
  have hexcess : ∀ m : Mesh, (m.withCache c).excessNodes = m.excessNodes := fun _ => rfl
  simp only [sweep, hstale, removeNodes_withCache, hexcess]

/-! ## Meshes that differ in their caches -/

/-- Meshes with caches that answer alike from some time on, and all else the same. -/
def Near (now : Moment) (m m' : Mesh) : Prop :=
  ∃ c, m' = m.withCache c ∧ m.dedup.Alike now c

variable {m m' : Mesh} {now later : Moment}

theorem Near.refl (now : Moment) (m : Mesh) : Near now m m := ⟨m.dedup, rfl, .refl now m.dedup⟩

theorem Near.mono (h : Near now m m') (hle : now ≤ later) : Near later m m' := by
  obtain ⟨c, he, hc⟩ := h
  exact ⟨c, he, hc.mono hle⟩

/-- Whatever does not look into the cache does the same to both. -/
theorem Near.blind {α : Type} {f : Mesh → Mesh × α}
    (hf : ∀ m c, f (m.withCache c) = ((f m).1.withCache c, (f m).2)) (h : Near now m m') :
    Near now (f m).1 (f m').1 ∧ (f m').2 = (f m).2 := by
  obtain ⟨c, rfl, hc⟩ := h
  have hkept : (f m).1.dedup = m.dedup := congrArg (fun r => r.1.dedup) (hf m m.dedup)
  rw [hf m c]
  exact ⟨⟨c, rfl, hkept.symm ▸ hc⟩, rfl⟩

theorem Near.apply (h : Near now m m') (p : Packet) :
    Near now (m.apply p now).1 (m'.apply p now).1 ∧ (m'.apply p now).2 = (m.apply p now).2 := by
  by_cases hid : p.packetId = 0
  · have hblind := h.blind (f := fun m => m.applyNew p now) fun m c => applyNew_withCache m c p now
    simp only [Mesh.apply, hid, if_true]
    exact hblind
  · obtain ⟨c, rfl, hc⟩ := h
    have hanswer : (m.withCache c).dedup.accept ⟨p.packetId, p.sender⟩ now
        = m.dedup.accept ⟨p.packetId, p.sender⟩ now := (hc.accept _).symm
    -- both hold the same once the packet was looked up
    have hsame : (m.withCache c).apply p now = m.apply p now := by
      simp only [Mesh.apply, hid, if_false, hanswer]
      rfl
    rw [hsame]
    exact ⟨.refl now _, rfl⟩

/-- A repetition can be left out. -/
theorem Near.repeated (h : Near now m m') {p : Packet} (hr : m.isRepeated p now = true) :
    Near now (m.apply p now).1 m' := by
  obtain ⟨c, rfl, hc⟩ := h
  obtain ⟨hid, hseen⟩ :
      (p.packetId ≠ 0) ∧ (m.dedup.accept ⟨p.packetId, p.sender⟩ now).1 = true := by
    simpa [isRepeated] using hr
  refine ⟨c, ?_, ?_⟩
  · simp only [Mesh.apply, hid, if_false, hseen]
    rfl
  · simp only [Mesh.apply, hid, if_false, hseen]
    exact hc.repeated hseen

end Mesh

/-- Whether nothing comes of a message with such an outcome. -/
def Outcome.isNoise (online : Bool) : Outcome → Bool
  | .rejected _ => true
  | .ignored => true
  | .duplicate => true
  | .status => !online
  | _ => false

namespace Monitor

/-! ## Monitors that differ in their caches -/

/-- Monitors whose meshes differ in their caches only, and whose counters may differ. -/
structure Near (now : Moment) (m m' : Monitor) : Prop where
  mesh : Mesh.Near now m.mesh m'.mesh
  receiver : m'.receiver = m.receiver

/-- Two results of one call: the same became of it, the same was told to others, and the
monitors are near each other again. -/
structure Agrees {α : Type} (now : Moment) (r r' : Monitor × Journal × α) : Prop where
  near : Near now r.1 r'.1
  events : Journal.events r'.2.1 = Journal.events r.2.1
  outcome : r'.2.2 = r.2.2

/-- When a call is made. -/
def Call.now : Call → Moment
  | step s => s.now
  | packet _ now => now

/-- Whether the body of a message says that a gateway is online. -/
def Call.saysOnline : Call → Bool
  | step ⟨.message _ body _, _⟩ => Monitor.saysOnline body
  | _ => false

/-- The message was refused, ignored or known, or was the status of a gateway that is not
online. -/
def Answer.isNoise (a : Answer) : Bool := a.outcome.any (·.isNoise a.call.saysOnline)

variable {m m' : Monitor} {now : Moment}

theorem Near.refl (now : Moment) (m : Monitor) : Near now m m := ⟨.refl now m.mesh, rfl⟩

theorem Near.mono {later : Moment} (h : Near now m m') (hle : now ≤ later) : Near later m m' :=
  ⟨h.mesh.mono hle, h.receiver⟩

theorem Near.applyPacket (h : Near now m m') (p : Packet) :
    Agrees now (m.applyPacket p now) (m'.applyPacket p now) := by
  obtain ⟨hmesh, hsame⟩ := h.mesh.apply p
  unfold Monitor.applyPacket
  generalize m.mesh.apply p now = r at hmesh hsame
  generalize m'.mesh.apply p now = r' at hmesh hsame
  obtain ⟨mesh, told, report⟩ := r
  obtain ⟨mesh', told', report'⟩ := r'
  cases hsame
  dsimp only at hmesh ⊢
  split
  · exact ⟨⟨hmesh, h.receiver⟩, rfl, rfl⟩
  · exact ⟨⟨hmesh, h.receiver⟩, rfl, rfl⟩

theorem Near.reject (h : Near now m m') (fault : DecodeFault) (tick : Tick) :
    Agrees now (m.reject fault tick) (m'.reject fault tick) := by
  refine ⟨⟨h.mesh, h.receiver⟩, ?_, rfl⟩
  rw [events_reject, events_reject]

theorem Near.takeStatus (h : Near now m m') (t : Topic) (body : Bytes) :
    Agrees now (m.takeStatus t body now) (m'.takeStatus t body now) := by
  unfold Monitor.takeStatus
  split
  · next id _ =>
    split
    · obtain ⟨hmesh, hsame⟩ := h.mesh.blind (f := fun m => m.updateNode id {} now)
        fun m c => Mesh.updateNode_withCache m c id {} now
      exact ⟨⟨hmesh, h.receiver⟩, congrArg (fun r => Journal.events r.1) hsame, rfl⟩
    · exact ⟨h, rfl, rfl⟩
  · exact ⟨h, rfl, rfl⟩

theorem Near.dispatch (h : Near now m m') (topic : String) (body : Bytes) (tick : Tick) :
    Agrees now (m.dispatch topic body now tick) (m'.dispatch topic body now tick) := by
  unfold Monitor.dispatch
  split
  · exact h.reject _ tick
  · split
    · exact h.takeStatus _ body
    · exact ⟨h, rfl, rfl⟩
    · rw [h.receiver]
      split
      · exact h.reject _ tick
      · exact h.applyPacket _

/-- **The same call** is answered alike by monitors that are near each other. -/
theorem Near.serve {c : Call} (h : Near c.now m m') : Agrees c.now (m.serve c) (m'.serve c) := by
  cases c with
  | packet p now =>
    have hagrees := Near.applyPacket h p
    exact ⟨hagrees.near, hagrees.events, congrArg some hagrees.outcome⟩
  | step s =>
    obtain ⟨input, now⟩ := s
    cases input with
    | message topic body tick =>
      have hcounted : Near now { m with stats := m.stats.received now }
          { m' with stats := m'.stats.received now } := ⟨h.mesh, h.receiver⟩
      have hagrees := hcounted.dispatch topic body tick
      exact ⟨hagrees.near, hagrees.events, congrArg some hagrees.outcome⟩
    | sweep =>
      obtain ⟨hmesh, hsame⟩ := h.mesh.blind (f := fun m => m.sweep now)
        fun m c => Mesh.sweep_withCache m c now
      refine ⟨⟨hmesh, h.receiver⟩, ?_, rfl⟩
      exact congrArg (fun ids => Journal.events (Mesh.sweepJournal ids)) hsame

/-! ## Noise -/

variable {online : Bool}

theorem Near.noise_applyPacket (h : Near now m m') {p : Packet}
    (hn : (m.applyPacket p now).2.2.isNoise online = true) :
    Near now (m.applyPacket p now).1 m' ∧ Journal.events (m.applyPacket p now).2.1 = [] := by
  obtain ⟨dedup, ⟨hr, he⟩ | ⟨-, _, _, _, -, he⟩⟩ := m.applyPacket_cases p now
  · have hmesh : Mesh.Near now (m.applyPacket p now).1.mesh m'.mesh := by
      rw [(m.mesh_applyPacket p now).1]
      exact h.mesh.repeated hr
    rw [he] at hmesh ⊢
    exact ⟨⟨hmesh, h.receiver⟩, rfl⟩
  · rw [he] at hn
    cases hh : p.isHeaderOnly with
    | false => simp [hh, Outcome.isNoise] at hn
    | true => simp [hh, Outcome.isNoise] at hn

theorem Near.noise_takeStatus (h : Near now m m') {t : Topic} {body : Bytes}
    (hn : (m.takeStatus t body now).2.2.isNoise (Monitor.saysOnline body) = true) :
    Near now (m.takeStatus t body now).1 m' ∧
    Journal.events (m.takeStatus t body now).2.1 = [] := by
  unfold Monitor.takeStatus at hn ⊢
  split
  · split
    · next id heq honline =>
      simp [heq, honline, Outcome.isNoise] at hn
    · exact ⟨h, rfl⟩
  · exact ⟨h, rfl⟩

theorem Near.noise_dispatch (h : Near now m m') {topic : String} {body : Bytes} {tick : Tick}
    (hn : (m.dispatch topic body now tick).2.2.isNoise (Monitor.saysOnline body) = true) :
    Near now (m.dispatch topic body now tick).1 m' ∧
    Journal.events (m.dispatch topic body now tick).2.1 = [] := by
  have hreject : ∀ fault, Near now (m.reject fault tick).1 m' ∧
      Journal.events (m.reject fault tick).2.1 = [] := fun fault =>
    ⟨⟨h.mesh, h.receiver⟩, events_reject m fault tick⟩
  unfold Monitor.dispatch at hn ⊢
  split at hn
  · exact hreject _
  · split at hn
    · exact h.noise_takeStatus hn
    · exact ⟨h, rfl⟩
    · split at hn
      · exact hreject _
      · exact h.noise_applyPacket hn

/-- **Noise** changes no more than the cache, and nothing is told to others about it. -/
theorem Near.noise {c : Call} (h : Near c.now m m')
    (hn : Answer.isNoise ⟨c, (m.serve c).2.1, (m.serve c).2.2⟩ = true) :
    Near c.now (m.serve c).1 m' ∧ Journal.events (m.serve c).2.1 = [] := by
  cases c with
  | packet p now => exact h.noise_applyPacket hn
  | step s =>
    obtain ⟨input, now⟩ := s
    cases input with
    | message topic body tick =>
      have hcounted : Near now { m with stats := m.stats.received now } m' := ⟨h.mesh, h.receiver⟩
      exact hcounted.noise_dispatch hn
    | sweep => cases hn

/-! ## Runs with noise and without -/

/-- The answers that are not noise. -/
def news (answers : List Answer) : List Answer := answers.filter fun a => !a.isNoise

/-- The calls that lead to them. -/
def withoutNoise (m : Monitor) (calls : List Call) : List Call :=
  (news (m.answers calls)).map Answer.call

/-- The calls come in the order of their times. -/
def InOrder (calls : List Call) : Prop := calls.Pairwise fun c d => c.now ≤ d.now

instance (calls : List Call) : Decidable (InOrder calls) :=
  inferInstanceAs (Decidable (calls.Pairwise fun c d => c.now ≤ d.now))

theorem InOrder.exists_start {calls : List Call} (h : InOrder calls) :
    ∃ now, ∀ c ∈ calls, now ≤ c.now := by
  cases calls with
  | nil => exact ⟨.ofSecs 0, fun _ hc => absurd hc List.not_mem_nil⟩
  | cons c calls =>
    refine ⟨c.now, fun d hd => ?_⟩
    rcases List.mem_cons.1 hd with rfl | hd
    · exact Int.le_refl _
    · exact (List.pairwise_cons.1 h).1 d hd

/-- A run and another one that left out the noise of it: the meshes differ in their caches
at the end, all else is the same. -/
structure Matches (m m' : Monitor) (calls quiet : List Call) : Prop where
  mesh : ∃ c, (m'.served quiet).mesh = (m.served calls).mesh.withCache c
  outcomes : (m'.answers quiet).map Answer.outcome = (news (m.answers calls)).map Answer.outcome
  events : Journal.events (toldBy (m'.answers quiet)) = Journal.events (toldBy (m.answers calls))

theorem events_toldBy_cons (a : Answer) (answers : List Answer) :
    Journal.events (toldBy (a :: answers))
      = Journal.events a.told ++ Journal.events (toldBy answers) := by
  rw [toldBy, List.flatMap_cons, Journal.events_append]
  rfl

theorem matches_withoutNoise {calls : List Call} (hord : InOrder calls) :
    ∀ {m m' : Monitor} {now : Moment}, Near now m m' → (∀ c ∈ calls, now ≤ c.now) →
      Matches m m' calls (m.withoutNoise calls) := by
  induction calls with
  | nil =>
    intro m m' now h _
    obtain ⟨c, hc, -⟩ := h.mesh
    exact ⟨⟨c, hc⟩, rfl, rfl⟩
  | cons c calls ih =>
    intro m m' now h hlater
    obtain ⟨hnext, hrest⟩ := List.pairwise_cons.1 hord
    have hnear : Near c.now m m' := h.mono (hlater c (List.mem_cons_self ..))
    let a : Answer := ⟨c, (m.serve c).2.1, (m.serve c).2.2⟩
    cases hn : a.isNoise with
    | true =>
      obtain ⟨hafter, hquiet⟩ := hnear.noise hn
      have hrun := ih hrest hafter hnext
      have hcalls : m.withoutNoise (c :: calls) = (m.serve c).1.withoutNoise calls := by
        rw [withoutNoise, news, answers, List.filter_cons_of_neg (by simpa using hn)]
        rfl
      have hnews : news (m.answers (c :: calls)) = news ((m.serve c).1.answers calls) := by
        rw [news, answers, List.filter_cons_of_neg (by simpa using hn)]
        rfl
      rw [hcalls]
      refine ⟨hrun.mesh, ?_, ?_⟩
      · rw [hnews]
        exact hrun.outcomes
      · rw [hrun.events, answers, events_toldBy_cons, hquiet]
        rfl
    | false =>
      have hsame := hnear.serve
      have hrun := ih hrest hsame.near hnext
      have hcalls : m.withoutNoise (c :: calls) = c :: (m.serve c).1.withoutNoise calls := by
        rw [withoutNoise, news, answers, List.filter_cons_of_pos (by simpa using hn)]
        rfl
      have hnews : news (m.answers (c :: calls)) = a :: news ((m.serve c).1.answers calls) := by
        rw [news, answers, List.filter_cons_of_pos (by simpa using hn)]
        rfl
      rw [hcalls]
      refine ⟨hrun.mesh, ?_, ?_⟩
      · rw [hnews, answers, List.map_cons, List.map_cons, hrun.outcomes, hsame.outcome]
      · rw [answers, answers, events_toldBy_cons, events_toldBy_cons, hrun.events, hsame.events]

/-- **Noise leaves no trace.** Take out of a run, the times of which do not go back, all
messages that were refused, ignored or known and the statuses of gateways that are not
online. The same becomes of the messages that are left, the same events are told one after the
other, and the same nodes, channels, routes and messages are stored at the end, whatever the
orders of the hash tables are. -/
theorem noise_leaves_no_trace (m : Monitor) (calls : List Call) (hord : InOrder calls) :
    let quiet := m.withoutNoise calls
    let noisy := m.served calls
    let clear := m.served quiet
    (m.answers quiet).map Answer.outcome = (news (m.answers calls)).map Answer.outcome ∧
    Journal.events (toldBy (m.answers quiet)) = Journal.events (toldBy (m.answers calls)) ∧
    clear.mesh.nodes = noisy.mesh.nodes ∧
    clear.mesh.channels = noisy.mesh.channels ∧
    clear.mesh.routes = noisy.mesh.routes ∧
    clear.mesh.messages = noisy.mesh.messages ∧
    clear.mesh.lastUpdate = noisy.mesh.lastUpdate := by
  intro quiet noisy clear
  obtain ⟨now, hnow⟩ := hord.exists_start
  have hmatch := matches_withoutNoise hord (Near.refl now m) hnow
  obtain ⟨c, hmesh⟩ := hmatch.mesh
  have hclear : clear.mesh = noisy.mesh.withCache c := hmesh
  rw [hclear]
  exact ⟨hmatch.outcomes, hmatch.events, rfl, rfl, rfl, rfl, rfl⟩

/-- A gateway comes online, somebody sends rubbish, and the gateway goes offline, comes online
again and sends one position twice: three of the six messages are noise. -/
theorem gateway_among_noise :
    let start : Monitor := ⟨Mesh.new {} "" {}, {}, {}, .standard⟩
    let online : Bytes := [0x6f, 0x6e, 0x6c, 0x69, 0x6e, 0x65]
    let offline : Bytes := [0x6f, 0x66, 0x66, 0x6c, 0x69, 0x6e, 0x65]
    let status (body : Bytes) (s : Int) : Call :=
      .step ⟨.message "msh/2/stat/!00001001" body 0, .ofSecs s⟩
    let position (s : Int) : Call :=
      .packet
        { packetId := 7, sender := ⟨0x1001⟩, recipient := .broadcast, gateway := none
          channelName := "", channelIndex := 0, hopLimit := 3, hopStart := 3, rxSnr := none
          rxRssi := none, rxTime := none, relay := none, wantAck := false, encrypted := false
          payload := .position { latitude := some 0.5, longitude := some 0.25 } } (.ofSecs s)
    let rubbish : Call := .step ⟨.message "nowhere" [0x7b] 0, .ofSecs 20⟩
    let calls := [status online 10, rubbish, status offline 30, status online 40, position 50,
      position 60]
    InOrder calls ∧
    (start.answers calls).map Answer.isNoise = [false, true, true, false, false, true] ∧
    (start.answers (start.withoutNoise calls)).map Answer.outcome
      = [some .status, some .status, some .applied] ∧
    (start.served (start.withoutNoise calls)).mesh.nodes = (start.served calls).mesh.nodes := by
  intro start online offline status position rubbish calls
  have hord : InOrder calls := by decide
  obtain ⟨houtcomes, -, hnodes, -⟩ := noise_leaves_no_trace start calls hord
  refine ⟨hord, ?_, ?_, hnodes⟩
  · decide +kernel
  · rw [houtcomes]
    decide +kernel

end Monitor

end MeshWatch
