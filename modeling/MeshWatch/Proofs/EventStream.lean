import Mathlib.Data.Finset.Basic
import MeshWatch.Proofs.Eviction

/-!
# What the events tell

A subscriber that sees nothing but the events can keep a list of the nodes: it adds a
node that was created and drops one that became stale. The list is never wrong, and no
event ever contradicts it. Nor is a message lost on it: the messages that it receives are
those that were put into the history.

- `Mirrors`: the news of a step fits the nodes before it and leads to those after it.
  `mirrors_moves`, `mirrors_sweep`: every step but a restoration has such news.
- `spoken`: the messages that a step puts into the history.
- `events_mirror_mesh`: the events of a whole run.
-/

namespace MeshWatch

/-! ## A list kept by events -/

/-- What an event does to a list of nodes. -/
def Event.follow (r : Finset NodeId) : Event → Finset NodeId
  | nodeCreated id => insert id r
  | nodeStale id => r.erase id
  | _ => r

/-- Whether an event agrees with a list of nodes: those created are new, and those that
became stale were known. -/
def Event.Fits (r : Finset NodeId) : Event → Prop
  | nodeCreated id => id ∉ r
  | nodeStale id => id ∈ r
  | _ => True

/-- The list of nodes after several events. -/
def follow (r : Finset NodeId) (es : List Event) : Finset NodeId := es.foldl Event.follow r

/-- The list of a subscriber that heard all events from the first one. -/
def roster (es : List Event) : Finset NodeId := follow ∅ es

/-- Every event agrees with the list that the events before it lead to. -/
def Lawful (r : Finset NodeId) : List Event → Prop
  | [] => True
  | e :: es => e.Fits r ∧ Lawful (e.follow r) es

theorem follow_append (r : Finset NodeId) (es more : List Event) :
    follow r (es ++ more) = follow (follow r es) more := List.foldl_append

theorem lawful_append {es more : List Event} : ∀ {r : Finset NodeId},
    Lawful r (es ++ more) ↔ Lawful r es ∧ Lawful (follow r es) more := by
  induction es with
  | nil =>
    intro r
    exact ⟨fun h => ⟨trivial, h⟩, And.right⟩
  | cons e es ih =>
    intro r
    show e.Fits r ∧ Lawful (e.follow r) (es ++ more) ↔ (_ ∧ _) ∧ _
    rw [ih, and_assoc]
    rfl

theorem Lawful.fits {r : Finset NodeId} {pre post : List Event} {e : Event}
    (h : Lawful r (pre ++ e :: post)) : e.Fits (follow r pre) := (lawful_append.1 h).2.1

/-- Events about anything else change nothing. -/
theorem follow_quiet {es : List Event} (h : es.filter Mesh.isChangeOfNodes = [])
    (r : Finset NodeId) : Lawful r es ∧ follow r es = r := by
  induction es with
  | nil => exact ⟨trivial, rfl⟩
  | cons e es ih =>
    have he : Mesh.isChangeOfNodes e = false := by
      simpa using List.filter_eq_nil_iff.1 h e (List.mem_cons_self ..)
    have hes : es.filter Mesh.isChangeOfNodes = [] := by
      rwa [List.filter_cons_of_neg (by simp [he])] at h
    have hsame : e.Fits r ∧ e.follow r = r := by
      cases e with
      | nodeCreated | nodeStale => cases he
      | _ => exact ⟨trivial, rfl⟩
    refine ⟨⟨hsame.1, ?_⟩, ?_⟩
    · rw [hsame.2]
      exact (ih hes).1
    · show follow (e.follow r) es = r
      rw [hsame.2]
      exact (ih hes).2

/-- Several known nodes became stale, each of them once. -/
theorem follow_nodeStale {ids : List NodeId} (hn : ids.Nodup) : ∀ {r : Finset NodeId},
    (∀ id ∈ ids, id ∈ r) →
      Lawful r (ids.map .nodeStale) ∧
      ∀ id, id ∈ follow r (ids.map .nodeStale) ↔ id ∈ r ∧ id ∉ ids := by
  induction ids with
  | nil =>
    intro r _
    exact ⟨trivial, fun id => by simp [follow]⟩
  | cons i ids ih =>
    intro r hr
    obtain ⟨hi, hids⟩ := List.nodup_cons.1 hn
    have hrest : ∀ id ∈ ids, id ∈ r.erase i := fun id hid =>
      Finset.mem_erase.2 ⟨fun he => hi (he ▸ hid), hr id (List.mem_cons_of_mem _ hid)⟩
    obtain ⟨hlaw, hmem⟩ := ih hids hrest
    refine ⟨⟨hr i (List.mem_cons_self ..), hlaw⟩, fun id => ?_⟩
    show id ∈ follow (r.erase i) (ids.map .nodeStale) ↔ _
    rw [hmem, Finset.mem_erase, List.mem_cons, not_or]
    tauto

namespace Mesh

variable {m m' : Mesh}

/-! ## News that fit the nodes -/

/-- A list names exactly the nodes of a mesh. -/
def Shows (r : Finset NodeId) (m : Mesh) : Prop := ∀ id, id ∈ r ↔ m.nodes.contains id = true

/-- To whoever knows the nodes of one mesh the news tell those of the other. -/
def Mirrors (m m' : Mesh) (told : Journal) : Prop :=
  ∀ r, Shows r m → Lawful r (Journal.events told) ∧ Shows (follow r (Journal.events told)) m'

theorem Mirrors.trans {m₁ : Mesh} {told told' : Journal} (h : Mirrors m m₁ told)
    (h' : Mirrors m₁ m' told') : Mirrors m m' (told ++ told') := by
  intro r hr
  obtain ⟨hlaw, hshow⟩ := h r hr
  obtain ⟨hlaw', hshow'⟩ := h' _ hshow
  rw [Journal.events_append]
  refine ⟨lawful_append.2 ⟨hlaw, hlaw'⟩, ?_⟩
  rw [follow_append]
  exact hshow'

/-- If nobody comes or goes, there are no such news. -/
theorem mirrors_quiet {told : Journal} (ht : changesOfNodes told = [])
    (hn : ∀ id, m'.nodes.contains id = m.nodes.contains id) : Mirrors m m' told := by
  intro r hr
  obtain ⟨hlaw, hsame⟩ := follow_quiet ht r
  refine ⟨hlaw, fun id => ?_⟩
  rw [hsame, hn]
  exact hr id

theorem removeOldest_some {keep : List NodeId} {id : NodeId}
    (h : m.removeOldest keep = (m', some id)) :
    m.nodes.contains id = true ∧ m'.nodes = m.nodes.erase id := by
  have hsome := @Sightings.oldest_some m.isUpToDate keep.contains id m.sightings.size [] m.sightings
  obtain ⟨found, rest, hfound, he⟩ := m.removeOldest_eq keep
  rw [he] at h
  rw [hfound] at hsome
  cases found with
  | none => cases h
  | some i =>
    cases h
    obtain ⟨x, -, rfl, hup, -⟩ := hsome rfl
    obtain ⟨n, hn, -⟩ := isUpToDate_iff.1 hup
    exact ⟨(m.contains_iff x.id).2 ⟨n, hn⟩, rfl⟩

theorem mirrors_makeRoom (keep : List NodeId) (fuel : Nat) : ∀ m : Mesh,
    Mirrors m (makeRoom keep fuel m).1 (makeRoom keep fuel m).2 := by
  induction fuel with
  | zero => intro m; exact mirrors_quiet changesOfNodes_nil fun _ => rfl
  | succ fuel ih =>
    intro m
    rw [makeRoom]
    split
    · exact mirrors_quiet changesOfNodes_nil fun _ => rfl
    · split
      · next m' he =>
        exact mirrors_quiet changesOfNodes_nil fun id => by rw [removeOldest_none he]
      · next m' id he =>
        obtain ⟨hid, hnodes⟩ := removeOldest_some he
        -- the warning is not for subscribers that follow the nodes
        have hgone : Mirrors m m' [.warning (.nodeCap id m.nodes.size), .event (.nodeStale id)] := by
          intro r hr
          refine ⟨⟨(hr id).2 hid, trivial⟩, fun i => ?_⟩
          show i ∈ r.erase id ↔ _
          have hrem : m'.nodes.contains i = true ↔ m.nodes.contains i = true ∧ i ≠ id := by
            rw [hnodes]
            exact contains_removeNode m id i
          rw [Finset.mem_erase, hr i, hrem, and_comm]
        exact hgone.trans (ih m')

theorem mirrors_ensure (m : Mesh) (id : NodeId) (now : Moment) (keep : List NodeId) :
    Mirrors m (m.ensure id now keep).1 (m.ensure id now keep).2 := by
  unfold ensure announce
  cases hc : m.nodes.contains id with
  | true =>
    refine mirrors_quiet changesOfNodes_nil fun i => ?_
    rw [Bool.eq_iff_iff, contains_sight_iff]
    constructor
    · rintro (hi | rfl)
      · exact hi
      · exact hc
    · exact Or.inl
  | false =>
    have hfewer := fewer_makeRoom keep m.nodes.size m
    have hnot : (makeRoom keep m.nodes.size m).1.nodes.contains id = false := by
      rw [← Bool.not_eq_true, contains_iff]
      rintro ⟨n, hn⟩
      rw [← Bool.not_eq_true, contains_iff] at hc
      exact hc ⟨n, hfewer id n hn⟩
    refine (mirrors_makeRoom keep m.nodes.size m).trans fun r hr => ⟨⟨fun hi => ?_, trivial⟩, ?_⟩
    · rw [hr id, hnot] at hi
      cases hi
    · intro i
      show i ∈ insert id r ↔ _
      rw [Finset.mem_insert, hr i, contains_sight_iff, or_comm]
      exact Iff.rfl

/-- **Moves.** Whatever is made of moves tells who came and who went. -/
theorem mirrors_moves {keep heard : List NodeId} {now : Moment} {told : Journal}
    (hm : Moves keep now heard m m' told) : Mirrors m m' told := by
  induction hm with
  | hear _ he _ ht =>
    exact Mirrors.trans (mirrors_ensure _ _ now keep) (mirrors_quiet ht he.contains)
  | edits he _ hn _ _ ht =>
    refine mirrors_quiet ht fun id => ?_
    rw [hn]
    exact he.contains id
  | trans _ _ ih ih' => exact ih.trans ih'

/-! ## Sweeps -/

theorem contains_removeNodes (ids : List NodeId) (id : NodeId) : ∀ m : Mesh,
    (m.removeNodes ids).nodes.contains id = true ↔ m.nodes.contains id = true ∧ id ∉ ids := by
  induction ids with
  | nil => intro m; simp [removeNodes]
  | cons i ids ih =>
    intro m
    show ((m.removeNode i).removeNodes ids).nodes.contains id = true ↔ _
    rw [ih, contains_removeNode, List.mem_cons, not_or, and_assoc]

theorem Tracked.nodup_nodeList (h : Tracked m) : (m.nodeList.map Node.id).Nodup := by
  have hl : m.lastSightings.map Sighting.id = m.nodeList.map Node.id := by
    rw [lastSightings, List.map_map]
    rfl
  rw [← hl, List.Nodup, List.pairwise_map]
  refine List.Pairwise.imp_of_mem ?_ h.nodup_lastSightings
  intro x y hx hy hne he
  exact hne (isUpToDate_inj (isUpToDate_iff.2 (h.mem_lastSightings.1 hx))
    (isUpToDate_iff.2 (h.mem_lastSightings.1 hy)) he)

theorem Tracked.nodup_walkedNodes (h : Tracked m) : (m.walkedNodes.map Node.id).Nodup :=
  (m.walkedNodes_perm.map Node.id).nodup_iff.2 h.nodup_nodeList

theorem Tracked.nodup_spare (h : Tracked m) (keep : List NodeId) : (m.spare keep).Nodup := by
  rw [spare, List.Nodup, List.pairwise_map]
  refine List.Pairwise.imp_of_mem ?_ (h.nodup_aged keep)
  intro x y hx hy hne he
  exact hne (isUpToDate_inj (h.mem_aged.1 hx).1 (h.mem_aged.1 hy).1 he)

theorem Tracked.mem_staleNodes (h : Tracked m) {now : Moment} {id : NodeId} :
    id ∈ m.staleNodes now ↔
      ∃ n, m.nodes[id]? = some n ∧ n.lastHeard < now.before m.limits.staleAfter := by
  simp only [staleNodes, List.mem_map, List.mem_filter, mem_walkedNodes, decide_eq_true_eq]
  constructor
  · rintro ⟨n, ⟨⟨i, hn⟩, hlt⟩, rfl⟩
    rw [(h i n hn).1]
    exact ⟨n, hn, hlt⟩
  · rintro ⟨n, hn, hlt⟩
    exact ⟨n, ⟨⟨id, hn⟩, hlt⟩, (h id n hn).1⟩

theorem Tracked.contains_of_mem_staleNodes (h : Tracked m) {now : Moment} {id : NodeId}
    (hid : id ∈ m.staleNodes now) : m.nodes.contains id = true := by
  obtain ⟨n, hn, -⟩ := h.mem_staleNodes.1 hid
  exact (m.contains_iff id).2 ⟨n, hn⟩

theorem mem_sweep {now : Moment} {id : NodeId} : id ∈ (m.sweep now).2 ↔
    id ∈ m.staleNodes now ∨ id ∈ (m.removeNodes (m.staleNodes now)).excessNodes := by
  rw [sweep, List.mem_append]

/-- The nodes in excess are sought among those that the first round of a sweep left. -/
theorem Tracked.contains_of_mem_excessNodes (h : Tracked m) {now : Moment} {id : NodeId}
    (hid : id ∈ (m.removeNodes (m.staleNodes now)).excessNodes) :
    m.nodes.contains id = true ∧ id ∉ m.staleNodes now := by
  have hk : Tracked (m.removeNodes (m.staleNodes now)) := h.removeNodes
  rw [excessNodes_eq] at hid
  exact (contains_removeNodes ..).1 (hk.mem_spare.1 (List.mem_of_mem_take hid)).1

/-- The two rounds of a sweep take no node twice. -/
theorem Tracked.nodup_rounds (h : Tracked m) (now : Moment) :
    (m.staleNodes now ++ (m.removeNodes (m.staleNodes now)).excessNodes).Nodup := by
  have hk : Tracked (m.removeNodes (m.staleNodes now)) := h.removeNodes
  rw [List.nodup_append]
  refine ⟨?_, ?_, ?_⟩
  · exact (List.filter_sublist.map Node.id).nodup h.nodup_walkedNodes
  · rw [excessNodes_eq]
    exact (List.take_sublist _ _).nodup (hk.nodup_spare [])
  · rintro i hi _ hj rfl
    exact (h.contains_of_mem_excessNodes hj).2 hi

/-- **Sweeps.** What a sweep removes was known, and it tells each node once. -/
theorem Tracked.mirrors_sweep (h : Tracked m) (now : Moment) :
    Mirrors m (m.sweep now).1 (sweepJournal (m.sweep now).2) := by
  have hnodup : (m.sweep now).2.Nodup := h.nodup_rounds now
  -- as no node is taken twice, one list tells of both rounds
  intro r hr
  have hknown : ∀ id ∈ (m.sweep now).2, id ∈ r := by
    intro id hid
    rw [hr id]
    rcases mem_sweep.1 hid with hid | hid
    · exact h.contains_of_mem_staleNodes hid
    · exact (h.contains_of_mem_excessNodes hid).1
  obtain ⟨hlaw, hfollow⟩ := follow_nodeStale hnodup hknown
  rw [sweep_journal]
  refine ⟨hlaw, fun id => ?_⟩
  have hafter : (m.sweep now).1.nodes.contains id = true ↔
      m.nodes.contains id = true ∧ id ∉ (m.sweep now).2 := by
    rw [mem_sweep, not_or, ← and_assoc, ← contains_removeNodes, ← contains_removeNodes]
    rfl
  rw [hfollow, hr id, hafter]

/-! ## News about nodes that were heard -/

/-- A node that is looked for is told only as created, and others as stale. -/
theorem isChangeOfNodes_of_mem_ensure {id : NodeId} {now : Moment} {keep : List NodeId} {e : Event}
    (h : e ∈ Journal.events (m.ensure id now keep).2) : isChangeOfNodes e = true := by
  have hroom : ∀ (fuel : Nat) (m : Mesh), ∀ e ∈ Journal.events (makeRoom keep fuel m).2,
      isChangeOfNodes e = true := by
    intro fuel
    induction fuel with
    | zero => intro m e he; cases he
    | succ fuel ih =>
      intro m e he
      rw [makeRoom] at he
      split at he
      · cases he
      · split at he
        · cases he
        · rcases List.mem_cons.1 he with rfl | he
          · rfl
          · exact ih _ e he
  unfold ensure announce at h
  cases hc : m.nodes.contains id with
  | true =>
    rw [hc] at h
    cases h
  | false =>
    rw [hc] at h
    change e ∈ Journal.events ((makeRoom keep m.nodes.size m).2 ++ [.event (.nodeCreated id)]) at h
    rw [Journal.events_append] at h
    rcases List.mem_append.1 h with h | h
    · exact hroom _ m e h
    · rw [List.mem_singleton.1 h]
      rfl

/-- The stages of a packet before its end do not say that its sender was heard. -/
theorem nodeUpdated_not_mem_stages {p : Packet} (now : Moment) :
    .nodeUpdated p.sender ∉ Journal.events (m.hearSender p now).2 ∧
    .nodeUpdated p.sender ∉ Journal.events (m.hearRelay p now).2 ∧
    .nodeUpdated p.sender ∉ Journal.events (m.hearGateway p now).2 ∧
    ∀ channel, .nodeUpdated p.sender ∉ Journal.events (m.takePayload p channel now).2.1 := by
  have hensure : ∀ (m : Mesh) id, Event.nodeUpdated p.sender ∉
      Journal.events (m.ensure id now p.named).2 := fun m id h =>
    Bool.noConfusion (isChangeOfNodes_of_mem_ensure h)
  refine ⟨fun h => ?_, fun h => ?_, fun h => ?_, fun channel h => ?_⟩
  · change _ ∈ Journal.events ((m.ensure p.sender now p.named).2 ++ _) at h
    rw [Journal.events_append] at h
    rcases List.mem_append.1 h with h | h
    · exact hensure m p.sender h
    · exact Bool.noConfusion (isTelemetry_of_mem_applyUpdate h)
  · rcases m.hearRelay_cases p now with ⟨-, he⟩ | ⟨id, hid, -, ht⟩
    · rw [he] at h
      cases h
    · rw [ht, Journal.events_append] at h
      rcases List.mem_append.1 h with h | h
      · exact hensure m id h
      · have hid' := Event.nodeUpdated.inj (List.mem_singleton.1 h)
        exact (relayNode?_spec hid).1 hid'.symm
  · rcases m.hearGateway_cases p now with ⟨-, he⟩ | ⟨id, -, -, ht⟩
    · rw [he] at h
      cases h
    · rw [ht] at h
      exact hensure m id h
  · unfold takePayload at h
    split at h
    · exact Event.noConfusion (List.mem_singleton.1 h)
    · cases h
    · cases h
    · cases h

/-- **A packet** says once that its sender was heard, and says it last. -/
theorem nodeUpdated_applyNew (m : Mesh) {p : Packet} (now : Moment) (hp : p.hasUsableSender = true) :
    (Journal.events (m.applyNew p now).2.1).getLast? = some (.nodeUpdated p.sender) ∧
    (Journal.events (m.applyNew p now).2.1).count (.nodeUpdated p.sender) = 1 := by
  obtain ⟨m₀, m₁, told₁, m₂, told₂, m₃, told₃, m₄, told₄, _, -, e₁, e₂, e₃, e₄, -, htold⟩ :=
    m.applyNew_stages now hp
  have h₁ := (m₀.nodeUpdated_not_mem_stages (p := p) now).1
  have h₂ := (m₁.nodeUpdated_not_mem_stages (p := p) now).2.1
  have h₃ := (m₂.nodeUpdated_not_mem_stages (p := p) now).2.2.1
  have h₄ := (m₃.nodeUpdated_not_mem_stages (p := p) now).2.2.2
    (m.resolveChannel p.channelName p.channelIndex).2
  rw [e₁] at h₁
  rw [e₂] at h₂
  rw [e₃] at h₃
  rw [e₄] at h₄
  rw [htold]
  simp only [Journal.events_append, Journal.events_cons_event, Journal.events_nil,
    List.count_append, List.count_eq_zero.2 h₁, List.count_eq_zero.2 h₂, List.count_eq_zero.2 h₃,
    List.count_eq_zero.2 h₄, List.count_singleton_self]
  exact ⟨List.getLast?_concat .., trivial⟩

/-- Whether an operation puts another history in place of the old one. -/
def Operation.isRestoration : Operation → Bool
  | .restore _ => true
  | _ => false

/-! ## Messages -/

/-- The message that an event brings. -/
def message? : Event → Option Message
  | .messageReceived x => some x
  | _ => none

/-- The messages that a journal tells, first received first. -/
def received (told : Journal) : List Message := (Journal.events told).filterMap message?

@[simp] theorem received_append (j k : Journal) : received (j ++ k) = received j ++ received k := by
  simp [received]

/-- The message that a packet with a text brings. -/
def brought (p : Packet) (channel : UInt32) (now : Moment) : List Message :=
  match p.payload with
  | .text t => [.ofPacket p t channel now]
  | _ => []

/-- The messages that a step puts into the history: that of a packet which is applied, and
one that did not come in a packet. -/
def spoken (m : Mesh) (s : Step) : List Message :=
  match s.operation with
  | .packet p =>
    if m.isRepeated p s.now || !p.hasUsableSender then []
    else brought p (m.resolveChannel p.channelName p.channelIndex).2 s.now
  | .message x => [x]
  | _ => []

/-- Several messages put into a history, one after the other. -/
def recorded (bound : Nat) (history : List Message) (xs : List Message) : List Message :=
  xs.foldl (fun kept x => Recent.newest bound (kept ++ [x])) history

/-- Messages were put into the history and told. -/
structure Speaks (xs : List Message) (m m' : Mesh) (told : Journal) : Prop where
  received : received told = xs
  messages : m'.messages = recorded m.limits.messageHistory m.messages xs

theorem received_of_changes {told : Journal}
    (h : ∀ e ∈ Journal.events told, isChangeOfNodes e = true ∨ e.isTelemetry = true) :
    received told = [] := by
  rw [received, List.filterMap_eq_nil_iff]
  intro e he
  cases e with
  | messageReceived => exact (h _ he).elim Bool.noConfusion Bool.noConfusion
  | _ => rfl

theorem received_ensure (m : Mesh) (id : NodeId) (now : Moment) (keep : List NodeId) :
    received (m.ensure id now keep).2 = [] :=
  received_of_changes fun _ he => Or.inl (isChangeOfNodes_of_mem_ensure he)

theorem received_applyUpdate (m : Mesh) (id : NodeId) (u : NodeUpdate) (now : Moment) :
    received (m.applyUpdate id u now).2 = [] :=
  received_of_changes fun _ he => Or.inr (isTelemetry_of_mem_applyUpdate he)

theorem messages_ensure {P : Edit} {id : NodeId} {now : Moment} {keep : List NodeId}
    (he : Edits P (m.ensure id now keep).1 m') : m'.messages = m.messages :=
  he.messages.trans (messages_offNodes.ensure m id now keep)

theorem silent_hearSender (m : Mesh) (p : Packet) (now : Moment) :
    Speaks [] m (m.hearSender p now).1 (m.hearSender p now).2 := by
  have htold : (m.hearSender p now).2 = (m.ensure p.sender now p.named).2
      ++ ((m.ensure p.sender now p.named).1.applyUpdate p.sender p.nodeUpdate now).2 := rfl
  refine ⟨?_, messages_ensure (edits_hearSender m p now)⟩
  rw [htold, received_append, received_ensure, received_applyUpdate]
  rfl

theorem silent_hearRelay (m : Mesh) (p : Packet) (now : Moment) :
    Speaks [] m (m.hearRelay p now).1 (m.hearRelay p now).2 := by
  rcases m.hearRelay_cases p now with ⟨-, he⟩ | ⟨id, -, he, ht⟩
  · rw [he]
    exact ⟨rfl, rfl⟩
  · refine ⟨?_, messages_ensure he⟩
    rw [ht, received_append, received_ensure]
    rfl

theorem silent_hearGateway (m : Mesh) (p : Packet) (now : Moment) :
    Speaks [] m (m.hearGateway p now).1 (m.hearGateway p now).2 := by
  rcases m.hearGateway_cases p now with ⟨-, he⟩ | ⟨id, -, he, ht⟩
  · rw [he]
    exact ⟨rfl, rfl⟩
  · refine ⟨?_, messages_ensure he⟩
    rw [ht]
    exact received_ensure m id now p.named

theorem speaks_takePayload (m : Mesh) (p : Packet) (channel : UInt32) (now : Moment) :
    Speaks (brought p channel now) m (m.takePayload p channel now).1
      (m.takePayload p channel now).2.1 := by
  cases hp : p.payload with
  | text t =>
    simp only [takePayload, brought, hp]
    exact ⟨rfl, rfl⟩
  | traceroute d =>
    simp only [takePayload, brought, hp]
    exact ⟨rfl, (edits_updateRoute m _).messages⟩
  | neighborInfo r =>
    simp only [takePayload, brought, hp]
    exact ⟨rfl, (edits_updateNeighbors m _ _).messages⟩
  | _ =>
    simp only [takePayload, brought, hp]
    exact ⟨rfl, rfl⟩

theorem speaks_applyNew (m : Mesh) {p : Packet} (now : Moment) (hp : p.hasUsableSender = true) :
    Speaks (brought p (m.resolveChannel p.channelName p.channelIndex).2 now) m
      (m.applyNew p now).1 (m.applyNew p now).2.1 := by
  obtain ⟨m₀, m₁, told₁, m₂, told₂, m₃, told₃, m₄, told₄, _, hf, e₁, e₂, e₃, e₄, hm, htold⟩ :=
    m.applyNew_stages now hp
  have l₃ : m₃.limits = m.limits := by
    have l₁ := (moves_hearSender m₀ p now).limits
    have l₂ := (moves_hearRelay m₁ p now).limits
    have l₃ := (moves_hearGateway m₂ p now).limits
    rw [e₁] at l₁
    rw [e₂] at l₂
    rw [e₃] at l₃
    exact l₃.trans (l₂.trans (l₁.trans hf.limits))
  have h₁ := silent_hearSender m₀ p now
  have h₂ := silent_hearRelay m₁ p now
  have h₃ := silent_hearGateway m₂ p now
  have h₄ := speaks_takePayload m₃ p (m.resolveChannel p.channelName p.channelIndex).2 now
  rw [e₁] at h₁
  rw [e₂] at h₂
  rw [e₃] at h₃
  rw [e₄] at h₄
  -- the history is the same when the body is taken, and so is its bound
  have hmsgs : m₃.messages = m.messages :=
    h₃.messages.trans (h₂.messages.trans (h₁.messages.trans hf.messages))
  refine ⟨?_, ?_⟩
  · rw [htold]
    simp only [received_append, h₁.received, h₂.received, h₃.received, h₄.received, List.nil_append]
    exact List.append_nil _
  · rw [hm, ← l₃, ← hmsgs]
    exact h₄.messages

/-- The slot of a packet does not depend on the packets that were seen. -/
theorem slot_of_dedup (m : Mesh) (dedup : DedupCache) (name : String) (index : UInt32) :
    ({ m with dedup := dedup }.resolveChannel name index).2 = (m.resolveChannel name index).2 := by
  have hnamed : { m with dedup := dedup }.slotNamed? name = m.slotNamed? name := rfl
  have hfree : { m with dedup := dedup }.freeSlot? = m.freeSlot? := rfl
  unfold resolveChannel
  rw [hnamed, hfree]
  cases name.isEmpty with
  | true => rfl
  | false =>
    cases m.slotNamed? name with
    | some c => rfl
    | none =>
      cases m.freeSlot? with
      | some c => rfl
      | none => rfl

theorem speaks_updateNode (m : Mesh) (id : NodeId) (u : NodeUpdate) (now : Moment) :
    Speaks [] m (m.updateNode id u now).1 (m.updateNode id u now).2.1 := by
  rcases m.updateNode_cases id u now with ⟨-, he⟩ | ⟨-, he, ht⟩
  · rw [he]
    exact ⟨rfl, rfl⟩
  · refine ⟨?_, messages_ensure he⟩
    rw [ht, received_append, received_append, received_ensure, received_applyUpdate]
    rfl

/-- **One step** puts into the history what it tells to be received, unless it replaces
the history. -/
theorem speaks_perform (m : Mesh) (s : Step) (hs : s.operation.isRestoration = false) :
    Speaks (m.spoken s) m (m.perform s).1 (m.perform s).2 := by
  obtain ⟨op, now⟩ := s
  cases op with
  | packet p =>
    obtain ⟨dedup, ⟨hr, he⟩ | ⟨hr, he⟩⟩ := m.apply_cases p now
    · simp only [perform, spoken, he, hr, Bool.true_or, if_true]
      exact ⟨rfl, rfl⟩
    · simp only [perform, spoken, he, hr, Bool.false_or, Bool.not_eq_true']
      cases hp : p.hasUsableSender with
      | false =>
        rw [applyNew_unusable hp]
        exact ⟨rfl, rfl⟩
      | true =>
        have h := speaks_applyNew { m with dedup := dedup } now hp
        rw [slot_of_dedup] at h
        rw [if_neg Bool.noConfusion]
        exact ⟨h.received, h.messages⟩
  | update id u => exact speaks_updateNode m id u now
  | link id snr rssi hops => exact ⟨rfl, rfl⟩
  | route destination hops => exact ⟨rfl, (edits_updateRoute m _).messages⟩
  | neighbors reporter entries => exact ⟨rfl, (edits_updateNeighbors m reporter entries).messages⟩
  | channel c => exact ⟨rfl, rfl⟩
  | activity index message => exact ⟨rfl, rfl⟩
  | message x => exact ⟨rfl, rfl⟩
  | sweep =>
    refine ⟨?_, ?_⟩
    · refine received_of_changes fun e he => Or.inl ?_
      change e ∈ Journal.events (sweepJournal (m.sweep now).2) at he
      rw [sweep_journal] at he
      obtain ⟨_, -, rfl⟩ := List.mem_map.1 he
      rfl
    · exact (messages_offNodes.removeNodes _ _).trans (messages_offNodes.removeNodes _ m)
  | restore state => cases hs

/-! ## Whole runs -/

/-- The messages that several steps put into the history. -/
def said (m : Mesh) : List Step → List Message
  | [] => []
  | s :: steps => m.spoken s ++ said (m.perform s).1 steps

theorem recorded_append (bound : Nat) (history xs ys : List Message) :
    recorded bound history (xs ++ ys) = recorded bound (recorded bound history xs) ys :=
  List.foldl_append

/-- A history that was recorded from the start holds the newest messages. -/
theorem recorded_newest (bound : Nat) (xs : List Message) : ∀ past : List Message,
    recorded bound (Recent.newest bound past) xs = Recent.newest bound (past ++ xs) := by
  induction xs with
  | nil => intro past; rw [List.append_nil]; rfl
  | cons x xs ih =>
    intro past
    -- what was dropped for an earlier message would be dropped for this one
    show recorded bound (Recent.newest bound (Recent.newest bound past ++ [x])) xs = _
    rw [Recent.newest_append_newest, ih, List.append_assoc]
    rfl

theorem Tracked.mirrors_perform (h : Tracked m) (s : Step) (hs : s.operation.isRestoration = false) :
    Mirrors m (m.perform s).1 (m.perform s).2 := by
  cases hu : s.operation.isUpkeep with
  | false => exact mirrors_moves (moves_perform m s hu)
  | true =>
    obtain ⟨op, now⟩ := s
    cases op with
    | sweep => exact h.mirrors_sweep now
    | restore state => cases hs
    | _ => cases hu

theorem Tracked.mirrors_told {steps : List Step} : ∀ {m : Mesh}, Tracked m →
    (∀ s ∈ steps, s.operation.isRestoration = false) →
      Mirrors m (m.after steps) (m.told steps) := by
  induction steps with
  | nil => intro m _ _; exact mirrors_quiet changesOfNodes_nil fun _ => rfl
  | cons s steps ih =>
    intro m h hs
    have hfirst := h.mirrors_perform s (hs s (List.mem_cons_self ..))
    exact hfirst.trans (ih (h.perform s) fun x hx => hs x (List.mem_cons_of_mem _ hx))

theorem speaks_told {steps : List Step} : ∀ m : Mesh,
    (∀ s ∈ steps, s.operation.isRestoration = false) →
      Speaks (m.said steps) m (m.after steps) (m.told steps) := by
  induction steps with
  | nil => intro m _; exact ⟨rfl, rfl⟩
  | cons s steps ih =>
    intro m hs
    have hfirst := speaks_perform m s (hs s (List.mem_cons_self ..))
    have hrest := ih (m.perform s).1 fun x hx => hs x (List.mem_cons_of_mem _ hx)
    refine ⟨?_, ?_⟩
    · rw [told, received_append, hfirst.received, hrest.received, said]
    · rw [after_cons, hrest.messages, limits_perform, hfirst.messages, said, recorded_append]

/-- **The events mirror the mesh.** After any operations on a new mesh other than
restorations, a list that was kept by the events names exactly the nodes. A node is told
to be created only when it is not on that list, and to be stale only when it is. A packet
that is applied ends with the only event that its sender was heard. The messages that were
told to be received are those that were put into the history, which holds the newest of
them. -/
theorem events_mirror_mesh (limits : Limits) (primary : String) (orders : HashOrders)
    (steps : List Step) (hsteps : ∀ s ∈ steps, s.operation.isRestoration = false) :
    let start := new limits primary orders
    let m := start.after steps
    let events := Journal.events (start.told steps)
    (∀ id, id ∈ roster events ↔ m.nodes.contains id = true) ∧
    (∀ pre id post, events = pre ++ .nodeCreated id :: post → id ∉ roster pre) ∧
    (∀ pre id post, events = pre ++ .nodeStale id :: post → id ∈ roster pre) ∧
    (∀ p now, m.isRepeated p now = false → p.hasUsableSender = true →
      let events := Journal.events (m.perform ⟨.packet p, now⟩).2
      events.getLast? = some (.nodeUpdated p.sender) ∧ events.count (.nodeUpdated p.sender) = 1) ∧
    received (start.told steps) = start.said steps ∧
    m.messages = Recent.newest limits.messageHistory (start.said steps) ∧
    ∀ s, s.operation.isRestoration = false →
      Speaks (m.spoken s) m (m.perform s).1 (m.perform s).2 := by
  intro start m events
  have hempty : Shows ∅ start := fun id => by simp [start, new]
  obtain ⟨hlaw, hshow⟩ := (tracked_new limits primary orders).mirrors_told hsteps ∅ hempty
  have hspeaks := speaks_told start hsteps
  refine ⟨hshow, ?_, ?_, ?_, hspeaks.received, ?_, fun s hs => speaks_perform m s hs⟩
  · intro pre id post he
    have hl : Lawful ∅ (pre ++ .nodeCreated id :: post) := he ▸ hlaw
    exact hl.fits
  · intro pre id post he
    have hl : Lawful ∅ (pre ++ .nodeStale id :: post) := he ▸ hlaw
    exact hl.fits
  · intro p now hr hp
    obtain ⟨dedup, ⟨hr', -⟩ | ⟨-, he⟩⟩ := m.apply_cases p now
    · rw [hr] at hr'
      cases hr'
    · simp only [perform, he]
      exact nodeUpdated_applyNew _ now hp
  · have hrec := recorded_newest limits.messageHistory (start.said steps) []
    rw [Recent.newest_of_le (Nat.zero_le _)] at hrec
    exact hspeaks.messages.trans hrec

/-- In a mesh for one node a second one takes the place of the first. -/
theorem newcomer_takes_place :
    let start := new { maxNodes := 1 } "" {}
    let steps : List Step :=
      [⟨.update ⟨0x1001⟩ {}, .ofSecs 10⟩, ⟨.update ⟨0x1002⟩ {}, .ofSecs 20⟩]
    (∀ s ∈ steps, s.operation.isRestoration = false) ∧
    (∀ id, id ∈ roster (Journal.events (start.told steps)) ↔
      (start.after steps).nodes.contains id = true) ∧
    Journal.events (start.told steps) =
      [.nodeCreated ⟨0x1001⟩, .nodeUpdated ⟨0x1001⟩, .nodeStale ⟨0x1001⟩, .nodeCreated ⟨0x1002⟩,
        .nodeUpdated ⟨0x1002⟩] := by
  intro start steps
  have hsteps : ∀ s ∈ steps, s.operation.isRestoration = false := by
    intro s hs
    simp only [steps, List.mem_cons, List.not_mem_nil, or_false] at hs
    rcases hs with rfl | rfl
    · rfl
    · rfl
  exact ⟨hsteps, (events_mirror_mesh { maxNodes := 1 } "" {} steps hsteps).1, by decide⟩

end Mesh

end MeshWatch
