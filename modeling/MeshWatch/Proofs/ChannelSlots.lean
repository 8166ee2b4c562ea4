import MeshWatch.Proofs.FirstSlot
import Mathlib.Algebra.BigOperators.Group.List.Basic

/-!
# Channel slots

A name gets its slot from the first packet that bears it, as long as one is free, and
packets of every kind compete for the slots. Whatever comes in, a slot is never taken from
its name and no name gets a second one. So a text is counted where its name is found, or
where its index points if its name came too late, and no count is lost.

- `SlotMoves`: what traffic does to slots, with the messages that it counts.
  `SlotsOwned.moves_perform`: every step that leaves the slots to traffic is made of that.
- `SlotsOwned`: the slots are there, and each name has one. `SlotMoves.owned`: it stays so.
- `SlotsOwned.slot_of_packet`: the slot to which a packet belongs.
- `SlotMoves.messageCount`: each slot counts its messages, and `sum_countP_eq_length`: there
  are no others.
- `channels_keep_slots`: any run.
-/

namespace MeshWatch

/-- What a slot is, and to whom it belongs. -/
def Channel.label (c : Channel) : UInt32 × String × ChannelRole := (c.index, c.name, c.role)

/-- Whatever has one of several labels is counted under one of them. -/
theorem sum_countP_eq_length {α β : Type} [DecidableEq β] (label : α → β) {labels : List β}
    (hn : labels.Nodup) (xs : List α) (hxs : ∀ x ∈ xs, label x ∈ labels) :
    (labels.map fun b => xs.countP (label · == b)).sum = xs.length := by
  induction xs with
  | nil => simp
  | cons x xs ih =>
    have hone : (labels.map fun b => if label x == b then 1 else 0).sum = 1 := by
      have hother : ∀ b, b ≠ label x → b ∈ labels → (if label x == b then 1 else 0) = 0 :=
        fun b hb _ => if_neg (by simpa using hb.symm)
      rw [List.sum_map_eq_nsmul_single (label x) _ hother,
        List.count_eq_one_of_mem hn (hxs x (List.mem_cons_self ..))]
      simp
    simp only [List.countP_cons, List.sum_map_add]
    rw [ih fun y hy => hxs y (List.mem_cons_of_mem _ hy), hone, List.length_cons]

/-- Sums of numbers that went round are the sum that went round. -/
theorem sum_map_mod (n : Nat) {α : Type} (f : α → Nat) (xs : List α) :
    (xs.map fun x => f x % n).sum % n = (xs.map f).sum % n := by
  induction xs with
  | nil => rfl
  | cons x xs ih =>
    simp only [List.map_cons, List.sum_cons]
    rw [Nat.add_mod, ih, Nat.mod_mod, ← Nat.add_mod]

namespace Mesh

variable {m m' : Mesh} {name : String}

/-! ## Slots and names -/

/-- The slot bears the name. -/
def Bears (m : Mesh) (i : UInt32) (name : String) : Prop :=
  ∃ c, m.channels[i]? = some c ∧ c.name = name

/-- The name has a slot, or one is free for it. -/
def FindsSlot (m : Mesh) (name : String) : Prop :=
  name ≠ "" ∧ ((∃ i, m.Bears i name) ∨ ∃ c ∈ m.channelList, c.role = .disabled)

/-- Two meshes have the same slots, whatever was received on them. -/
def SameLabels (m m' : Mesh) : Prop :=
  ∀ i : UInt32, (m'.channels[i]?).map Channel.label = (m.channels[i]?).map Channel.label

theorem sameLabels_touchChannel (m : Mesh) (index : UInt32) (message : Bool) (now : Moment) :
    SameLabels m (m.touchChannel index message now) := by
  intro i
  rw [getElem?_touchChannel]
  split
  · rw [Option.map_map]
    rfl
  · rfl

/-- All slots are there, those in use are those with names, and no two have the same. -/
structure SlotsOwned (m : Mesh) : Prop where
  contains : ∀ i, m.channels.contains i = true ↔ i < Channel.slots
  keyed : SlotsKeyed m
  free : ∀ (i : UInt32) (c : Channel), m.channels[i]? = some c → (c.role = .disabled ↔ c.name = "")
  distinct : ∀ (i j : UInt32) (name : String), m.Bears i name → m.Bears j name → name ≠ "" → i = j

theorem slotsOwned_new (limits : Limits) {primary : String} (orders : HashOrders)
    (hp : primary ≠ "") : SlotsOwned (new limits primary orders) := by
  have hslot : ∀ (i : UInt32) (c : Channel), (new limits primary orders).channels[i]? = some c →
      (i = 0 ∧ c = .new 0 primary .primary) ∨ c = .new i "" .disabled := by
    intro i c hc
    obtain ⟨hmem, rfl⟩ := Storable.mem_newSlots hc
    rcases List.mem_cons.1 hmem with rfl | hmem
    · exact Or.inl ⟨rfl, rfl⟩
    · obtain ⟨j, -, rfl⟩ := List.mem_map.1 hmem
      exact Or.inr rfl
  constructor
  case contains => exact Storable.contains_new limits primary orders
  case keyed => exact slotsKeyed_new limits primary orders
  case free =>
    intro i c hc
    rcases hslot i c hc with ⟨-, rfl⟩ | rfl
    · exact iff_of_false nofun hp
    · exact iff_of_true rfl rfl
  case distinct =>
    rintro i j name ⟨c, hc, rfl⟩ ⟨d, hd, hname⟩ hne
    rcases hslot i c hc with ⟨hi, rfl⟩ | rfl
    · rcases hslot j d hd with ⟨hj, rfl⟩ | rfl
      · exact hi.trans hj.symm
      · exact absurd hname.symm hne
    · exact absurd rfl hne

theorem slotNamed?_some {c : Channel} (h : m.slotNamed? name = some c) :
    c ∈ m.channelList ∧ c.name = name :=
  ⟨List.mem_of_find?_eq_some h, by simpa using List.find?_some h⟩

theorem slotNamed?_none (h : m.slotNamed? name = none) (i : UInt32) : ¬ m.Bears i name := by
  rintro ⟨c, hc, hname⟩
  have hother := List.find?_eq_none.1 h c (Table.mem_values.2 ⟨i, hc⟩)
  exact hother (by simpa using hname)

theorem freeSlot?_some {c : Channel} (h : m.freeSlot? = some c) :
    c ∈ m.channelList ∧ c.role = .disabled :=
  ⟨List.mem_of_find?_eq_some h, by simpa using List.find?_some h⟩

theorem freeSlot?_none {c : Channel} (h : m.freeSlot? = none) (hc : c ∈ m.channelList) :
    c.role ≠ .disabled := by simpa using List.find?_eq_none.1 h c hc

theorem SlotsKeyed.getElem?_of_mem (hk : SlotsKeyed m) {c : Channel} (h : c ∈ m.channelList) :
    m.channels[c.index]? = some c := by
  obtain ⟨i, hi⟩ := Table.mem_values.1 h
  rwa [hk i c hi]

/-- Which slot a packet belongs to, and on which grounds. -/
inductive Resolved (m : Mesh) (name : String) (index : UInt32) : Mesh × UInt32 → Prop where
  /-- Its name has the slot. -/
  | known (c : Channel) (hname : name ≠ "") (hslot : m.slotNamed? name = some c) :
      Resolved m name index (m, c.index)
  /-- Its name has none, and the slot was free. -/
  | given (c : Channel) (hname : name ≠ "") (hnone : m.slotNamed? name = none)
      (hfree : m.freeSlot? = some c) :
      Resolved m name index (m.setChannel (c.assigned name), c.index)
  /-- It has no name, or that came too late. -/
  | byIndex (hnone : name ≠ "" → m.slotNamed? name = none ∧ m.freeSlot? = none) :
      Resolved m name index (m, slotOfIndex index)

theorem resolved (m : Mesh) (name : String) (index : UInt32) :
    Resolved m name index (m.resolveChannel name index) := by
  unfold resolveChannel
  by_cases hname : name = ""
  · rw [if_pos (by simpa using hname)]
    exact .byIndex fun hne => absurd hname hne
  · rw [if_neg (by simpa using hname)]
    cases hslot : m.slotNamed? name with
    | some c => exact .known c hname hslot
    | none =>
      cases hfree : m.freeSlot? with
      | some c => exact .given c hname hslot hfree
      | none => exact .byIndex fun _ => ⟨hslot, hfree⟩

theorem slotOfIndex_lt (index : UInt32) : slotOfIndex index < Channel.slots := by
  unfold slotOfIndex
  split
  · assumption
  · decide

namespace SlotsOwned

theorem lt_of_getElem? (h : SlotsOwned m) {i : UInt32} {c : Channel}
    (hc : m.channels[i]? = some c) : i < Channel.slots := by
  rw [← h.contains, Std.ExtTreeMap.contains_eq_isSome_getElem?, hc, Option.isSome_some]

theorem exists_getElem? (h : SlotsOwned m) {i : UInt32} (hi : i < Channel.slots) :
    ∃ c, m.channels[i]? = some c := by
  rwa [← h.contains, Std.ExtTreeMap.contains_eq_isSome_getElem?, Option.isSome_iff_exists] at hi

/-- Packets belong to slots that are there. -/
theorem slot_lt (h : SlotsOwned m) (name : String) (index : UInt32) :
    (m.resolveChannel name index).2 < Channel.slots := by
  have hr := m.resolved name index
  generalize m.resolveChannel name index = r at hr ⊢
  cases hr with
  | known c _ hslot => exact h.lt_of_getElem? (h.keyed.getElem?_of_mem (slotNamed?_some hslot).1)
  | given c _ _ hfree => exact h.lt_of_getElem? (h.keyed.getElem?_of_mem (freeSlot?_some hfree).1)
  | byIndex => exact slotOfIndex_lt index

/-- **A free slot** that is given to a name without one is the only one with it. -/
theorem setChannel (h : SlotsOwned m) {c : Channel} (hname : name ≠ "")
    (hnone : m.slotNamed? name = none) (hfree : m.freeSlot? = some c) :
    SlotsOwned (m.setChannel (c.assigned name)) := by
  have hkept := h.keyed.kept_setChannel hfree name
  have hslot : ∀ (i : UInt32) (d : Channel), (m.setChannel (c.assigned name)).channels[i]? = some d →
      (i = c.index ∧ d = c.assigned name) ∨ m.channels[i]? = some d := by
    intro i d hd
    rw [getElem?_setChannel] at hd
    split at hd
    · next hi =>
      cases hd
      exact Or.inl ⟨hi.symm, rfl⟩
    · exact Or.inr hd
  constructor
  case contains => exact fun i => (hkept.contains i).trans (h.contains i)
  case keyed => exact hkept.keyed h.keyed
  case free =>
    intro i d hd
    rcases hslot i d hd with ⟨-, rfl⟩ | hd
    · exact iff_of_false nofun hname
    · exact h.free i d hd
  case distinct =>
    rintro i j other ⟨d, hd, rfl⟩ ⟨e, he, hsame⟩ hne
    rcases hslot i d hd with ⟨hi, rfl⟩ | hd
    · rcases hslot j e he with ⟨hj, -⟩ | he
      · exact hi.trans hj.symm
      · exact absurd ⟨e, he, hsame⟩ (slotNamed?_none hnone j)
    · rcases hslot j e he with ⟨-, rfl⟩ | he
      · exact absurd ⟨d, hd, hsame.symm⟩ (slotNamed?_none hnone i)
      · exact h.distinct i j d.name ⟨d, hd, rfl⟩ ⟨e, he, hsame⟩ hne

/-- Who has which slot does not depend on what was received there. -/
theorem labelled (h : SlotsOwned m) (he : SameLabels m m') : SlotsOwned m' := by
  have hslot : ∀ (i : UInt32) (c' : Channel), m'.channels[i]? = some c' →
      ∃ c, m.channels[i]? = some c ∧ c.label = c'.label := by
    intro i c' hc'
    have hlabel := he i
    rw [hc', Option.map_some] at hlabel
    exact Option.map_eq_some_iff.1 hlabel.symm
  have hbears : ∀ i other, m'.Bears i other → m.Bears i other := by
    rintro i other ⟨c', hc', rfl⟩
    obtain ⟨c, hc, hlabel⟩ := hslot i c' hc'
    exact ⟨c, hc, congrArg (·.2.1) hlabel⟩
  constructor
  case contains =>
    intro i
    have hsome := congrArg Option.isSome (he i)
    rw [Option.isSome_map, Option.isSome_map] at hsome
    rw [← h.contains, Std.ExtTreeMap.contains_eq_isSome_getElem?, hsome,
      Std.ExtTreeMap.contains_eq_isSome_getElem?]
  case keyed =>
    intro i c' hc'
    obtain ⟨c, hc, hlabel⟩ := hslot i c' hc'
    exact (congrArg Prod.fst hlabel).symm.trans (h.keyed i c hc)
  case free =>
    intro i c' hc'
    obtain ⟨c, hc, hlabel⟩ := hslot i c' hc'
    have hname : c.name = c'.name := congrArg (·.2.1) hlabel
    have hrole : c.role = c'.role := congrArg (·.2.2) hlabel
    rw [← hname, ← hrole]
    exact h.free i c hc
  case distinct =>
    exact fun i j other hi hj hne => h.distinct i j other (hbears i other hi) (hbears j other hj) hne

end SlotsOwned

/-! ## Traffic -/

/-- What traffic does to slots, and the messages that it counts on them. -/
inductive SlotMoves : List Message → Mesh → Mesh → Prop where
  | same {m m' : Mesh} (he : m'.channels = m.channels) : SlotMoves [] m m'
  /-- Something was received on a slot. -/
  | touch (m : Mesh) (index : UInt32) (now : Moment) :
      SlotMoves [] m (m.touchChannel index false now)
  /-- A message was received on a slot that is there. -/
  | count (m : Mesh) (x : Message) (hslot : x.channel < Channel.slots) :
      SlotMoves [x] m (m.touchChannel x.channel true x.timestamp)
  /-- A free slot was given to a name without one. -/
  | give {m : Mesh} {c : Channel} {name : String} (hname : name ≠ "")
      (hnone : m.slotNamed? name = none) (hfree : m.freeSlot? = some c) :
      SlotMoves [] m (m.setChannel (c.assigned name))
  | trans {xs ys : List Message} {m m₁ m' : Mesh} (h : SlotMoves xs m m₁) (h' : SlotMoves ys m₁ m') :
      SlotMoves (xs ++ ys) m m'

variable {xs : List Message}

namespace SlotMoves

theorem trans_same {m₁ : Mesh} (h : SlotMoves xs m m₁) (he : m'.channels = m₁.channels) :
    SlotMoves xs m m' := by
  rw [← List.append_nil xs]
  exact h.trans (.same he)

theorem owned (h : SlotMoves xs m m') : SlotsOwned m → SlotsOwned m' := by
  induction h with
  | same he => exact fun ho => ho.labelled fun i => by rw [he]
  | touch m index now => exact fun ho => ho.labelled (sameLabels_touchChannel m index false now)
  | count m x _ =>
    exact fun ho => ho.labelled (sameLabels_touchChannel m x.channel true x.timestamp)
  | give hname hnone hfree => exact fun ho => ho.setChannel hname hnone hfree
  | trans _ _ ih ih' => exact fun ho => ih' (ih ho)

/-- Messages are counted on slots that are there. -/
theorem channel_lt (h : SlotMoves xs m m') : ∀ x ∈ xs, x.channel < Channel.slots := by
  induction h with
  | count m x hslot =>
    intro y hy
    rwa [List.mem_singleton.1 hy]
  | trans _ _ ih ih' => exact fun x hx => (List.mem_append.1 hx).elim (ih x) (ih' x)
  | _ => exact fun _ hx => by cases hx

/-- **Counts.** Each slot counts the messages on it, in 64 bits. -/
theorem messageCount (h : SlotMoves xs m m') : SlotsOwned m → ∀ (i : UInt32) (c' : Channel),
    m'.channels[i]? = some c' → ∃ c, m.channels[i]? = some c ∧ (c.messageCount < UInt64.size →
      c'.messageCount = (c.messageCount + xs.countP (·.channel == i)) % UInt64.size) := by
  induction h with
  | same he =>
    intro _ i c hc
    rw [he] at hc
    exact ⟨c, hc, fun hlt => (Nat.mod_eq_of_lt hlt).symm⟩
  | touch m index now =>
    intro _ i c' hc'
    rw [getElem?_touchChannel] at hc'
    split at hc'
    · obtain ⟨c, hc, rfl⟩ := Option.map_eq_some_iff.1 hc'
      exact ⟨c, hc, fun hlt => (Nat.mod_eq_of_lt hlt).symm⟩
    · exact ⟨c', hc', fun hlt => (Nat.mod_eq_of_lt hlt).symm⟩
  | count m x _ =>
    intro _ i c' hc'
    rw [getElem?_touchChannel] at hc'
    rw [List.countP_singleton]
    split at hc'
    · next hx =>
      obtain ⟨c, hc, rfl⟩ := Option.map_eq_some_iff.1 hc'
      rw [if_pos (beq_iff_eq.2 hx)]
      exact ⟨c, hc, fun _ => rfl⟩
    · next hx =>
      rw [if_neg (by simpa using hx)]
      exact ⟨c', hc', fun hlt => (Nat.mod_eq_of_lt hlt).symm⟩
  | @give m c name hname hnone hfree =>
    intro ho i c' hc'
    rw [getElem?_setChannel] at hc'
    split at hc'
    · next hi =>
      obtain rfl : c.index = i := hi
      cases hc'
      exact ⟨_, ho.keyed.getElem?_of_mem (freeSlot?_some hfree).1,
        fun hlt => (Nat.mod_eq_of_lt hlt).symm⟩
    · exact ⟨c', hc', fun hlt => (Nat.mod_eq_of_lt hlt).symm⟩
  | trans h _ ih ih' =>
    intro ho i c' hc'
    obtain ⟨c₁, hc₁, hcount'⟩ := ih' (h.owned ho) i c' hc'
    obtain ⟨c, hc, hcount⟩ := ih ho i c₁ hc₁
    refine ⟨c, hc, fun hlt => ?_⟩
    have hmid := hcount hlt
    rw [hcount' (hmid ▸ Nat.mod_lt _ (by decide)), hmid, Nat.mod_add_mod, List.countP_append,
      Nat.add_assoc]

end SlotMoves

theorem slotMoves_resolveChannel (m : Mesh) (name : String) (index : UInt32) :
    SlotMoves [] m (m.resolveChannel name index).1 := by
  have hr := m.resolved name index
  generalize m.resolveChannel name index = r at hr ⊢
  cases hr with
  | known => exact .same rfl
  | given c hname hnone hfree => exact .give hname hnone hfree
  | byIndex => exact .same rfl

theorem slotMoves_takePayload (m : Mesh) (p : Packet) {channel : UInt32} (now : Moment)
    (hslot : channel < Channel.slots) :
    SlotMoves (brought p channel now) m (m.takePayload p channel now).1 := by
  cases hp : p.payload with
  | text t =>
    simp only [takePayload, brought, hp]
    exact (SlotMoves.count m (.ofPacket p t channel now) hslot).trans_same rfl
  | traceroute d =>
    simp only [takePayload, brought, hp]
    exact .same (channels_updateRoute m _)
  | neighborInfo r =>
    simp only [takePayload, brought, hp]
    exact .same (Spares.updateNeighbors m _ _).channels
  | _ =>
    simp only [takePayload, brought, hp]
    exact .same rfl

namespace SlotsOwned

theorem moves_applyNew (ho : SlotsOwned m) {p : Packet} (now : Moment)
    (hp : p.hasUsableSender = true) :
    SlotMoves (brought p (m.resolveChannel p.channelName p.channelIndex).2 now) m
      (m.applyNew p now).1 := by
  unfold applyNew
  rw [if_pos hp]
  have hslot := (m.slotMoves_resolveChannel p.channelName p.channelIndex).trans
    (.touch _ (m.resolveChannel p.channelName p.channelIndex).2 now)
  have hheard := hslot.trans_same (((Spares.hearSender _ p now).trans
    (.hearRelay _ p now)).trans (.hearGateway _ p now)).channels
  exact (hheard.trans (slotMoves_takePayload _ p now (ho.slot_lt _ _))).trans_same rfl

end SlotsOwned

/-- Whether an operation changes slots, or counts on them, other than by a packet. -/
def Operation.touchesSlots : Operation → Bool
  | .channel _ => true
  | .activity _ _ => true
  | .message _ => true
  | .restore _ => true
  | _ => false

/-- **One step** that leaves the slots to traffic counts the messages that it puts into the
history. -/
theorem SlotsOwned.moves_perform (ho : SlotsOwned m) (s : Step)
    (hs : s.operation.touchesSlots = false) : SlotMoves (m.spoken s) m (m.perform s).1 := by
  obtain ⟨op, now⟩ := s
  cases op with
  | packet p =>
    obtain ⟨dedup, ⟨hr, he⟩ | ⟨hr, he⟩⟩ := m.apply_cases p now
    · simp only [perform, spoken, he, hr, Bool.true_or, if_true]
      exact .same rfl
    · simp only [perform, spoken, he, hr, Bool.false_or, Bool.not_eq_true']
      cases hp : p.hasUsableSender with
      | false =>
        rw [applyNew_unusable hp]
        exact .same rfl
      | true =>
        have hseen : SlotMoves [] m { m with dedup := dedup } := .same rfl
        have h := hseen.trans ((hseen.owned ho).moves_applyNew now hp)
        rw [slot_of_dedup] at h
        exact h
  | update id u => exact .same (Spares.updateNode m id u now).channels
  | link id snr rssi hops => exact .same rfl
  | route destination hops => exact .same (channels_updateRoute m _)
  | neighbors reporter entries => exact .same (Spares.updateNeighbors m reporter entries).channels
  | sweep => exact .same (Spares.sweep m now).channels
  | channel | activity | message | restore => cases hs

theorem SlotsOwned.moves_after {steps : List Step} : ∀ {m : Mesh}, SlotsOwned m →
    (∀ s ∈ steps, s.operation.touchesSlots = false) →
      SlotMoves (m.said steps) m (m.after steps) := by
  induction steps with
  | nil => intro m _ _; exact .same rfl
  | cons s steps ih =>
    intro m ho hs
    have hfirst := ho.moves_perform s (hs s (List.mem_cons_self ..))
    exact hfirst.trans (ih (hfirst.owned ho) fun x hx => hs x (List.mem_cons_of_mem _ hx))

/-! ## Whole runs -/

namespace SlotsOwned

/-- A slot is left to its name. -/
theorem bears (ho : SlotsOwned m) (hk : SlotsKept m m') {i : UInt32} (hname : name ≠ "")
    (h : m.Bears i name) : m'.Bears i name := by
  obtain ⟨c, hc, rfl⟩ := h
  obtain ⟨c', hc', hkept⟩ := hk.still i c hc
  rcases hkept.use with ⟨hsame, -⟩ | ⟨hunused, -⟩
  · exact ⟨c', hc', hsame⟩
  · exact absurd ((ho.free i c hc).1 hunused) hname

/-- **The slot of a packet** bears its name when the packet was applied. Only if there is no
name, or none of the slots was left for it, the packet belongs to that of its index. -/
theorem slot_of_packet (ho : SlotsOwned m) {p : Packet} (now : Moment)
    (hp : p.hasUsableSender = true) :
    (m.FindsSlot p.channelName →
      (m.applyNew p now).1.Bears (m.resolveChannel p.channelName p.channelIndex).2 p.channelName) ∧
    (¬ m.FindsSlot p.channelName →
      (m.resolveChannel p.channelName p.channelIndex).2 = slotOfIndex p.channelIndex) := by
  have hkept := m.slotsKept_applyNew now hp
  have hr := m.resolved p.channelName p.channelIndex
  generalize m.resolveChannel p.channelName p.channelIndex = r at hr hkept ⊢
  cases hr with
  | known c hname hslot =>
    obtain ⟨hmem, hc⟩ := slotNamed?_some hslot
    have hbears : m.Bears c.index p.channelName := ⟨c, ho.keyed.getElem?_of_mem hmem, hc⟩
    refine ⟨fun _ => ho.bears hkept hname hbears, fun hno => ?_⟩
    exact absurd ⟨hname, Or.inl ⟨_, hbears⟩⟩ hno
  | given c hname hnone hfree =>
    have hbears : (m.setChannel (c.assigned p.channelName)).Bears c.index p.channelName := by
      refine ⟨c.assigned p.channelName, ?_, rfl⟩
      rw [getElem?_setChannel]
      exact if_pos rfl
    refine ⟨fun _ => (ho.setChannel hname hnone hfree).bears hkept hname hbears, fun hno => ?_⟩
    exact absurd ⟨hname, Or.inr ⟨c, freeSlot?_some hfree⟩⟩ hno
  | byIndex hnone =>
    refine ⟨?_, fun _ => rfl⟩
    rintro ⟨hname, ⟨i, hbears⟩ | ⟨c, hc, hunused⟩⟩
    · exact absurd hbears (slotNamed?_none (hnone hname).1 i)
    · exact absurd hunused (freeSlot?_none (hnone hname).2 hc)

/-- The slots in their order. -/
theorem map_index_channelList (ho : SlotsOwned m) :
    m.channelList.map Channel.index = [0, 1, 2, 3, 4, 5, 6, 7] := by
  have hkeys : m.channelList.map Channel.index = m.channels.toList.map Prod.fst := by
    rw [channelList, List.map_map]
    refine List.map_congr_left fun e he => ?_
    exact ho.keyed e.1 e.2 (Std.ExtTreeMap.mem_toList_iff_getElem?_eq_some.1 he)
  have hordered : (m.channels.toList.map Prod.fst).Pairwise (· < ·) :=
    List.pairwise_map.2 (Std.ExtTreeMap.ordered_keys_toList.imp fun h => Std.compare_eq_lt.1 h)
  have hmem : ∀ i : UInt32, i ∈ m.channelList.map Channel.index ↔ i ∈ [0, 1, 2, 3, 4, 5, 6, 7] := by
    intro i
    rw [show [0, 1, 2, 3, 4, 5, 6, 7] = (List.range 8).map UInt32.ofNat from rfl,
      Storable.mem_slotIndices, List.mem_map]
    constructor
    · rintro ⟨c, hc, rfl⟩
      exact ho.lt_of_getElem? (ho.keyed.getElem?_of_mem hc)
    · intro hi
      obtain ⟨c, hc⟩ := ho.exists_getElem? hi
      exact ⟨c, Table.mem_values.2 ⟨i, hc⟩, ho.keyed i c hc⟩
  rw [hkeys] at hmem ⊢
  have hperm : (m.channels.toList.map Prod.fst).Perm [0, 1, 2, 3, 4, 5, 6, 7] :=
    (List.perm_ext_iff_of_nodup (hordered.imp UInt32.ne_of_lt) (by decide)).2 hmem
  exact hperm.eq_of_pairwise (fun a b _ _ h h' => absurd h' (UInt32.lt_asymm h)) hordered (by decide)

theorem nodup_names (ho : SlotsOwned m) :
    ((m.channelList.map Channel.name).filter (· ≠ "")).Nodup := by
  have hindices : (m.channelList.map Channel.index).Nodup := by
    rw [ho.map_index_channelList]
    decide
  have hslots := (List.pairwise_map.1 hindices).filter (fun c => c.name ≠ "")
  rw [List.filter_map, List.Nodup, List.pairwise_map]
  refine List.Pairwise.imp_of_mem (fun {c d} hc hd hne hsame => hne ?_) hslots
  obtain ⟨hc, hname⟩ := List.mem_filter.1 hc
  have hbears : ∀ e ∈ m.channelList, m.Bears e.index e.name := fun e he =>
    ⟨e, ho.keyed.getElem?_of_mem he, rfl⟩
  exact ho.distinct c.index d.index c.name (hbears c hc)
    (hsame ▸ hbears d (List.mem_filter.1 hd).1) (by simpa using hname)

/-- **No count is lost**, as long as 64 bits can tell how many there are. -/
theorem sum_messageCount (ho : SlotsOwned m) (hslots : ∀ x ∈ xs, x.channel < Channel.slots)
    (hcount : ∀ c ∈ m.channelList,
      c.messageCount = xs.countP (·.channel == c.index) % UInt64.size) :
    (m.channelList.map Channel.messageCount).sum % UInt64.size = xs.length % UInt64.size ∧
    (xs.length < UInt64.size → (m.channelList.map Channel.messageCount).sum = xs.length) := by
  have hall : (m.channelList.map fun c => xs.countP (·.channel == c.index)).sum = xs.length := by
    have hmap : (m.channelList.map fun c => xs.countP (·.channel == c.index))
        = (m.channelList.map Channel.index).map fun i => xs.countP (·.channel == i) := by
      rw [List.map_map]
      rfl
    rw [hmap]
    refine sum_countP_eq_length Message.channel ?_ xs fun x hx => ?_
    · rw [ho.map_index_channelList]
      decide
    · obtain ⟨c, hc⟩ := ho.exists_getElem? (hslots x hx)
      exact List.mem_map.2 ⟨c, Table.mem_values.2 ⟨x.channel, hc⟩, ho.keyed _ c hc⟩
  rw [List.map_congr_left hcount]
  refine ⟨?_, fun hlen => ?_⟩
  · rw [sum_map_mod, hall]
  · have hsmall : ∀ c ∈ m.channelList, xs.countP (·.channel == c.index) % UInt64.size
        = xs.countP (·.channel == c.index) := fun c _ =>
      Nat.mod_eq_of_lt (Nat.lt_of_le_of_lt List.countP_le_length hlen)
    rw [List.map_congr_left hsmall, hall]

end SlotsOwned

/-- Only the excluded operations could change slots otherwise. -/
theorem Operation.of_touchesSlots {op : Operation} (h : op.touchesSlots = false) :
    op.assignsSlots = false ∧ op.isRestoration = false := by
  cases op with
  | channel | restore => cases h
  | _ => exact ⟨rfl, rfl⟩

/-- **Channels keep their slots.** After any traffic on a new mesh with a configured channel
the eight slots are there, each under its own index, and no two bear the same name. A name
that had a slot has it still. A text that is not dropped becomes a message on one of the
slots: on that of its name if there is one or one was free, else on that of its index, or
on the first if there is none. Each slot has counted the messages on it, and together they
have counted every message that was put into the history, up to the width of the counters. -/
theorem channels_keep_slots (limits : Limits) (primary : String) (orders : HashOrders)
    (hp : primary ≠ "") (steps : List Step)
    (hsteps : ∀ s ∈ steps, s.operation.touchesSlots = false) :
    let start := new limits primary orders
    let m := start.after steps
    let appended := start.said steps
    (m.channelList.map Channel.index = [0, 1, 2, 3, 4, 5, 6, 7] ∧
      ∀ i c, m.channels[i]? = some c ↔ c ∈ m.channelList ∧ c.index = i) ∧
    ((m.channelList.map Channel.name).filter (· ≠ "")).Nodup ∧
    (∀ pre post, steps = pre ++ post → ∀ i name, name ≠ "" →
      (start.after pre).Bears i name → m.Bears i name) ∧
    (∀ p text now, p.payload = .text text → m.isRepeated p now = false →
      p.hasUsableSender = true → ∃ i < Channel.slots,
        let m' := (m.perform ⟨.packet p, now⟩).1
        Speaks [.ofPacket p text i now] m m' (m.perform ⟨.packet p, now⟩).2 ∧
        (m.FindsSlot p.channelName → m'.Bears i p.channelName) ∧
        (¬ m.FindsSlot p.channelName →
          i = if p.channelIndex < Channel.slots then p.channelIndex else 0)) ∧
    Speaks appended start m (start.told steps) ∧
    (∀ c ∈ m.channelList,
      c.messageCount = appended.countP (·.channel == c.index) % UInt64.size) ∧
    (m.channelList.map Channel.messageCount).sum % UInt64.size = appended.length % UInt64.size ∧
    (appended.length < UInt64.size →
      (m.channelList.map Channel.messageCount).sum = appended.length) := by
  intro start m appended
  have hstart : SlotsOwned start := slotsOwned_new limits orders hp
  have hmoves : SlotMoves appended start m := hstart.moves_after hsteps
  have ho : SlotsOwned m := hmoves.owned hstart
  have hcount : ∀ c ∈ m.channelList,
      c.messageCount = appended.countP (·.channel == c.index) % UInt64.size := by
    intro c hc
    obtain ⟨c₀, hc₀, hcount⟩ := hmoves.messageCount hstart _ c (ho.keyed.getElem?_of_mem hc)
    have hzero : c₀.messageCount = 0 :=
      Storable.messageCount_newSlots (Storable.mem_newSlots hc₀).1
    rw [hcount (by rw [hzero]; decide), hzero, Nat.zero_add]
  refine ⟨⟨ho.map_index_channelList, fun i c => ⟨fun hc => ?_, ?_⟩⟩, ho.nodup_names, ?_, ?_,
    speaks_told start fun s hs => (Operation.of_touchesSlots (hsteps s hs)).2, hcount,
    ho.sum_messageCount hmoves.channel_lt hcount⟩
  · exact ⟨Table.mem_values.2 ⟨i, hc⟩, ho.keyed i c hc⟩
  · rintro ⟨hc, rfl⟩
    exact ho.keyed.getElem?_of_mem hc
  · rintro pre post rfl i name hname hbears
    have hpre : SlotsOwned (start.after pre) :=
      (hstart.moves_after fun s hs => hsteps s (List.mem_append_left _ hs)).owned hstart
    have hkept : SlotsKept (start.after pre) ((start.after pre).after post) :=
      hpre.keyed.kept_after fun s hs =>
        (Operation.of_touchesSlots (hsteps s (List.mem_append_right _ hs))).1
    rw [← after_append] at hkept
    exact hpre.bears hkept hname hbears
  · intro p text now htext hnew hsender
    refine ⟨(m.resolveChannel p.channelName p.channelIndex).2, ho.slot_lt _ _, ?_, ?_⟩
    · have hspeaks := speaks_perform m ⟨.packet p, now⟩ rfl
      simp only [spoken, hnew, hsender, Bool.not_true, Bool.or_self, Bool.false_eq_true, if_false,
        brought, htext] at hspeaks
      exact hspeaks
    · obtain ⟨dedup, ⟨hr, -⟩ | ⟨-, he⟩⟩ := m.apply_cases p now
      · rw [hnew] at hr
        cases hr
      · have hseen : SlotsOwned { m with dedup := dedup } := ho.labelled fun _ => rfl
        have hslot := hseen.slot_of_packet now hsender
        rw [slot_of_dedup] at hslot
        simp only [perform, he]
        exact hslot

/-- Seven names come after the configured one, and the next finds no slot: a text on it is
counted where its index points. -/
theorem slots_of_nine_names :
    let names := ["A", "B", "C", "D", "E", "F", "G", "H", "C"]
    let steps : List Step := names.zipIdx.map fun e =>
      ⟨.packet (textOn e.1 (UInt32.ofNat (e.2 + 1))), .ofSecs e.2⟩
    let m := (new {} "Ops" {}).after steps
    "Ops" ≠ "" ∧ (∀ s ∈ steps, s.operation.touchesSlots = false) ∧
    m.channelList.map Channel.name = ["Ops", "A", "B", "C", "D", "E", "F", "G"] ∧
    m.channelList.map Channel.messageCount = [0, 1, 1, 2, 1, 2, 1, 1] ∧
    (m.channelList.map Channel.messageCount).sum = ((new {} "Ops" {}).said steps).length := by
  intro names steps m
  have hsteps : ∀ s ∈ steps, s.operation.touchesSlots = false := by
    intro s hs
    obtain ⟨_, -, rfl⟩ := List.mem_map.1 hs
    rfl
  have hlen : ((new {} "Ops" {}).said steps).length < UInt64.size := by decide +kernel
  obtain ⟨-, -, -, -, -, -, -, hsum⟩ := channels_keep_slots {} "Ops" {} (by decide) steps hsteps
  exact ⟨by decide, hsteps, by decide +kernel, by decide +kernel, hsum hlen⟩

end Mesh

end MeshWatch
