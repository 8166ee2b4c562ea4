import MeshWatch.Proofs.EventStream
import MeshWatch.Proofs.StoredState

/-!
# The first slot

The first slot of a new mesh carries the configured channel, and no traffic takes it away:
a name without a slot is given one that is not in use. As slots are looked through in their
order, texts on the configured channel are attributed to the first one. Putting back a
stored state overlays the slots with those that were stored, the first one too. So the slot
stays with the configured channel exactly if the state says nothing else about it.

- `SlotsKept`: what traffic does to slots. `SlotsKeyed.kept_perform`: everything but putting
  a channel into a slot and putting back a state does no more.
- `CarriesFirst`: the first slot is the configured one. `SlotsKept.carriesFirst_iff`: it was
  so before, too. `CarriesFirst.received_text`: texts on that channel are attributed to it.
- `first_slot_after_restore`: what is left of it after a state was put back.
-/

namespace MeshWatch

/-- A slot was left to its channel, or it was not in use and given to one. -/
structure Channel.KeptAs (c c' : Channel) : Prop where
  index : c'.index = c.index
  use : (c'.name = c.name ∧ c'.role = c.role) ∨ (c.role = .disabled ∧ c'.role = .secondary)

theorem Channel.KeptAs.refl (c : Channel) : c.KeptAs c := ⟨rfl, Or.inl ⟨rfl, rfl⟩⟩

theorem Channel.KeptAs.trans {c c₁ c₂ : Channel} (h : c.KeptAs c₁) (h' : c₁.KeptAs c₂) :
    c.KeptAs c₂ := by
  refine ⟨h'.index.trans h.index, ?_⟩
  rcases h.use with ⟨hn, hr⟩ | ⟨hd, hs⟩
  · rcases h'.use with ⟨hn', hr'⟩ | ⟨hd', hs'⟩
    · exact Or.inl ⟨hn'.trans hn, hr'.trans hr⟩
    · exact Or.inr ⟨hr.symm.trans hd', hs'⟩
  · rcases h'.use with ⟨-, hr'⟩ | ⟨hd', -⟩
    · exact Or.inr ⟨hd, hr'.trans hs⟩
    · rw [hs] at hd'
      cases hd'

/-- What a stored state says about the first slot is that it carries a channel as the primary
one, or nothing. Of several records the last one counts. -/
def MeshState.LeavesFirst (s : MeshState) (primary : String) : Prop :=
  ∀ c ∈ (s.channels.filter fun c => c.index == 0).getLast?, c.role = .primary ∧ c.name = primary

namespace Mesh

variable {m m' : Mesh} {primary : String}

/-! ## Slots under traffic -/

theorem getElem?_touchChannel (m : Mesh) (index i : UInt32) (message : Bool) (now : Moment) :
    (m.touchChannel index message now).channels[i]?
      = if index = i then (m.channels[i]?).map (·.touched message now) else m.channels[i]? := by
  show (m.channels.modify index _)[i]? = _
  rw [Std.ExtTreeMap.getElem?_modify]
  by_cases he : index = i
  · subst he
    simp
  · rw [if_neg fun hc => he (Std.LawfulEqOrd.eq_of_compare hc), if_neg he]

theorem getElem?_setChannel (m : Mesh) (c : Channel) (i : UInt32) :
    (m.setChannel c).channels[i]? = if c.index = i then some c else m.channels[i]? :=
  Table.getElem?_insert m.channels c.index i c

/-- Every slot is there as before, and it was left to its channel or not in use. -/
structure SlotsKept (m m' : Mesh) : Prop where
  still : ∀ (i : UInt32) (c : Channel), m.channels[i]? = some c →
    ∃ c', m'.channels[i]? = some c' ∧ c.KeptAs c'
  before : ∀ (i : UInt32) (c' : Channel), m'.channels[i]? = some c' →
    ∃ c, m.channels[i]? = some c ∧ c.KeptAs c'

namespace SlotsKept

theorem of_eq (h : m'.channels = m.channels) : SlotsKept m m' := by
  refine ⟨fun i c hc => ⟨c, ?_, .refl c⟩, fun i c hc => ⟨c, ?_, .refl c⟩⟩
  · rw [h, hc]
  · rw [← h, hc]

theorem trans {m₁ : Mesh} (h : SlotsKept m m₁) (h' : SlotsKept m₁ m') : SlotsKept m m' where
  still := fun i c hc => by
    obtain ⟨c₁, hc₁, h₁⟩ := h.still i c hc
    obtain ⟨c₂, hc₂, h₂⟩ := h'.still i c₁ hc₁
    exact ⟨c₂, hc₂, h₁.trans h₂⟩
  before := fun i c hc => by
    obtain ⟨c₁, hc₁, h₁⟩ := h'.before i c hc
    obtain ⟨c₂, hc₂, h₂⟩ := h.before i c₁ hc₁
    exact ⟨c₂, hc₂, h₂.trans h₁⟩

theorem touchChannel (m : Mesh) (index : UInt32) (message : Bool) (now : Moment) :
    SlotsKept m (m.touchChannel index message now) := by
  have hkept : ∀ c : Channel, c.KeptAs (c.touched message now) := fun c => ⟨rfl, Or.inl ⟨rfl, rfl⟩⟩
  constructor
  · intro i c hc
    rw [getElem?_touchChannel, hc]
    split
    · exact ⟨_, rfl, hkept c⟩
    · exact ⟨c, rfl, .refl c⟩
  · intro i c' hc'
    rw [getElem?_touchChannel] at hc'
    split at hc'
    · obtain ⟨c, hc, rfl⟩ := Option.map_eq_some_iff.1 hc'
      exact ⟨c, hc, hkept c⟩
    · exact ⟨c', hc', .refl c'⟩

theorem contains (h : SlotsKept m m') (i : UInt32) :
    m'.channels.contains i = true ↔ m.channels.contains i = true := by
  simp only [Std.ExtTreeMap.contains_eq_isSome_getElem?, Option.isSome_iff_exists]
  constructor
  · rintro ⟨c', hc'⟩
    obtain ⟨c, hc, -⟩ := h.before i c' hc'
    exact ⟨c, hc⟩
  · rintro ⟨c, hc⟩
    obtain ⟨c', hc', -⟩ := h.still i c hc
    exact ⟨c', hc'⟩

end SlotsKept

/-- Channels lie under their indices. -/
def SlotsKeyed (m : Mesh) : Prop :=
  ∀ (i : UInt32) (c : Channel), m.channels[i]? = some c → c.index = i

theorem slotsKeyed_new (limits : Limits) (primary : String) (orders : HashOrders) :
    SlotsKeyed (new limits primary orders) :=
  fun _ _ hc => (Storable.mem_newSlots hc).2

theorem SlotsKept.keyed (h : SlotsKept m m') (hk : SlotsKeyed m) : SlotsKeyed m' := by
  intro i c' hc'
  obtain ⟨c, hc, hkept⟩ := h.before i c' hc'
  exact hkept.index.trans (hk i c hc)

/-- A slot that is given to a name was not in use. -/
theorem SlotsKeyed.kept_setChannel (hk : SlotsKeyed m) {c : Channel} (hfree : m.freeSlot? = some c)
    (name : String) : SlotsKept m (m.setChannel (c.assigned name)) := by
  obtain ⟨i, hi⟩ := Table.mem_values.1 (List.mem_of_find?_eq_some hfree)
  have hunused : c.role = .disabled := by simpa using List.find?_some hfree
  obtain rfl := hk i c hi
  have hkept : c.KeptAs (c.assigned name) := ⟨rfl, Or.inr ⟨hunused, rfl⟩⟩
  constructor
  · intro j c₁ hc₁
    rw [getElem?_setChannel]
    split
    · next hj =>
      obtain rfl : c.index = j := hj
      rw [hi] at hc₁
      cases hc₁
      exact ⟨_, rfl, hkept⟩
    · exact ⟨c₁, hc₁, .refl c₁⟩
  · intro j c₁ hc₁
    rw [getElem?_setChannel] at hc₁
    split at hc₁
    · next hj =>
      obtain rfl : c.index = j := hj
      cases hc₁
      exact ⟨c, hi, hkept⟩
    · exact ⟨c₁, hc₁, .refl c₁⟩

theorem SlotsKeyed.kept_resolveChannel (hk : SlotsKeyed m) (name : String) (index : UInt32) :
    SlotsKept m (m.resolveChannel name index).1 := by
  rcases m.resolveChannel_cases name index with he | ⟨c, hfree, he⟩
  · rw [he]
    exact .of_eq rfl
  · rw [he]
    exact hk.kept_setChannel hfree name

theorem channels_updateRoute (m : Mesh) (r : Route) :
    (m.updateRoute r).1.channels = m.channels := by
  unfold updateRoute
  split
  · unfold storeRoute
    extract_lets m'
    show m'.channels = m.channels
    unfold m'
    split
    · rfl
    · exact (Spares.makeRouteRoom _ m).channels
  · rfl

/-- A body touches the slot of its packet at most. -/
theorem slotsKept_takePayload (m : Mesh) (p : Packet) (channel : UInt32) (now : Moment) :
    SlotsKept m (m.takePayload p channel now).1 := by
  unfold takePayload
  split
  · exact (SlotsKept.touchChannel m channel true now).trans (.of_eq rfl)
  · exact .of_eq (channels_updateRoute m _)
  · exact .of_eq (Spares.updateNeighbors m _ _).channels
  · exact .of_eq rfl

/-- Once a packet has its slot, the slots are left to their channels. -/
theorem slotsKept_applyNew (m : Mesh) {p : Packet} (now : Moment) (hp : p.hasUsableSender = true) :
    SlotsKept (m.resolveChannel p.channelName p.channelIndex).1 (m.applyNew p now).1 := by
  unfold applyNew
  rw [if_pos hp]
  have hslot := SlotsKept.touchChannel (m.resolveChannel p.channelName p.channelIndex).1
    (m.resolveChannel p.channelName p.channelIndex).2 false now
  have hheard := hslot.trans (.of_eq (((Spares.hearSender _ p now).trans
    (.hearRelay _ p now)).trans (.hearGateway _ p now)).channels)
  exact (hheard.trans (slotsKept_takePayload _ p _ now)).trans (.of_eq rfl)

theorem SlotsKeyed.kept_applyNew (hk : SlotsKeyed m) (p : Packet) (now : Moment) :
    SlotsKept m (m.applyNew p now).1 := by
  cases hp : p.hasUsableSender with
  | true =>
    have hslot := hk.kept_resolveChannel p.channelName p.channelIndex
    exact hslot.trans (m.slotsKept_applyNew now hp)
  | false =>
    rw [applyNew_unusable hp]
    exact .of_eq rfl

/-- Whether an operation decides by itself what is in a slot. -/
def Operation.assignsSlots : Operation → Bool
  | .channel _ => true
  | .restore _ => true
  | _ => false

/-- **One step** that assigns no slots leaves those in use to their channels. -/
theorem SlotsKeyed.kept_perform (hk : SlotsKeyed m) (s : Step)
    (hs : s.operation.assignsSlots = false) : SlotsKept m (m.perform s).1 := by
  obtain ⟨op, now⟩ := s
  cases op with
  | packet p =>
    obtain ⟨dedup, ⟨-, he⟩ | ⟨-, he⟩⟩ := m.apply_cases p now
    · simp only [perform, he]
      exact .of_eq rfl
    · simp only [perform, he]
      have hseen : SlotsKept m { m with dedup := dedup } := .of_eq rfl
      exact hseen.trans ((hseen.keyed hk).kept_applyNew p now)
  | update id u => exact .of_eq (Spares.updateNode m id u now).channels
  | link id snr rssi hops => exact .of_eq rfl
  | route destination hops => exact .of_eq (channels_updateRoute m _)
  | neighbors reporter entries => exact .of_eq (Spares.updateNeighbors m reporter entries).channels
  | channel c => cases hs
  | activity index message => exact .touchChannel m index message now
  | message x => exact (SlotsKept.touchChannel m x.channel true x.timestamp).trans (.of_eq rfl)
  | sweep => exact .of_eq (Spares.sweep m now).channels
  | restore state => cases hs

theorem SlotsKeyed.kept_after {steps : List Step} : ∀ {m : Mesh}, SlotsKeyed m →
    (∀ s ∈ steps, s.operation.assignsSlots = false) → SlotsKept m (m.after steps) := by
  induction steps with
  | nil => intro m _ _; exact .of_eq rfl
  | cons s steps ih =>
    intro m hk hs
    have hfirst := hk.kept_perform s (hs s (List.mem_cons_self ..))
    exact hfirst.trans (ih (hfirst.keyed hk) fun x hx => hs x (List.mem_cons_of_mem _ hx))

/-! ## The first slot -/

/-- The first slot carries a channel, as the primary one. -/
def CarriesFirst (m : Mesh) (primary : String) : Prop :=
  ∃ c, m.channels[(0 : UInt32)]? = some c ∧ c.role = .primary ∧ c.name = primary

theorem carriesFirst_new (limits : Limits) (primary : String) (orders : HashOrders) :
    CarriesFirst (new limits primary orders) primary := by
  have hslot := (Storable.contains_new limits primary orders 0).2 (by decide)
  rw [Std.ExtTreeMap.contains_eq_isSome_getElem?, Option.isSome_iff_exists] at hslot
  obtain ⟨c, hc⟩ := hslot
  obtain ⟨hmem, hindex⟩ := Storable.mem_newSlots hc
  rcases List.mem_cons.1 hmem with rfl | hmem
  · exact ⟨_, hc, rfl, rfl⟩
  · -- the other slots have other indices
    obtain ⟨i, hi, rfl⟩ := List.mem_map.1 hmem
    have hother : (0 : UInt32) ∉ ([1, 2, 3, 4, 5, 6, 7] : List UInt32) := by simp
    rw [show i = 0 from hindex] at hi
    exact absurd hi hother

/-- Traffic neither gives the first slot to a channel as the primary one nor takes it away. -/
theorem SlotsKept.carriesFirst_iff (h : SlotsKept m m') :
    CarriesFirst m' primary ↔ CarriesFirst m primary := by
  constructor
  · rintro ⟨c', hc', hr, hn⟩
    obtain ⟨c, hc, hkept⟩ := h.before 0 c' hc'
    rcases hkept.use with ⟨hname, hrole⟩ | ⟨-, hs⟩
    · exact ⟨c, hc, hrole.symm.trans hr, hname.symm.trans hn⟩
    · rw [hr] at hs
      cases hs
  · rintro ⟨c, hc, hr, hn⟩
    obtain ⟨c', hc', hkept⟩ := h.still 0 c hc
    rcases hkept.use with ⟨hname, hrole⟩ | ⟨hd, -⟩
    · exact ⟨c', hc', hrole.trans hr, hname.trans hn⟩
    · rw [hr] at hd
      cases hd

/-- Slots are looked through in their order, so the first one is found first. -/
theorem slotNamed?_first {c : Channel} (hc : m.channels[(0 : UInt32)]? = some c) :
    m.slotNamed? c.name = some c := by
  have hmem := Std.ExtTreeMap.mem_toList_iff_getElem?_eq_some.2 hc
  obtain ⟨pre, post, hsplit⟩ := List.append_of_mem hmem
  have hordered : m.channels.toList.Pairwise fun a b => compare a.1 b.1 = .lt :=
    Std.ExtTreeMap.ordered_keys_toList
  rw [hsplit] at hordered
  have hnil : pre = [] := by
    refine List.eq_nil_iff_forall_not_mem.2 fun e he => ?_
    have hlt := (List.pairwise_append.1 hordered).2.2 e he _ (List.mem_cons_self ..)
    exact UInt32.not_lt_zero (Std.compare_eq_lt.1 hlt)
  rw [slotNamed?, channelList, hsplit, hnil]
  simp

theorem CarriesFirst.resolveChannel (h : CarriesFirst m primary) (hk : SlotsKeyed m)
    (hp : primary ≠ "") (index : UInt32) : (m.resolveChannel primary index).2 = 0 := by
  obtain ⟨c, hc, -, rfl⟩ := h
  have hname : c.name.isEmpty = false := by simpa using hp
  unfold Mesh.resolveChannel
  rw [hname, if_neg nofun, slotNamed?_first hc]
  exact hk 0 c hc

/-- A text on the channel of the first slot is attributed to that slot. -/
theorem CarriesFirst.received_text (h : CarriesFirst m primary) (hk : SlotsKeyed m)
    (hp : primary ≠ "") {p : Packet} {text : String} {now : Moment}
    (hchannel : p.channelName = primary) (htext : p.payload = .text text)
    (hnew : m.isRepeated p now = false) (hsender : p.hasUsableSender = true) :
    received (m.perform ⟨.packet p, now⟩).2 = [.ofPacket p text 0 now] := by
  rw [(speaks_perform m ⟨.packet p, now⟩ rfl).received]
  simp only [spoken, hnew, hsender, Bool.not_true, Bool.or_self, Bool.false_eq_true, if_false]
  rw [hchannel, h.resolveChannel hk hp, brought, htext]

/-! ## Stored states -/

theorem getElem?_channels_restore (m : Mesh) (s : MeshState) (i : UInt32) :
    (m.restore s).channels[i]?
      = (s.channels.filter fun c => c.index == i && c.index < Channel.slots).getLast?.or
          m.channels[i]? := by
  show (Table.fill Channel.index m.channels _)[i]? = _
  rw [Table.getElem?_fill, List.filter_filter]

theorem SlotsKeyed.restore (hk : SlotsKeyed m) (s : MeshState) : SlotsKeyed (m.restore s) := by
  intro i c hc
  rw [getElem?_channels_restore] at hc
  rcases Option.or_eq_some_iff.1 hc with hc | ⟨-, hc⟩
  · have hmem := List.mem_of_getLast? hc
    have hindex := (List.mem_filter.1 hmem).2
    rw [Bool.and_eq_true, beq_iff_eq] at hindex
    exact hindex.1
  · exact hk i c hc

theorem CarriesFirst.restore_iff (h : CarriesFirst m primary) (s : MeshState) :
    CarriesFirst (m.restore s) primary ↔ s.LeavesFirst primary := by
  have hinside : (fun c : Channel => c.index == 0 && decide (c.index < Channel.slots))
      = fun c => c.index == 0 := by
    funext c
    by_cases hc : c.index = 0
    · simp [hc, Channel.slots]
    · simp [hc]
  unfold CarriesFirst MeshState.LeavesFirst
  rw [getElem?_channels_restore, hinside]
  cases (s.channels.filter fun c => c.index == 0).getLast? with
  | none =>
    rw [Option.none_or]
    exact iff_of_true h nofun
  | some c =>
    rw [Option.some_or]
    constructor
    · rintro ⟨c', hc', hslot⟩ c₁ hc₁
      cases hc'
      cases hc₁
      exact hslot
    · exact fun hslot => ⟨c, rfl, hslot c rfl⟩

/-- **The first slot after a restoration.** Whatever traffic a new mesh went through before a
stored state was put back and afterwards, it has a first slot, and that carries the configured
channel as the primary one if and only if the state says nothing else about it. In that case
every text on the configured channel is attributed to it. -/
theorem first_slot_after_restore (limits : Limits) (primary : String) (orders : HashOrders)
    (hp : primary ≠ "") (before after : List Step)
    (hbefore : ∀ s ∈ before, s.operation.assignsSlots = false)
    (hafter : ∀ s ∈ after, s.operation.assignsSlots = false) (state : MeshState) :
    let m := (((new limits primary orders).after before).restore state).after after
    (∃ c, m.channels[(0 : UInt32)]? = some c) ∧
    (CarriesFirst m primary ↔ state.LeavesFirst primary) ∧
    (state.LeavesFirst primary → ∀ (p : Packet) (text : String) (now : Moment),
      p.channelName = primary → p.payload = .text text → m.isRepeated p now = false →
      p.hasUsableSender = true →
        received (m.perform ⟨.packet p, now⟩).2 = [.ofPacket p text 0 now]) := by
  intro m
  have hnew := slotsKeyed_new limits primary orders
  have hkept₁ := hnew.kept_after hbefore
  have hkeyed₁ := (hkept₁.keyed hnew).restore state
  have hkept₂ := hkeyed₁.kept_after hafter
  have hkeyed : SlotsKeyed m := hkept₂.keyed hkeyed₁
  have hfirst : CarriesFirst ((new limits primary orders).after before) primary :=
    hkept₁.carriesFirst_iff.2 (carriesFirst_new limits primary orders)
  have hiff : CarriesFirst m primary ↔ state.LeavesFirst primary :=
    hkept₂.carriesFirst_iff.trans (hfirst.restore_iff state)
  refine ⟨?_, hiff, fun hleft p text now hchannel htext hrep hsender => ?_⟩
  · -- the slot was there before the state was put over it
    obtain ⟨c, hc, -⟩ := hfirst
    have hslot : ∃ c,
        (((new limits primary orders).after before).restore state).channels[(0 : UInt32)]?
        = some c := by
      rw [getElem?_channels_restore, hc]
      exact Option.isSome_iff_exists.1 (by rw [Option.isSome_or]; simp)
    obtain ⟨c₁, hc₁⟩ := hslot
    obtain ⟨c₂, hc₂, -⟩ := hkept₂.still 0 c₁ hc₁
    exact ⟨c₂, hc₂⟩
  · exact (hiff.2 hleft).received_text hkeyed hp hchannel htext hrep hsender

/-- A packet with a text for everyone on a channel. -/
def textOn (channel : String) (packetId : UInt32) : Packet :=
  { packetId := packetId, sender := ⟨0x1001⟩, recipient := .broadcast, gateway := none
    channelName := channel, channelIndex := 5, hopLimit := 3, hopStart := 3, rxSnr := none
    rxRssi := none, rxTime := none, relay := none, wantAck := false, encrypted := false
    payload := .text "hi" }

/-- The stored state names the configured channel twice and the first slot twice. Its last
record of the first slot is for the configured channel, to which texts are attributed even
though a later slot has the same name. -/
theorem first_slot_of_last_record :
    let state : MeshState :=
      { channels := [.new 0 "LongFast" .primary, .new 3 "Ops" .secondary, .new 0 "Ops" .primary] }
    let before : List Step := [⟨.packet (textOn "LongFast" 7), .ofSecs 10⟩]
    let after : List Step := [⟨.packet (textOn "Admin" 8), .ofSecs 20⟩, ⟨.sweep, .ofSecs 30⟩]
    let m := (((new {} "Ops" {}).after before).restore state).after after
    let p := textOn "Ops" 9
    "Ops" ≠ "" ∧ (∀ s ∈ before, s.operation.assignsSlots = false) ∧
    (∀ s ∈ after, s.operation.assignsSlots = false) ∧ state.LeavesFirst "Ops" ∧
    m.isRepeated p (.ofSecs 40) = false ∧ p.hasUsableSender = true ∧ CarriesFirst m "Ops" ∧
    received (m.perform ⟨.packet p, .ofSecs 40⟩).2 = [.ofPacket p "hi" 0 (.ofSecs 40)] := by
  intro state before after m p
  have hbefore : ∀ s ∈ before, s.operation.assignsSlots = false := by
    intro s hs
    rw [List.mem_singleton.1 hs]
    rfl
  have hafter : ∀ s ∈ after, s.operation.assignsSlots = false := by
    intro s hs
    rcases List.mem_cons.1 hs with rfl | hs
    · rfl
    · rw [List.mem_singleton.1 hs]
      rfl
  have hleft : state.LeavesFirst "Ops" := by
    rintro c ⟨⟩
    exact ⟨rfl, rfl⟩
  have hrep : m.isRepeated p (.ofSecs 40) = false := by decide +kernel
  have hp : "Ops" ≠ "" := by decide
  obtain ⟨-, hiff, hreceived⟩ :=
    first_slot_after_restore {} "Ops" {} hp before after hbefore hafter state
  exact ⟨hp, hbefore, hafter, hleft, hrep, rfl, hiff.2 hleft,
    hreceived hleft p "hi" (.ofSecs 40) rfl rfl hrep rfl⟩

/-- A state that was saved under one channel takes the first slot from another one that is
configured later, and texts on that are attributed to the next slot. -/
theorem saved_channel_takes_first_slot :
    let m := (new {} "Ops" {}).restore (new {} "LongFast" {}).exported
    let p := textOn "Ops" 7
    ¬ CarriesFirst m "Ops" ∧ m.isRepeated p (.ofSecs 10) = false ∧ p.hasUsableSender = true ∧
    received (m.perform ⟨.packet p, .ofSecs 10⟩).2 = [.ofPacket p "hi" 1 (.ofSecs 10)] := by
  intro m p
  have hname : (m.channels[(0 : UInt32)]?).map Channel.name = some "LongFast" := by decide +kernel
  refine ⟨?_, by decide, rfl, by decide +kernel⟩
  rintro ⟨c, hc, -, hn⟩
  rw [hc, Option.map_some, hn] at hname
  exact absurd hname (by decide)

end Mesh

end MeshWatch
