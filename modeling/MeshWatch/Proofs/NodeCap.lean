import MeshWatch.Proofs.Eviction
import MeshWatch.Proofs.Tables

/-!
# The node cap

A packet may have to store three nodes in a mesh that has room for fewer, and none of them
may give way to another. So there are at times more nodes than fit, but never more than
three: a node is only stored beyond the cap when all the others are named by the same
packet. Of more than two there is always one that gives way.

- `nodeBound`: how many nodes there can be.
- `Tracked.size_ensure_le`, `Tracked.size_moves_le`: what the parts of an operation keep of
  it, and `Tracked.size_perform_le`: every operation keeps it.
- `Presents`, `Tracked.presents_perform`: whom a packet names is there afterwards.
- `cap_holds`: every mesh that can be reached.
-/

namespace MeshWatch

theorem Packet.length_named_le (p : Packet) : p.named.length ≤ 3 := by
  have hrelay : (Relay.fullId? p.relay).toList.length ≤ 1 := Option.length_toList_le
  have hgateway : p.gateway.toList.length ≤ 1 := Option.length_toList_le
  rw [named, List.length_append, List.length_cons]
  omega

namespace Mesh

variable {m m' : Mesh} {keep : List NodeId}

/-- How many nodes there can be: as many as fit, but always the three of one packet. -/
def nodeBound (l : Limits) : Nat := max l.maxNodes 3

theorem Operation.length_named_le (op : Operation) : op.named.length ≤ 3 := by
  cases op with
  | packet p => exact p.length_named_le
  | update id u => exact Nat.le_add_left 1 2
  | _ => exact Nat.zero_le 3

/-! ## Hearing a node -/

/-- If every node has to be kept, there are no more than that. -/
theorem Tracked.size_lt_of_spare_nil (h : Tracked m) {id : NodeId} (hid : id ∈ keep)
    (hnew : m.nodes.contains id = false) (hs : m.spare keep = []) :
    m.nodes.size < keep.length := by
  have hkept : ∀ i ∈ m.nodes.keys, i ∈ keep := by
    intro i hi
    by_contra hk
    have hthere := Std.ExtTreeMap.mem_iff_contains.1 (Std.ExtTreeMap.mem_keys.1 hi)
    have hspare := h.mem_spare.2 ⟨hthere, hk⟩
    rw [hs] at hspare
    cases hspare
  -- the new node has to be kept as well, and it is none of them
  have hnot : id ∉ m.nodes.keys := by
    rw [Std.ExtTreeMap.mem_keys, Std.ExtTreeMap.mem_iff_contains, hnew]
    exact nofun
  have hsub : (id :: m.nodes.keys).Subperm keep := by
    refine (List.nodup_cons.2 ⟨hnot, Std.ExtTreeMap.nodup_keys⟩).subperm fun i hi => ?_
    rcases List.mem_cons.1 hi with rfl | hi
    · exact hid
    · exact hkept i hi
  have hlen := hsub.length_le
  rw [List.length_cons, Std.ExtTreeMap.length_keys] at hlen
  exact hlen

/-- **Room for one.** The surplus is gone, or it cannot be as all the others are named. -/
theorem Tracked.size_ensure_le (h : Tracked m) {id : NodeId} (now : Moment) (hid : id ∈ keep)
    (hkeep : keep.length ≤ 3) (hsize : m.nodes.size ≤ nodeBound m.limits) :
    (m.ensure id now keep).1.nodes.size ≤ nodeBound m.limits := by
  unfold Mesh.ensure announce
  cases hc : m.nodes.contains id with
  | true =>
    show (m.sight id now).nodes.size ≤ _
    rw [size_sight, if_pos hc]
    exact hsize
  | false =>
    have hroom := h.vacated_makeRoom (length_spare_le m keep)
    have htracked : Tracked (Mesh.makeRoom keep m.nodes.size m).1 := h.makeRoom
    show ((Mesh.makeRoom keep m.nodes.size m).1.sight id now).nodes.size ≤ _
    generalize (Mesh.makeRoom keep m.nodes.size m).1 = m₀ at hroom htracked
    have hnew : m₀.nodes.contains id = false := by
      rw [← Bool.not_eq_true, hroom.contains, hc]
      simp
    rw [size_sight, hnew, if_neg nofun]
    have hgone := hroom.size
    have hspare := congrArg List.length hroom.spare
    rw [List.length_append] at hspare
    rw [List.length_take] at hgone hspare
    unfold nodeBound at hsize ⊢
    rcases Nat.eq_zero_or_pos (m₀.spare keep).length with hnone | hsome
    · have := htracked.size_lt_of_spare_nil hid hnew (List.length_eq_zero_iff.1 hnone)
      omega
    · unfold surplus Limits.nodeCap at hgone hspare
      omega

theorem Tracked.size_moves_le {heard : List NodeId} {now : Moment} {told : Journal}
    (h : Tracked m) (hm : Moves keep now heard m m' told) (hkeep : keep.length ≤ 3)
    (hsize : m.nodes.size ≤ nodeBound m.limits) : m'.nodes.size ≤ nodeBound m.limits := by
  induction hm with
  | hear hid he =>
    rw [he.size]
    exact h.size_ensure_le _ hid hkeep hsize
  | edits he _ hn =>
    rw [hn, he.size]
    exact hsize
  | trans h₁ _ ih ih' =>
    have hfirst := ih h hsize
    rw [← h₁.limits] at hfirst ⊢
    exact ih' (h.moves h₁) hfirst

/-! ## Operations -/

theorem size_removeNodes_le (ids : List NodeId) : ∀ m : Mesh,
    (m.removeNodes ids).nodes.size ≤ m.nodes.size := by
  induction ids with
  | nil => intro m; exact Nat.le_refl _
  | cons id ids ih => intro m; exact Nat.le_trans (ih _) Std.ExtTreeMap.size_erase_le

theorem size_restore_le (m : Mesh) (s : MeshState) :
    (m.restore s).nodes.size ≤ m.limits.maxNodes := by
  have hfill := Table.size_fill_le Node.id ((newestNodes s.nodes).take m.limits.maxNodes) ∅
  rw [Std.ExtTreeMap.size_empty, Nat.zero_add] at hfill
  exact Nat.le_trans hfill (List.length_take_le ..)

/-- **One step** keeps the bound, whatever the limits are. -/
theorem Tracked.size_perform_le (h : Tracked m) (s : Step)
    (hsize : m.nodes.size ≤ nodeBound m.limits) :
    (m.perform s).1.nodes.size ≤ nodeBound m.limits := by
  cases hs : s.operation.isUpkeep with
  | false => exact h.size_moves_le (moves_perform m s hs) s.operation.length_named_le hsize
  | true =>
    obtain ⟨op, now⟩ := s
    cases op with
    | sweep =>
      have hstale := size_removeNodes_le (m.staleNodes now) m
      exact Nat.le_trans (size_removeNodes_le ..) (Nat.le_trans hstale hsize)
    | restore state => exact Nat.le_trans (size_restore_le m state) (Nat.le_max_left ..)
    | _ => cases hs

theorem Tracked.size_after_le {steps : List Step} : ∀ {m : Mesh}, Tracked m →
    m.nodes.size ≤ nodeBound m.limits → (m.after steps).nodes.size ≤ nodeBound m.limits := by
  induction steps with
  | nil => intro m _ hsize; exact hsize
  | cons s steps ih =>
    intro m h hsize
    have hfirst := h.size_perform_le s hsize
    rw [← limits_perform m s] at hfirst ⊢
    exact ih (h.perform s) hfirst

/-! ## Whom a packet leaves behind -/

/-- Sender, relay and gateway of a packet that is applied are known afterwards, as far as
they can be nodes. -/
structure Presents (p : Packet) (m : Mesh) : Prop where
  sender : m.nodes.contains p.sender = true
  relay : ∀ id, Relay.fullId? p.relay = some id → id.isAddressable = true →
    m.nodes.contains id = true
  gateway : ∀ id, p.gateway = some id → id.isAddressable = true → m.nodes.contains id = true

theorem Tracked.presents_perform (h : Tracked m) {p : Packet} {now : Moment}
    (hnew : m.isRepeated p now = false) (hp : p.hasUsableSender = true) :
    Presents p (m.perform ⟨.packet p, now⟩).1 := by
  have hheard : ∀ id, id = p.sender ∨ p.relayNode? = some id ∨ p.gatewayNode? = some id →
      (m.perform ⟨.packet p, now⟩).1.nodes.contains id = true := by
    intro id hid
    refine ((h.hears (moves_perform m ⟨.packet p, now⟩ rfl)).nodes id).2 (Or.inr ?_)
    rw [heard_packet hnew hp]
    exact mem_heardOf.2 hid
  refine ⟨hheard _ (Or.inl rfl), fun id hr ha => ?_, fun id hg ha => ?_⟩
  · by_cases hs : id = p.sender
    · exact hheard id (Or.inl hs)
    · exact hheard id (Or.inr (Or.inl (Option.filter_eq_some_iff.2 ⟨hr, by simp [hs, ha]⟩)))
  · by_cases hs : id = p.sender
    · exact hheard id (Or.inl hs)
    · exact hheard id (Or.inr (Or.inr (Option.filter_eq_some_iff.2 ⟨hg, by simp [hs, ha]⟩)))

/-- **The cap holds.** Whatever was done to a new mesh, by whatever clock, it has no more
nodes than fit, or three if fewer fit. And a packet that is applied to it leaves its sender,
its relay and its gateway there, as far as these can be nodes. -/
theorem cap_holds (limits : Limits) (primary : String) (orders : HashOrders) (steps : List Step) :
    let m := (new limits primary orders).after steps
    m.nodes.size ≤ max limits.maxNodes 3 ∧
    (3 ≤ limits.maxNodes → m.nodes.size ≤ limits.maxNodes) ∧
    ∀ (p : Packet) (now : Moment), m.isRepeated p now = false → p.hasUsableSender = true →
      Presents p (m.perform ⟨.packet p, now⟩).1 := by
  intro m
  have hsize : m.nodes.size ≤ max limits.maxNodes 3 :=
    (tracked_new limits primary orders).size_after_le (Nat.zero_le _)
  refine ⟨hsize, fun h3 => ?_, fun p now hnew hp => ?_⟩
  · rwa [Nat.max_eq_left h3] at hsize
  · exact (tracked_after limits primary orders steps).presents_perform hnew hp

/-- In a mesh for three nodes that were all heard at the same time, the three of a packet
take their places. -/
theorem packet_takes_all_places :
    let limits : Limits := { maxNodes := 3 }
    let steps : List Step :=
      [⟨.update ⟨0x1001⟩ {}, .ofSecs 10⟩, ⟨.update ⟨0x1002⟩ {}, .ofSecs 10⟩,
        ⟨.update ⟨0x1003⟩ {}, .ofSecs 10⟩]
    let m := (new limits "" {}).after steps
    let p : Packet :=
      { packetId := 7, sender := ⟨0x1004⟩, recipient := .broadcast, gateway := some ⟨0x1005⟩
        channelName := "", channelIndex := 0, hopLimit := 3, hopStart := 3, rxSnr := none
        rxRssi := none, rxTime := none, relay := some (.full ⟨0x1006⟩), wantAck := false
        encrypted := false, payload := .sealed }
    let s : Step := ⟨.packet p, .ofSecs 10⟩
    3 ≤ limits.maxNodes ∧ ((new limits "" {}).after (steps ++ [s])).nodes.size ≤ limits.maxNodes ∧
    m.isRepeated p s.now = false ∧ p.hasUsableSender = true ∧ Presents p (m.perform s).1 ∧
    removed (m.perform s).2 = [⟨0x1001⟩, ⟨0x1002⟩, ⟨0x1003⟩] := by
  intro limits steps m p s
  have hnew : m.isRepeated p s.now = false := by decide
  have hcap := (cap_holds limits "" {} (steps ++ [s])).2.1 (Nat.le_refl 3)
  have hnamed := (cap_holds limits "" {} steps).2.2 p s.now hnew rfl
  exact ⟨Nat.le_refl 3, hcap, hnew, rfl, hnamed, by decide⟩

end Mesh

end MeshWatch
