import MeshWatch.Proofs.Hearings
import MeshWatch.Proofs.Tallies

/-!
# Truncated ids

A number of one byte is no full address: it is what newer firmware transmits of the address of
a relay. The relay and the gateway of a packet are checked for that before they become nodes.
The sender of a packet and a gateway that tells that it is online are not, so a truncated id
becomes a node if it speaks for itself, and in no other way.

- `speaker?`: who speaks in a step.
- `mem_heard_cases`, `mem_heard_of_speaker`: whoever is heard speaks or has a full address.
- `stored_ids`: the ids that any traffic stores, and when all of them are full addresses.
-/

namespace MeshWatch

theorem NodeId.isAddressable_iff {id : NodeId} :
    id.isAddressable = true ↔ id.IsNode ∧ id.isPartial = false := by
  rw [isNode_iff, isAddressable, Bool.and_eq_true, ← Bool.not_or, Bool.not_eq_true',
    Bool.not_eq_true']

theorem NodeId.isNode_of_isPartial {id : NodeId} (h : id.isPartial = true) : id.IsNode := by
  simp only [isPartial, Bool.and_eq_true, bne_iff_ne, ne_eq, decide_eq_true_eq] at h
  refine ⟨?_, ?_⟩
  · rintro rfl
    exact h.1 rfl
  · rintro rfl
    exact absurd h.2 (by decide)

namespace Mesh

variable {m : Mesh} {x : NodeId}

/-- **One operation.** A node is stored afterwards if it was heard, or if it was stored and did
not give way. -/
theorem contains_perform_iff {s : Step} (hs : s.operation.isRestoration = false) :
    (m.perform s).1.nodes.contains x = true ↔
      x ∈ m.heard s ∨ (m.nodes.contains x = true ∧ x ∉ removed (m.perform s).2) := by
  have hstored : ∀ m : Mesh, m.nodes.contains x = true ↔ (m.shown Node.bounds x).isSome = true :=
    fun m => by rw [shown, Option.isSome_map, Std.ExtTreeMap.contains_eq_isSome_getElem?]
  rw [hstored, hstored, (timed_perform m s hs).shown]
  by_cases hx : x ∈ m.heard s
  · simp [hx]
  · by_cases hgone : x ∈ removed (m.perform s).2
    · simp [hx, hgone]
    · simp [hx, hgone]

end Mesh

namespace Monitor

variable {m : Monitor} {s : Step} {x : NodeId}

/-! ## Whom a step hears -/

/-- The nodes that a step hears: those of the packet that it brings, or the gateway that it
tells to be online. -/
def heard (m : Monitor) (s : Step) : List NodeId :=
  (s.operation? m.receiver).elim [] m.mesh.heard

theorem contains_perform (h : (m.perform s).1.mesh.nodes.contains x = true) :
    m.mesh.nodes.contains x = true ∨ x ∈ m.heard s := by
  have hdoes := m.does_perform s
  unfold heard
  cases hop : s.operation? m.receiver with
  | none =>
    rw [hop] at hdoes
    rw [hdoes.1] at h
    exact Or.inl h
  | some op =>
    rw [hop] at hdoes
    rw [hdoes.1] at h
    rcases (Mesh.contains_perform_iff (operation_ne_restoration hop)).1 h with hx | hx
    · exact Or.inr hx
    · exact Or.inl hx.1

theorem contains_of_mem_heard (h : x ∈ m.heard s) :
    (m.perform s).1.mesh.nodes.contains x = true := by
  have hdoes := m.does_perform s
  unfold heard at h
  cases hop : s.operation? m.receiver with
  | none =>
    rw [hop] at h
    cases h
  | some op =>
    rw [hop] at h hdoes
    rw [hdoes.1]
    exact (Mesh.contains_perform_iff (operation_ne_restoration hop)).2 (Or.inl h)

theorem isNode_of_mem_heard (h : x ∈ m.heard s) : x.IsNode := by
  unfold heard at h
  cases hop : s.operation? m.receiver with
  | none =>
    rw [hop] at h
    cases h
  | some op =>
    rw [hop] at h
    exact Mesh.isNode_of_mem_heard h

/-! ## Who speaks in a step -/

/-- The node that speaks in a step: the sender of a packet that was not seen before, or a
gateway that tells that it is online. -/
def speaker? (m : Monitor) (s : Step) : Option NodeId :=
  match s.operation? m.receiver with
  | some ⟨.packet p, now⟩ => if m.mesh.isRepeated p now then none else some p.sender
  | some ⟨.update id _, _⟩ => some id
  | _ => none

/-- Whoever is heard without speaking was looked at closely. -/
theorem mem_heard_cases (h : x ∈ m.heard s) :
    m.speaker? s = some x ∨ x.isAddressable = true := by
  unfold heard at h
  unfold speaker?
  cases hop : s.operation? m.receiver with
  | none =>
    rw [hop] at h
    cases h
  | some step =>
    rw [hop] at h
    obtain ⟨op, now⟩ := step
    cases op with
    | packet p =>
      simp only [Option.elim, Mesh.heard] at h
      split at h
      · cases h
      · next hp =>
        simp only [Bool.or_eq_true, not_or, Bool.not_eq_true] at hp
        rcases Mesh.mem_heardOf.1 h with rfl | hr | hg
        · simp [hp.1]
        · exact Or.inr (Mesh.relayNode?_spec hr).2
        · exact Or.inr (Mesh.gatewayNode?_spec hg).2
    | update id u =>
      simp only [Option.elim, Mesh.heard] at h
      split at h
      · cases h
      · exact Or.inl (congrArg some (List.mem_singleton.1 h).symm)
    | _ => cases h

/-- Whoever speaks is heard, if it can be a node. -/
theorem mem_heard_of_speaker (h : m.speaker? s = some x) (hx : x.IsNode) : x ∈ m.heard s := by
  unfold speaker? at h
  unfold heard
  cases hop : s.operation? m.receiver with
  | none =>
    rw [hop] at h
    cases h
  | some step =>
    rw [hop] at h
    obtain ⟨op, now⟩ := step
    cases op with
    | packet p =>
      dsimp only at h
      split at h
      · cases h
      · next hnew =>
        obtain rfl := Option.some.inj h
        rw [Option.elim, Mesh.heard_packet (Bool.not_eq_true _ ▸ hnew) (p.hasUsableSender_iff.2 hx)]
        exact List.mem_cons_self ..
    | update id u =>
      obtain rfl := Option.some.inj h
      simp only [Option.elim, Mesh.heard, (NodeId.isNode_iff _).1 hx]
      exact List.mem_cons_self ..
    | _ => cases h

/-- **Stored ids.** After any traffic on a new mesh each stored id is one that can be a node,
and a truncated one is that of a node that spoke itself. So throughout a run all stored ids are
full addresses exactly if no id that speaks during the run is truncated. -/
theorem stored_ids {limits : Limits} {primary : String} {orders : HashOrders} {start : Monitor}
    (hstart : start.mesh = Mesh.new limits primary orders) (steps : List Step) :
    (∀ id, (start.after steps).mesh.nodes.contains id = true →
      id.IsNode ∧ (id.isPartial = true → ∃ before s later, steps = before ++ s :: later ∧
        (start.after before).speaker? s = some id)) ∧
    ((∀ before later, steps = before ++ later → ∀ id,
        (start.after before).mesh.nodes.contains id = true → id.isAddressable = true) ↔
      ∀ before s later, steps = before ++ s :: later → ∀ id,
        (start.after before).speaker? s = some id → id.isPartial = false) := by
  -- a stored id came with the step that first heard it
  have hcame : ∀ steps id, (start.after steps).mesh.nodes.contains id = true →
      ∃ before s later, steps = before ++ s :: later ∧ id ∈ (start.after before).heard s := by
    intro steps id hid
    have hnew : ¬ start.mesh.nodes.contains id = true := by simp [hstart, Mesh.new]
    obtain ⟨before, s, later, rfl, hbefore, hs⟩ :=
      exists_step_of_after (P := fun m => m.mesh.nodes.contains id = true) hnew hid
    exact ⟨before, s, later, rfl, (contains_perform hs).resolve_left hbefore⟩
  have hspoke : ∀ steps id, (start.after steps).mesh.nodes.contains id = true →
      id.IsNode ∧ (id.isPartial = true → ∃ before s later, steps = before ++ s :: later ∧
        (start.after before).speaker? s = some id) := by
    intro steps id hid
    obtain ⟨before, s, later, he, hheard⟩ := hcame steps id hid
    refine ⟨isNode_of_mem_heard hheard, fun hpartial => ⟨before, s, later, he, ?_⟩⟩
    refine (mem_heard_cases hheard).resolve_right fun hfull => ?_
    rw [(NodeId.isAddressable_iff.1 hfull).2] at hpartial
    cases hpartial
  refine ⟨hspoke steps, fun hall before s later he id hid => ?_, fun hall before later he id hid => ?_⟩
  · -- a truncated id that speaks is stored by the same step
    by_contra hne
    have hpartial : id.isPartial = true := Bool.not_eq_false _ ▸ hne
    have hheard := mem_heard_of_speaker hid (NodeId.isNode_of_isPartial hpartial)
    have hstored : (start.after (before ++ [s])).mesh.nodes.contains id = true := by
      rw [after_append]
      exact contains_of_mem_heard hheard
    have hfull := hall (before ++ [s]) later (by simp [he]) id hstored
    exact hne (NodeId.isAddressable_iff.1 hfull).2
  · obtain ⟨hnode, hpartial⟩ := hspoke before id hid
    refine NodeId.isAddressable_iff.2 ⟨hnode, Bool.eq_false_iff.2 fun hp => ?_⟩
    obtain ⟨first, s, rest, rfl, hs⟩ := hpartial hp
    rw [hall first s (rest ++ later) (by simp [he]) id hs] at hp
    cases hp

/-- A node with a full address is heard through another one. -/
theorem stored_ids_of_greeting :
    let start : Monitor := ⟨Mesh.new {} "" {}, {}, {}, .standard⟩
    let s : Step := ⟨.message "msh/2/json/LongFast/!bbbbbbbb"
      (Bytes.ofText "\x7b\"from\":2863311530,\"id\":7\x7d") 0, .ofSecs 10⟩
    start.speaker? s = some ⟨0xaaaaaaaa⟩ ∧
    (start.after [s]).mesh.nodes.size = 2 ∧
    ∀ id, (start.after [s]).mesh.nodes.contains id = true → id.isAddressable = true := by
  intro start s
  have hspeaker : start.speaker? s = some ⟨0xaaaaaaaa⟩ := by decide +kernel
  have hfull : ∀ before s' later, [s] = before ++ s' :: later → ∀ id,
      (start.after before).speaker? s' = some id → id.isPartial = false := by
    intro before s' later he id hid
    cases before with
    | nil =>
      obtain ⟨rfl, -⟩ := List.cons.inj he
      rw [after_nil, hspeaker] at hid
      obtain rfl := Option.some.inj hid
      decide
    | cons first before =>
      have hlength := congrArg List.length he
      simp at hlength
  have hstart : start.mesh = Mesh.new {} "" {} := rfl
  have hall := (stored_ids hstart [s]).2.2 hfull
  exact ⟨hspeaker, by decide +kernel, hall [s] [] rfl⟩

/-- A truncated id is stored when it tells that it is online and when it sends a packet. -/
theorem truncated_ids_stored :
    let start : Monitor := ⟨Mesh.new {} "" {}, {}, {}, .standard⟩
    let steps : List Step :=
      [⟨.message "msh/2/stat/!00000005" (Bytes.ofText "online") 0, .ofSecs 10⟩,
        ⟨.message "msh/2/json/LongFast/!bbbbbbbb"
          (Bytes.ofText "\x7b\"from\":6,\"id\":7\x7d") 0, .ofSecs 20⟩]
    ∀ id ∈ [(⟨5⟩ : NodeId), ⟨6⟩], (start.after steps).mesh.nodes.contains id = true ∧
      id.isAddressable = false := by
  decide +kernel

end Monitor

end MeshWatch
