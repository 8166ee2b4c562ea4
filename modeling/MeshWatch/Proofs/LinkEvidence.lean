import MeshWatch.Proofs.Carried
import MeshWatch.Proofs.Links

/-!
# What links rest on

Every link that a mesh shows rests on a packet: one that was not seen before, and that reports
the link or was heard directly. A step that brings no such packet may remove nodes with their
links, and adds none; so over a whole run each link leads back to the step that showed it.

- `Shows`: a step brings a packet that shows a link.
- `links_perform`: the links after a step were there or are shown by it.
- `links_rest_on_packets`: over any traffic each link was shown by a packet.
-/

namespace MeshWatch

namespace Monitor

open Mesh (EveryNode LinksIn linksIn_apply linksIn_updateNode everyNode_linksIn_iff)

/-- A packet that was not seen before is the operation of the step that brings it. -/
theorem fresh?_eq_some_iff {m : Monitor} {s : Step} {p : Packet} :
    m.fresh? (.step s) = some p ↔
      s.operation? m.receiver = some ⟨.packet p, s.now⟩ ∧ m.mesh.isRepeated p s.now = false := by
  rw [fresh?, Option.filter_eq_some_iff, Bool.not_eq_true']
  refine and_congr_left fun _ => ?_
  obtain ⟨input, now⟩ := s
  cases input with
  | sweep => simp [Call.carried, Step.operation?, Input.operation?]
  | message topic body tick =>
    simp only [Call.carried, Step.operation?, Input.operation?]
    cases (m.receiver.packetOf topic body).toOption with
    | some q => simp
    | none => simp

/-- The step brings a packet that was not seen before and that shows a link. -/
def Shows (m : Monitor) (s : Step) (hearer heard : NodeId) : Prop :=
  ∃ p, m.fresh? (.step s) = some p ∧ p.Shows (m.perform s).1.mesh hearer heard

/-- **One step.** The links that there are after it were there before it, or are shown by it. -/
theorem links_perform (m : Monitor) (s : Step) :
    (∀ a b, b ∈ (m.perform s).1.mesh.neighborsOf a →
      b ∈ m.mesh.neighborsOf a ∨ m.Shows s a b) ∧
    ∀ a b, a ∈ (m.perform s).1.mesh.hearersOf b → a ∈ m.mesh.hearersOf b ∨ m.Shows s a b := by
  have hbefore : EveryNode (LinksIn (fun a b => b ∈ m.mesh.neighborsOf a ∨ m.Shows s a b)
      fun a b => a ∈ m.mesh.hearersOf b ∨ m.Shows s a b) m.mesh :=
    everyNode_linksIn_iff.2 ⟨fun _ _ hb => Or.inl hb, fun _ _ ha => Or.inl ha⟩
  refine everyNode_linksIn_iff.1 ?_
  have hdoes := m.does_perform s
  cases hop : s.operation? m.receiver with
  | none =>
    rw [hop] at hdoes
    rw [hdoes.1]
    exact hbefore
  | some op =>
    rw [hop] at hdoes
    rw [hdoes.1]
    rcases operation?_cases hop with ⟨p, rfl⟩ | ⟨id, rfl⟩ | rfl
    · refine linksIn_apply hbefore fun hnew a b hshown => ?_
      have hstep : m.Shows s a b :=
        ⟨p, fresh?_eq_some_iff.2 ⟨hop, hnew⟩, by rw [hdoes.1]; exact hshown⟩
      exact ⟨Or.inr hstep, Or.inr hstep⟩
    · exact linksIn_updateNode hbefore id {} s.now
    · exact hbefore.sweep s.now

/-- **Links rest on packets.** After any traffic on a new mesh a node has another one among its
neighbors, or among those that hear it, only if an earlier packet of the run, which had not
been seen before, shows that link. And whatever comes next adds a link only if it is such a
packet itself. -/
theorem links_rest_on_packets {limits : Limits} {primary : String} {orders : HashOrders}
    {start : Monitor} (hstart : start.mesh = Mesh.new limits primary orders) (steps : List Step) :
    (∀ a b, b ∈ (start.after steps).mesh.neighborsOf a → ∃ before s later,
      steps = before ++ s :: later ∧ (start.after before).Shows s a b) ∧
    (∀ a b, a ∈ (start.after steps).mesh.hearersOf b → ∃ before s later,
      steps = before ++ s :: later ∧ (start.after before).Shows s a b) ∧
    ∀ s a b, ¬ (start.after steps).Shows s a b →
      (b ∈ (start.after (steps ++ [s])).mesh.neighborsOf a →
        b ∈ (start.after steps).mesh.neighborsOf a) ∧
      (a ∈ (start.after (steps ++ [s])).mesh.hearersOf b →
        a ∈ (start.after steps).mesh.hearersOf b) := by
  -- a link came with a step, and that step shows it
  have hneighbors : ∀ a b, b ∈ (start.after steps).mesh.neighborsOf a → ∃ before s later,
      steps = before ++ s :: later ∧ (start.after before).Shows s a b := by
    intro a b hb
    have hnone : ¬ b ∈ start.mesh.neighborsOf a := by simp [hstart, Mesh.neighborsOf, Mesh.new]
    obtain ⟨before, s, later, he, hbefore, hs⟩ :=
      exists_step_of_after (P := fun m => b ∈ m.mesh.neighborsOf a) hnone hb
    exact ⟨before, s, later, he, ((links_perform _ s).1 a b hs).resolve_left hbefore⟩
  have hhearers : ∀ a b, a ∈ (start.after steps).mesh.hearersOf b → ∃ before s later,
      steps = before ++ s :: later ∧ (start.after before).Shows s a b := by
    intro a b ha
    have hnone : ¬ a ∈ start.mesh.hearersOf b := by simp [hstart, Mesh.hearersOf, Mesh.new]
    obtain ⟨before, s, later, he, hbefore, hs⟩ :=
      exists_step_of_after (P := fun m => a ∈ m.mesh.hearersOf b) hnone ha
    exact ⟨before, s, later, he, ((links_perform _ s).2 a b hs).resolve_left hbefore⟩
  refine ⟨hneighbors, hhearers, fun s a b hno => ?_⟩
  rw [after_append]
  exact ⟨fun hb => ((links_perform _ s).1 a b hb).resolve_right hno,
    fun ha => ((links_perform _ s).2 a b ha).resolve_right hno⟩

/-- A gateway hears a node itself, and that node reports another one. A packet that came over
several hops and a relay makes no link. -/
theorem links_of_three_packets :
    let start : Monitor := ⟨Mesh.new {} "" {}, {}, {}, .standard⟩
    let message (text : String) (now : Int) : Step :=
      ⟨.message "msh/2/json/LongFast/!bbbbbbbb" (Bytes.ofText text) 0, .ofSecs now⟩
    let direct := "\x7b\"from\":2863311530,\"id\":7,\"hop_start\":3,\"hop_limit\":3\x7d"
    let relayed :=
      "\x7b\"from\":4097,\"id\":8,\"hop_start\":3,\"hop_limit\":1,\"relay_node\":4098\x7d"
    let report := "\x7b\"from\":2863311530,\"id\":9,\"type\":\"neighborinfo\"," ++
      "\"payload\":\x7b\"neighbors\":[\x7b\"node_id\":4098,\"snr\":1\x7d]\x7d\x7d"
    let steps : List Step := [message direct 10, message relayed 20, message report 30]
    let m := (start.after steps).mesh
    let ids : List NodeId := [⟨0xaaaaaaaa⟩, ⟨0xbbbbbbbb⟩, ⟨0x1001⟩, ⟨0x1002⟩]
    ids.map (fun id => (m.neighborsOf id, m.hearersOf id)) =
      [([⟨0x1002⟩], [⟨0xbbbbbbbb⟩]), ([⟨0xaaaaaaaa⟩], []), ([], []), ([], [⟨0xaaaaaaaa⟩])] ∧
    ∃ before s later, steps = before ++ s :: later ∧
      (start.after before).Shows s ⟨0xaaaaaaaa⟩ ⟨0x1002⟩ := by
  intro start message direct relayed report steps m ids
  have hlinks : ids.map (fun id => (m.neighborsOf id, m.hearersOf id)) =
      [([⟨0x1002⟩], [⟨0xbbbbbbbb⟩]), ([⟨0xaaaaaaaa⟩], []), ([], []), ([], [⟨0xaaaaaaaa⟩])] := by
    decide +kernel
  have hstart : start.mesh = Mesh.new {} "" {} := rfl
  have hshown := (links_rest_on_packets hstart steps).1 ⟨0xaaaaaaaa⟩ ⟨0x1002⟩
  refine ⟨hlinks, hshown ?_⟩
  have hneighbors : m.neighborsOf ⟨0xaaaaaaaa⟩ = [⟨0x1002⟩] :=
    (Prod.mk.inj (List.cons.inj hlinks).1).1
  rw [hneighbors]
  exact List.mem_singleton_self _

end Monitor

end MeshWatch
