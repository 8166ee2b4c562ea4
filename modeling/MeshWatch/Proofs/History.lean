import MeshWatch.Mesh.View
import MeshWatch.Proofs.EventStream

/-!
# The message history

A mesh keeps the last messages only. Beside it stands here the whole chronicle, in which no
message is ever dropped: a restoration starts it anew with the messages put back, and
everything that is said afterwards goes to its end. The history is cut in two places, when a
message is added and when others are put in its place, and it is cut again when it is read.
None of these cuts shows: what is kept is always the end of the chronicle.

- `Recent.IsTail`: the last elements of a list.
- `chronicle`: what would be there if nothing were dropped.
- `messages_perform`, `messages_after`: one step, and a whole run.
- `history_is_tail`: every mesh that can be reached, and what is read from it.
-/

namespace MeshWatch

/-- The last elements of a list, as many as there are up to a number. -/
def Recent.IsTail {α : Type} (n : Nat) (kept all : List α) : Prop :=
  kept <:+ all ∧ kept.length = min n all.length

theorem Recent.isTail_newest {α : Type} (n : Nat) (xs : List α) :
    IsTail n (newest n xs) xs := by
  refine ⟨List.drop_suffix _ _, ?_⟩
  rw [newest, List.length_drop]
  omega

namespace Mesh

/-- The chronicle after one more step: the messages that are put back by a restoration, and
otherwise what was there and what the step says. -/
def chronicled (m : Mesh) (past : List Message) (s : Step) : List Message :=
  match s.operation with
  | .restore state => state.messages
  | _ => past ++ m.spoken s

/-- The messages of the last restoration, or those that were there at the start, and all that
were said since. -/
def chronicle (m : Mesh) (past : List Message) : List Step → List Message
  | [] => past
  | s :: steps => chronicle (m.perform s).1 (m.chronicled past s) steps

theorem chronicled_of_said (m : Mesh) (past : List Message) {s : Step}
    (hs : s.operation.isRestoration = false) : m.chronicled past s = past ++ m.spoken s := by
  obtain ⟨op, now⟩ := s
  cases op with
  | restore state => cases hs
  | _ => rfl

/-- **One step.** A history that is the end of the chronicle is so after the step. -/
theorem messages_perform {m : Mesh} {past : List Message}
    (h : m.messages = Recent.newest m.limits.messageHistory past) (s : Step) :
    (m.perform s).1.messages
      = Recent.newest m.limits.messageHistory (m.chronicled past s) := by
  cases hs : s.operation.isRestoration with
  | false => rw [(speaks_perform m s hs).messages, h, recorded_newest, m.chronicled_of_said past hs]
  | true =>
    obtain ⟨op, now⟩ := s
    cases op with
    | restore state => exact messages_restore m state
    | _ => cases hs

theorem messages_after {steps : List Step} : ∀ {m : Mesh} {past : List Message},
    m.messages = Recent.newest m.limits.messageHistory past →
      (m.after steps).messages
        = Recent.newest m.limits.messageHistory (m.chronicle past steps) := by
  induction steps with
  | nil => intro m past h; exact h
  | cons s steps ih =>
    intro m past h
    have hlim : (m.perform s).1.limits = m.limits := limits_perform m s
    have hfirst := messages_perform h s
    rw [← hlim] at hfirst ⊢
    exact ih hfirst

/-- **The history is the end of all that was said.** Whatever was done to a new mesh, its
messages are the last ones of the chronicle, as many as the limits let it keep, and in the
same order. Of these again, whoever asks for a number of messages, or for a view with so
many, gets exactly the last ones. -/
theorem history_is_tail (limits : Limits) (primary : String) (orders : HashOrders)
    (steps : List Step) :
    let start := new limits primary orders
    let m := start.after steps
    Recent.IsTail limits.messageHistory m.messages (start.chronicle [] steps) ∧
    ∀ k, Recent.IsTail k (m.recentMessages k) m.messages ∧
      ∀ now, Recent.IsTail k (m.view k now).recentMessages m.messages := by
  intro start m
  have hstart : start.messages = Recent.newest limits.messageHistory [] :=
    (Recent.newest_of_le (Nat.zero_le _)).symm
  have hhistory : m.messages = Recent.newest limits.messageHistory (start.chronicle [] steps) :=
    messages_after hstart
  refine ⟨?_, fun k => ⟨Recent.isTail_newest k _, fun now => Recent.isTail_newest k _⟩⟩
  rw [hhistory]
  exact Recent.isTail_newest ..

/-- Three messages are put back where two fit, two more are said, and then one message is
asked for, and three. -/
example :
    let said (text : String) : Message :=
      { id := text, packetId := 0, sender := ⟨0x1001⟩, recipient := none, channel := 0
        channelName := "", text := text, timestamp := .ofSecs 10, snr := none, rssi := none
        hopsAway := none, incoming := false }
    let step (op : Operation) : Step := ⟨op, .ofSecs 10⟩
    let m := (new { messageHistory := 2 } "" {}).after
      [step (.message (said "a")), step (.restore { messages := ["b", "c", "d"].map said }),
        step (.message (said "e")), step (.message (said "f"))]
    m.messages.map Message.text = ["e", "f"] ∧
    (m.recentMessages 1).map Message.text = ["f"] ∧ (m.recentMessages 3).length = 2 := by
  decide

end Mesh

end MeshWatch
