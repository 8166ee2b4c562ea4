import Mathlib.Algebra.Ring.Nat
import MeshWatch.Backoff

/-!
# Delays over a whole run

The delays keep the next one and the time at which a connection was made. Against that
stands the history of all calls, the latest first: the next delay is the first one, doubled
once for each delay that was asked for since they last started over, and never longer than
the cap.

- `openSince`, `startsOver`, `attempts`: what a history says, without looking at any delay.
- `connectedAt_after`: the connection that is kept is the one that is open.
- `current_after`: the closed form.
- `delays_double_up_to_cap`: the same for what is asked for, with its consequences.
-/

namespace MeshWatch

/-- 64 bits can tell its whole seconds. -/
def Span.Fits (s : Span) : Prop := s.secs < UInt64.size

/-- The longest span that settings ask for: 2^63 − 1 seconds. -/
def Span.longestSetting : Span := .ofSecs 0x7fffffffffffffff

namespace Backoff

/-- What the delays are told, or asked for. -/
inductive Call where
  | next
  | connected (at' : Tick)
  | disconnected (at' : Tick)
  | reset
deriving DecidableEq, Repr

/-- The delays after a call. -/
def perform (b : Backoff) : Call → Backoff
  | .next => b.nextDelay.2
  | .connected at' => b.onConnected at'
  | .disconnected at' => b.onDisconnected at'
  | .reset => b.reset

/-- The delays after a history. -/
def after (b : Backoff) : List Call → Backoff
  | [] => b
  | call :: earlier => (b.after earlier).perform call

/-! ## What a history says -/

/-- When the latest connection was made, unless it is lost or forgotten. -/
def openSince : List Call → Option Tick
  | .connected at' :: _ => some at'
  | .next :: earlier => openSince earlier
  | _ => none

/-- A call that starts the delays over: a reset, or the loss of a connection that was
stable. -/
def startsOver (stable : Tick → Tick → Bool) (earlier : List Call) : Call → Bool
  | .reset => true
  | .disconnected at' => (openSince earlier).any fun since => stable since at'
  | _ => false

/-- How many delays were asked for since they last started over. -/
def attempts (stable : Tick → Tick → Bool) : List Call → Nat
  | [] => 0
  | call :: earlier =>
    if startsOver stable earlier call then 0
    else attempts stable earlier + if call = .next then 1 else 0

/-- No call of the later ones starts the delays over. -/
def GoesOn (stable : Tick → Tick → Bool) (history : List Call) : List Call → Prop
  | [] => True
  | call :: later =>
    startsOver stable (later ++ history) call = false ∧ GoesOn stable history later

/-- A connection lasted for a span: it was made at least so long before it was lost. If the span
is none, every connection did, even one that was lost at an earlier time than it was made at. -/
def lasted (span : Span) (since at' : Tick) : Bool :=
  since + span.nanos ≤ at' || span.nanos = 0

theorem lasted_eq (span : Span) (since at' : Tick) :
    lasted span since at' = decide (span.nanos ≤ (at' - since).toNat) := by
  rw [lasted, Bool.eq_iff_iff, Bool.or_eq_true]
  dsimp only [Tick] at *
  simp only [decide_eq_true_eq]
  omega

section History

variable (stable : Tick → Tick → Bool) (earlier : List Call)

theorem attempts_next :
    attempts stable (.next :: earlier) = attempts stable earlier + 1 := by
  simp [attempts, startsOver]

theorem attempts_connected (at' : Tick) :
    attempts stable (.connected at' :: earlier) = attempts stable earlier := by
  simp [attempts, startsOver]

theorem attempts_reset : attempts stable (.reset :: earlier) = 0 := by
  simp [attempts, startsOver]

theorem attempts_disconnected (at' : Tick) :
    attempts stable (.disconnected at' :: earlier) =
      if (openSince earlier).any fun since => stable since at' then 0
      else attempts stable earlier := by
  simp [attempts, startsOver]

end History

theorem attempts_append {stable : Tick → Tick → Bool} {history : List Call} :
    ∀ {later : List Call}, GoesOn stable history later →
      attempts stable (later ++ history) = attempts stable history + later.count .next
  | [], _ => by simp
  | call :: later, ⟨hgoes, hlater⟩ => by
      rw [List.cons_append, attempts, hgoes, attempts_append hlater, List.count_cons]
      simp only [Bool.false_eq_true, if_false, beq_iff_eq]
      omega

/-! ## The delays against the history -/

variable (b : Backoff) (floor cap resetAfter : Span)

/-- A call leaves the bounds alone. -/
theorem bounds_perform (call : Call) :
    (b.perform call).floor = b.floor ∧ (b.perform call).cap = b.cap ∧
      (b.perform call).resetAfter = b.resetAfter := by
  cases call with
  | next => exact ⟨rfl, rfl, rfl⟩
  | connected at' => exact ⟨rfl, rfl, rfl⟩
  | reset => exact ⟨rfl, rfl, rfl⟩
  | disconnected at' =>
      simp only [perform, onDisconnected]
      split
      · split
        · exact ⟨rfl, rfl, rfl⟩
        · exact ⟨rfl, rfl, rfl⟩
      · exact ⟨rfl, rfl, rfl⟩

theorem bounds_after (history : List Call) :
    (b.after history).floor = b.floor ∧ (b.after history).cap = b.cap ∧
      (b.after history).resetAfter = b.resetAfter := by
  induction history with
  | nil => exact ⟨rfl, rfl, rfl⟩
  | cons call earlier ih =>
      obtain ⟨hfloor, hcap, hreset⟩ := (b.after earlier).bounds_perform call
      exact ⟨hfloor.trans ih.1, hcap.trans ih.2.1, hreset.trans ih.2.2⟩

/-- **The open connection.** What is kept of connections is the one that is open. -/
theorem connectedAt_after (history : List Call) :
    ((new floor cap resetAfter).after history).connectedAt = openSince history := by
  induction history with
  | nil => rfl
  | cons call earlier ih =>
      cases call with
      | next => exact ih
      | connected at' => rfl
      | reset => rfl
      | disconnected at' =>
          simp only [after, perform, onDisconnected, openSince]
          split
          · split
            · rfl
            · rfl
          · next hnone => exact hnone

/-- A lost connection changes the delay only if it starts the delays over. -/
theorem current_onDisconnected (at' : Tick) :
    (b.onDisconnected at').current =
      if b.connectedAt.any fun since => lasted b.resetAfter since at' then b.floor
      else b.current := by
  unfold onDisconnected
  cases b.connectedAt with
  | none => rfl
  | some since =>
      simp only [Option.any_some, lasted_eq, decide_eq_true_eq]
      split
      · rfl
      · rfl

theorem min_double (first longest k : Nat) :
    min (min (first * 2 ^ k) longest * 2) longest = min (first * 2 ^ (k + 1)) longest := by
  rw [Nat.pow_succ, ← Nat.mul_assoc]
  omega

/-- **The closed form.** The current delay is the first one, doubled for each attempt and cut
at the cap. -/
theorem current_after (history : List Call) :
    ((new floor cap resetAfter).after history).current.nanos =
      min ((new floor cap resetAfter).floor.nanos * 2 ^ attempts (lasted resetAfter) history)
        (new floor cap resetAfter).cap.nanos := by
  have hover : (new floor cap resetAfter).floor.nanos =
      min ((new floor cap resetAfter).floor.nanos * 2 ^ 0)
        (new floor cap resetAfter).cap.nanos := by
    rw [Nat.pow_zero, Nat.mul_one]
    exact (Nat.min_eq_left (Nat.le_max_right ..)).symm
  induction history with
  | nil => exact hover
  | cons call earlier ih =>
      obtain ⟨hfloor, hcap, hreset⟩ := (new floor cap resetAfter).bounds_after earlier
      cases call with
      | next =>
          change min (_ * 2) _ = _
          rw [ih, hcap, min_double, attempts_next]
      | connected at' =>
          rw [attempts_connected]
          exact ih
      | reset =>
          change (((new floor cap resetAfter).after earlier).floor).nanos = _
          rw [hfloor, attempts_reset]
          exact hover
      | disconnected at' =>
          change (((new floor cap resetAfter).after earlier).onDisconnected at').current.nanos = _
          rw [current_onDisconnected, connectedAt_after, hreset, hfloor, attempts_disconnected,
            show (new floor cap resetAfter).resetAfter = resetAfter from rfl]
          split
          · exact hover
          · exact ih

/-- **Delays double up to the cap.** With a first delay and a cap that settings can ask for, and
after any calls, the next delay is the first one, doubled for each delay that was asked for
since they last started over, and cut at the cap. They start over with a reset, and with the
loss of a connection that lasted long enough. So a delay is never shorter than the first one or
longer than the cap, none is shorter than one before it unless they started over in between,
and twice the delay can always be told. -/
theorem delays_double_up_to_cap (floor cap resetAfter : Span)
    (hfloor : floor.nanos ≤ Span.longestSetting.nanos)
    (hcap : cap.nanos ≤ Span.longestSetting.nanos) (history : List Call) :
    let first := max floor.nanos 1000000
    let longest := max cap.nanos first
    let delays (h : List Call) := (new floor cap resetAfter).after h
    (delays history).nextDelay.1.nanos =
      min (first * 2 ^ attempts (lasted resetAfter) history) longest ∧
    first ≤ (delays history).nextDelay.1.nanos ∧
    (delays history).nextDelay.1.nanos ≤ longest ∧
    (∀ later, GoesOn (lasted resetAfter) history later →
      (delays history).nextDelay.1.nanos ≤ (delays (later ++ history)).nextDelay.1.nanos) ∧
    (delays history).doubled.Fits := by
  intro first longest delays
  have hclosed : ∀ h, (delays h).nextDelay.1.nanos =
      min (first * 2 ^ attempts (lasted resetAfter) h) longest :=
    current_after floor cap resetAfter
  have hdoubled : ∀ k, first ≤ first * 2 ^ k := fun k =>
    Nat.le_mul_of_pos_right first (Nat.two_pow_pos k)
  have hordered : first ≤ longest := Nat.le_max_right ..
  have hle : (delays history).nextDelay.1.nanos ≤ longest := by
    rw [hclosed]
    exact Nat.min_le_right ..
  refine ⟨hclosed history, ?_, hle, fun later hlater => ?_, ?_⟩
  · rw [hclosed]
    exact Nat.le_min.2 ⟨hdoubled _, hordered⟩
  · rw [hclosed, hclosed, attempts_append hlater, Nat.pow_add, ← Nat.mul_assoc]
    have hmore : first * 2 ^ attempts (lasted resetAfter) history ≤
        first * 2 ^ attempts (lasted resetAfter) history * 2 ^ later.count .next :=
      Nat.le_mul_of_pos_right _ (Nat.two_pow_pos _)
    omega
  · have hbound : longest ≤ Span.longestSetting.nanos :=
      Nat.max_le.2 ⟨hcap, Nat.max_le.2 ⟨hfloor, by decide⟩⟩
    have hlimit : Span.longestSetting.nanos = 0x7fffffffffffffff * 1000000000 := rfl
    change (delays history).current.nanos ≤ longest at hle
    change (delays history).current.nanos * 2 / 1000000000 < 0x10000000000000000
    omega

/-- The longest delays that settings can ask for, after more attempts than would overflow, a
short connection and a lost one that was no longer open. -/
theorem delays_of_longest_setting :
    let history : List Call :=
      [.next, .disconnected 7, .next, .disconnected 6, .connected 1, .next, .next]
    let b := (new (.ofSecs 0x7ffffffffffffffe) .longestSetting (.ofSecs 60)).after history
    (Span.ofSecs 0x7ffffffffffffffe).nanos ≤ Span.longestSetting.nanos ∧
    Span.longestSetting.nanos ≤ Span.longestSetting.nanos ∧
    attempts (lasted (.ofSecs 60)) history = 4 ∧
    b.nextDelay.1 = .longestSetting ∧ b.doubled.Fits := by
  intro history b
  have hfloor : (Span.ofSecs 0x7ffffffffffffffe).nanos ≤ Span.longestSetting.nanos := by decide
  have hattempts : attempts (lasted (.ofSecs 60)) history = 4 := by decide
  obtain ⟨hdelay, -, -, -, hfits⟩ := delays_double_up_to_cap (.ofSecs 0x7ffffffffffffffe)
    .longestSetting (.ofSecs 60) hfloor (Nat.le_refl _) history
  rw [hattempts] at hdelay
  exact ⟨hfloor, Nat.le_refl _, hattempts, congrArg Span.mk hdelay, hfits⟩

/-- Where connections need not last, even one that is lost at an earlier time than it was made
at starts the delays over. Were it only for those that were made no later than they are lost,
the third delay would be four times the first. -/
theorem early_loss_starts_over :
    let since : Tick := 10000000000
    let lost : Tick := 5000000000
    let history : List Call := [.disconnected lost, .connected since, .next, .next]
    let made (since at' : Tick) : Bool := since + (Span.ofSecs 0).nanos ≤ at'
    let b := (new (.ofSecs 1) (.ofSecs 10) (.ofSecs 0)).after history
    attempts made history = 2 ∧ b.nextDelay.1 = .ofSecs 1 ∧
    b.nextDelay.1.nanos ≠ min (max (Span.ofSecs 1).nanos 1000000 * 2 ^ attempts made history)
      (max (Span.ofSecs 10).nanos (max (Span.ofSecs 1).nanos 1000000)) := by
  decide

end Backoff

end MeshWatch
