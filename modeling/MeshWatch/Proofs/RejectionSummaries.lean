import Mathlib.Data.List.DropRight
import Mathlib.Data.List.Induction
import MeshWatch.Rejections

/-!
# Floods over a whole run

The window keeps a queue of times, drops what is too old from its front, and starts over
with each report. Against that stands the plain list of all rejections since the last
report. As long as the clock does not run backwards, a report is due exactly when more of
them than the threshold are no older than the window.

- `dropWhile_eq_young`: on times in order, expiry from the front is expiry by age.
- `Follows`: what a window holds, in terms of that list. Every rejection keeps it
  (`Follows.record`), and so does every run (`follows_run`).
- `reports_mul_add_pending_le`: a report uses up the rejections that it counts.
- `reports_follow_window`: the answers of a run.
-/

namespace MeshWatch.RejectionWindow

/-- Nothing was rejected yet. -/
def empty (window : Span) (threshold : Nat) : RejectionWindow :=
  { window := window, threshold := threshold }

/-- The window after several rejections. -/
def run (w : RejectionWindow) (ts : List Tick) : RejectionWindow :=
  ts.foldl (fun w t => (w.record t).2) w

/-- Several rejections, each with its answer. -/
def answers (w : RejectionWindow) : List Tick → List (Tick × Option Nat)
  | [] => []
  | t :: ts => (t, (w.record t).1) :: (w.record t).2.answers ts

/-- The rejections since the last report: the longest end of a run without one. -/
def unreported (w : RejectionWindow) (ts : List Tick) : List Tick :=
  ((w.answers ts).rtakeWhile fun a => a.2.isNone).map Prod.fst

/-- How many reports a run led to. -/
def reports (w : RejectionWindow) (ts : List Tick) : Nat :=
  (w.answers ts).countP fun a => a.2.isSome

/-- The rejections that are no older than the window is long. -/
def young (window : Span) (now : Tick) (ts : List Tick) : List Tick :=
  ts.filter fun t => now - t ≤ window.nanos

/-! ## One more rejection -/

theorem run_concat (w : RejectionWindow) (ts : List Tick) (t : Tick) :
    w.run (ts ++ [t]) = ((w.run ts).record t).2 := by
  rw [run, List.foldl_append]
  rfl

theorem answers_concat (ts : List Tick) (t : Tick) : ∀ w : RejectionWindow,
    w.answers (ts ++ [t]) = w.answers ts ++ [(t, ((w.run ts).record t).1)] := by
  induction ts with
  | nil => intro w; rfl
  | cons a ts ih =>
      intro w
      rw [List.cons_append, answers, ih, answers, List.cons_append]
      rfl

theorem unreported_concat (w : RejectionWindow) (ts : List Tick) (t : Tick) :
    w.unreported (ts ++ [t]) =
      if ((w.run ts).record t).1.isSome then [] else w.unreported ts ++ [t] := by
  rw [unreported, answers_concat]
  split
  · next h =>
    rw [List.rtakeWhile_concat_neg _ _ _ (by simpa [Option.isSome_iff_ne_none] using h)]
    rfl
  · next h =>
    rw [List.rtakeWhile_concat_pos _ _ _ (by simpa using h), List.map_append]
    rfl

theorem reports_concat (w : RejectionWindow) (ts : List Tick) (t : Tick) :
    w.reports (ts ++ [t]) =
      w.reports ts + if ((w.run ts).record t).1.isSome then 1 else 0 := by
  rw [reports, answers_concat, List.countP_append, List.countP_singleton]
  rfl

theorem settings_record (w : RejectionWindow) (t : Tick) :
    (w.record t).2.window = w.window ∧ (w.record t).2.threshold = w.threshold := by
  unfold record
  dsimp only
  split
  · exact ⟨rfl, rfl⟩
  · exact ⟨rfl, rfl⟩

theorem settings_run (w : RejectionWindow) (ts : List Tick) :
    (w.run ts).window = w.window ∧ (w.run ts).threshold = w.threshold := by
  induction ts using List.reverseRecOn with
  | nil => exact ⟨rfl, rfl⟩
  | append_singleton ts t ih =>
      rw [run_concat]
      obtain ⟨hwindow, hthreshold⟩ := (w.run ts).settings_record t
      exact ⟨hwindow.trans ih.1, hthreshold.trans ih.2⟩

/-! ## Expiry -/

theorem young_append (window : Span) (now : Tick) (ts us : List Tick) :
    young window now (ts ++ us) = young window now ts ++ young window now us :=
  List.filter_append ..

/-- What has just happened is young. -/
theorem young_self (window : Span) (now : Tick) : young window now [now] = [now] := by
  simp [young]

/-- What is too old stays too old. -/
theorem young_young (window : Span) {last now : Tick} (h : last ≤ now) (ts : List Tick) :
    young window now (young window last ts) = young window now ts := by
  rw [young, young, List.filter_filter]
  refine List.filter_congr fun t _ => ?_
  rw [Bool.eq_iff_iff, Bool.and_eq_true, decide_eq_true_iff, decide_eq_true_iff]
  exact and_iff_left_of_imp fun hyoung => Int.le_trans (Int.sub_le_sub_right h t) hyoung

/-- On times in order, none of them in the future, expiry from the front is expiry by age. -/
theorem dropWhile_eq_young (window : Span) {now : Tick} {ts : List Tick}
    (hord : ts.Pairwise (· ≤ ·)) (hpast : ∀ t ∈ ts, t ≤ now) :
    (ts.dropWhile fun t => window.nanos < (now - t).toNat) = young window now ts := by
  induction ts with
  | nil => rfl
  | cons t ts ih =>
      obtain ⟨hfirst, hord⟩ := List.pairwise_cons.1 hord
      have ht := hpast t (List.mem_cons_self ..)
      have hrest := ih hord fun u hu => hpast u (List.mem_cons_of_mem _ hu)
      have hage : window.nanos < (now - t).toNat ↔ ¬ now - t ≤ window.nanos :=
        Int.lt_toNat.trans Int.not_le.symm
      by_cases hold : window.nanos < (now - t).toNat
      · rw [List.dropWhile_cons_of_pos (by simpa using hold), hrest, young, young,
          List.filter_cons_of_neg (by simpa using hage.1 hold)]
      -- the first that is young has only younger ones behind it
      · rw [List.dropWhile_cons_of_neg (by simpa using hold)]
        symm
        refine List.filter_eq_self.2 fun u hu => decide_eq_true ?_
        have hyoung : now - t ≤ window.nanos := not_not.1 (mt hage.2 hold)
        have htu : t ≤ u := by
          rcases List.mem_cons.1 hu with rfl | hu
          · exact Int.le_refl _
          · exact hfirst u hu
        exact Int.le_trans (Int.sub_le_sub_left htu now) hyoung

/-! ## The window against the list -/

/-- The window, last asked at `now`, holds the young ones of the rejections since the last
report, and they are not too many. -/
structure Follows (w : RejectionWindow) (log : List Tick) (now : Tick) : Prop where
  ticks : w.ticks = young w.window now log
  fewer : w.pending ≤ w.threshold
  inOrder : log.Pairwise (· ≤ ·)
  past : ∀ t ∈ log, t ≤ now

theorem follows_empty (window : Span) (threshold : Nat) (now : Tick) :
    Follows (empty window threshold) [] now :=
  ⟨rfl, Nat.zero_le _, List.Pairwise.nil, fun _ ht => absurd ht List.not_mem_nil⟩

namespace Follows

variable {w : RejectionWindow} {log : List Tick} {last now : Tick}

/-- A rejection is answered by the number of young ones since the last report, itself among
them. -/
theorem record_eq (h : Follows w log last) (hnow : last ≤ now) :
    w.record now =
      if w.threshold < (young w.window now (log ++ [now])).length then
        (some (w.threshold + 1), { w with ticks := [] })
      else (none, { w with ticks := young w.window now (log ++ [now]) }) := by
  have hsub : w.ticks.Sublist log := h.ticks ▸ List.filter_sublist
  have hkept : (w.ticks.dropWhile fun t => w.window.nanos < (now - t).toNat) =
      young w.window now log := by
    rw [dropWhile_eq_young w.window (h.inOrder.sublist hsub)
      fun t ht => Int.le_trans (h.past t (hsub.subset ht)) hnow, h.ticks, young_young _ hnow]
  have hlength : (young w.window now log).length ≤ w.threshold := by
    rw [← hkept]
    exact Nat.le_trans (List.dropWhile_sublist _).length_le h.fewer
  rw [record, hkept, young_append, young_self, List.length_append, List.length_singleton]
  split
  -- one more than the threshold is all that there can be
  · next hmany =>
    have hexact : (young w.window now log).length + 1 = w.threshold + 1 := by omega
    rw [hexact]
  · rfl

/-- **The step.** After a rejection the window follows the list that its answer makes. -/
theorem record (h : Follows w log last) (hnow : last ≤ now) :
    Follows (w.record now).2 (if (w.record now).1.isSome then [] else log ++ [now]) now := by
  rw [h.record_eq hnow]
  split
  · exact ⟨rfl, Nat.zero_le _, List.Pairwise.nil, fun _ ht => absurd ht List.not_mem_nil⟩
  · next hfew =>
    have hpast : ∀ t ∈ log, t ≤ now := fun t ht => Int.le_trans (h.past t ht) hnow
    refine ⟨rfl, Nat.not_lt.1 hfew, ?_, ?_⟩
    · refine List.pairwise_append.2 ⟨h.inOrder, List.pairwise_singleton .., fun t ht u hu => ?_⟩
      rw [List.mem_singleton.1 hu]
      exact hpast t ht
    · intro t ht
      rcases List.mem_append.1 ht with ht | ht
      · exact hpast t ht
      · exact Int.le_of_eq (List.mem_singleton.1 ht)

end Follows

/-- **The run.** Whenever a run ends, the window follows the rejections since the last report. -/
theorem follows_run (window : Span) (threshold : Nat) {ts : List Tick} :
    ∀ {now : Tick}, (ts ++ [now]).Pairwise (· ≤ ·) → ∃ last, last ≤ now ∧
      Follows ((empty window threshold).run ts) ((empty window threshold).unreported ts) last := by
  induction ts using List.reverseRecOn with
  | nil => exact fun {now} _ => ⟨now, Int.le_refl _, follows_empty window threshold now⟩
  | append_singleton ts t ih =>
      intro now hord
      obtain ⟨hord, -, hlater⟩ := List.pairwise_append.1 hord
      obtain ⟨last, hlast, h⟩ := ih hord
      refine ⟨t, hlater t (by simp) now (by simp), ?_⟩
      rw [run_concat, unreported_concat]
      exact h.record hlast

/-! ## How many reports there can be -/

/-- A rejection adds one to what is pending, or uses it up with a report. This needs no order
of the times. -/
theorem record_cases (w : RejectionWindow) (t : Tick) :
    ((w.record t).1 = none ∧ (w.record t).2.pending ≤ w.pending + 1) ∨
      ((w.record t).1.isSome = true ∧ (w.record t).2.pending = 0 ∧
        w.threshold + 1 ≤ w.pending + 1) := by
  have hkept := (List.dropWhile_sublist (l := w.ticks)
    fun u => decide (w.window.nanos < (t - u).toNat)).length_le
  unfold RejectionWindow.record pending
  dsimp only
  split
  · next hmany =>
    rw [List.length_append, List.length_singleton] at hmany
    exact Or.inr ⟨rfl, rfl, by omega⟩
  · refine Or.inl ⟨rfl, ?_⟩
    rw [List.length_append, List.length_singleton]
    omega

theorem reports_mul_add_pending_le (window : Span) (threshold : Nat) (ts : List Tick) :
    (empty window threshold).reports ts * (threshold + 1) +
      ((empty window threshold).run ts).pending ≤ ts.length := by
  induction ts using List.reverseRecOn with
  | nil => exact Nat.le_of_eq (by simp [reports, answers, run, pending, empty])
  | append_singleton ts t ih =>
      have hthreshold := ((empty window threshold).settings_run ts).2
      rw [reports_concat, run_concat, List.length_append, List.length_singleton]
      rcases ((empty window threshold).run ts).record_cases t with
        ⟨hnone, hle⟩ | ⟨hsome, hzero, hle⟩
      · rw [hnone]
        simp only [Option.isSome_none, Bool.false_eq_true, if_false, Nat.add_zero]
        omega
      · rw [if_pos hsome, hzero, Nat.add_mul]
        rw [hthreshold] at hle
        change threshold + 1 ≤ _ at hle
        omega

theorem pending_run_le (window : Span) (threshold : Nat) (ts : List Tick) :
    ((empty window threshold).run ts).pending ≤ threshold := by
  induction ts using List.reverseRecOn with
  | nil => exact Nat.zero_le _
  | append_singleton ts t _ =>
      rw [run_concat]
      have h := pending_record_le ((empty window threshold).run ts) t
      rwa [((empty window threshold).settings_run ts).2] at h

/-- **Reports follow the window.** While the clock does not run backwards, a rejection leads to
a report exactly when more rejections than the threshold happened since the last report, itself
among them, and are no older than the window; the report then counts one more than the
threshold, and nothing stays pending. Otherwise that number is what is pending. So no more than
the threshold ever is, and a run leads to no more reports than the threshold and one go into
its rejections. -/
theorem reports_follow_window (window : Span) (threshold : Nat) (past : List Tick) (now : Tick)
    (hord : (past ++ [now]).Pairwise (· ≤ ·)) :
    let start := empty window threshold
    let w := start.run past
    let count := (young window now (start.unreported past ++ [now])).length
    (w.record now).1 = (if threshold < count then some (threshold + 1) else none) ∧
    (w.record now).2.pending = (if threshold < count then 0 else count) ∧
    (∀ ts, (start.run ts).pending ≤ threshold) ∧
    ∀ ts, start.reports ts ≤ ts.length / (threshold + 1) := by
  intro start w count
  obtain ⟨hwindow, hthreshold⟩ : w.window = window ∧ w.threshold = threshold :=
    start.settings_run past
  obtain ⟨last, hlast, h⟩ : ∃ last, last ≤ now ∧ Follows w (start.unreported past) last :=
    follows_run window threshold hord
  have hrecord := h.record_eq hlast
  rw [hwindow, hthreshold] at hrecord
  refine ⟨?_, ?_, pending_run_le window threshold, fun ts => ?_⟩
  · rw [hrecord]
    split
    · rfl
    · rfl
  · rw [hrecord]
    split
    · rfl
    · rfl
  · rw [Nat.le_div_iff_mul_le (Nat.succ_pos _)]
    exact Nat.le_trans (Nat.le_add_right _ _) (reports_mul_add_pending_le window threshold ts)

/-- Two rejections were left over after a report, the older of them just as old as the window
is long; with the next one they make another report. -/
theorem report_at_edge_of_window :
    let secs (n : Int) : Tick := n * 1000000000
    let past := [secs 0, secs 1, secs 2, secs 10, secs 40]
    let w := (empty (.ofSecs 60) 2).run past
    (past ++ [secs 70]).Pairwise (· ≤ ·) ∧
    (empty (.ofSecs 60) 2).unreported past = [secs 10, secs 40] ∧
    (w.record (secs 70)).1 = some 3 ∧ (w.record (secs 70)).2.pending = 0 := by
  intro secs past w
  have hord : (past ++ [secs 70]).Pairwise (· ≤ ·) := by decide
  have hcount : 2 < (young (.ofSecs 60) (secs 70)
      ((empty (.ofSecs 60) 2).unreported past ++ [secs 70])).length := by decide
  obtain ⟨hanswer, hpending, -⟩ := reports_follow_window (.ofSecs 60) 2 past (secs 70) hord
  exact ⟨hord, by decide, hanswer.trans (if_pos hcount), hpending.trans (if_pos hcount)⟩

end MeshWatch.RejectionWindow
