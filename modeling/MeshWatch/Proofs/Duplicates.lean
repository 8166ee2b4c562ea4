import Mathlib.Data.List.Induction
import Mathlib.Data.List.Nodup
import MeshWatch.Dedup
import MeshWatch.Recency

/-!
# Duplicates over a whole run

The cache keeps a map and a queue, drops what is too old and makes room when it is
full. Against that stands a plain log of the arrivals that it accepted. As long as
the clock does not run backwards, the cache answers from the end of that log alone:
the last accepted arrivals, as many as fit, that are not older than the window.

- `InStep`: map and queue hold the same keys.
- `Remembers`: what a cache holds, in terms of the log. Every answer keeps it
  (`Remembers.accept`), and so does every run (`Remembers.run`).
- `accepted_congr`: caches that remember the same log accept the same arrivals, even
  if one of them was asked more often.
- `seen_iff_accepted_lately`: the answers of a run, and what follows from them.
-/

namespace MeshWatch

/-- A packet's key and the time at which the packet arrives. -/
abbrev Arrival := PacketKey × Moment

namespace DedupCache

/-- The cache after several arrivals. -/
def run (c : DedupCache) (as : List Arrival) : DedupCache :=
  as.foldl (fun c a => (c.accept a.1 a.2).2) c

/-- The arrivals that were no duplicates, first accepted first. -/
def accepted (c : DedupCache) : List Arrival → List Arrival
  | [] => []
  | a :: as =>
    if (c.accept a.1 a.2).1 then accepted (c.accept a.1 a.2).2 as
    else a :: accepted (c.accept a.1 a.2).2 as

/-- The clock did not run backwards between arrivals. -/
def InOrder (as : List Arrival) : Prop := as.Pairwise fun a b => a.2 ≤ b.2

theorem accepted_append (as bs : List Arrival) : ∀ c : DedupCache,
    c.accepted (as ++ bs) = c.accepted as ++ (c.run as).accepted bs := by
  induction as with
  | nil => intro c; rfl
  | cons a as ih =>
      intro c
      show c.accepted (a :: (as ++ bs)) = _
      simp only [accepted, ih]
      split
      · rfl
      · rfl

/-! ## Map and queue in step -/

/-- The map and the queue hold the same keys, each once and with the same time. -/
structure InStep (seen : SeenKeys) (order : List Arrival) : Prop where
  mem : ∀ k t, seen[k]? = some t ↔ (k, t) ∈ order
  nodup : (order.map Prod.fst).Nodup
  size : seen.size = order.length

theorem inStep_nil : InStep ∅ [] := by
  refine ⟨?_, List.nodup_nil, rfl⟩
  intro k t
  simp

theorem InStep.contains_iff {seen : SeenKeys} {order : List Arrival} (h : InStep seen order)
    (k : PacketKey) : seen.contains k = true ↔ ∃ b ∈ order, b.1 = k := by
  rw [Std.ExtTreeMap.contains_eq_isSome_getElem?, Option.isSome_iff_exists]
  constructor
  · rintro ⟨t, ht⟩
    exact ⟨(k, t), (h.mem k t).1 ht, rfl⟩
  · rintro ⟨⟨_, t⟩, hb, rfl⟩
    exact ⟨t, (h.mem _ t).2 hb⟩

/-- The key in front of the queue is the one that is forgotten. -/
theorem InStep.forget {seen : SeenKeys} {k : PacketKey} {t : Moment} {rest : List Arrival}
    (h : InStep seen ((k, t) :: rest)) : InStep (forget seen k t) rest := by
  have hk : seen[k]? = some t := (h.mem k t).2 (List.mem_cons_self ..)
  have hnd := List.nodup_cons.1 (show (k :: rest.map Prod.fst).Nodup from h.nodup)
  have hmem : seen.contains k = true := by
    rw [Std.ExtTreeMap.contains_eq_isSome_getElem?, hk]
    rfl
  rw [DedupCache.forget, if_pos hk]
  -- the queue holds the key once, so all others keep their times
  refine ⟨?_, hnd.2, ?_⟩
  · intro k' t'
    rw [Std.ExtTreeMap.getElem?_erase]
    by_cases he : k = k'
    · subst he
      have : (k, t') ∉ rest := fun hr => hnd.1 (List.mem_map.2 ⟨_, hr, rfl⟩)
      simp [this]
    · have hc : compare k k' ≠ .eq := fun hc => he (Std.LawfulEqOrd.eq_of_compare hc)
      have hne : (k', t') ≠ (k, t) := fun hp => he (congrArg Prod.fst hp).symm
      rw [if_neg hc, h.mem, List.mem_cons]
      exact or_iff_right hne
  · rw [Std.ExtTreeMap.size_erase, if_pos hmem, h.size, List.length_cons]
    omega

theorem InStep.insert {seen : SeenKeys} {order : List Arrival} (h : InStep seen order)
    {k : PacketKey} (t : Moment) (hk : seen.contains k = false) :
    InStep (seen.insert k t) (order ++ [(k, t)]) := by
  have hnew : ∀ b ∈ order, b.1 ≠ k := by
    intro b hb he
    have := (h.contains_iff k).2 ⟨b, hb, he⟩
    rw [hk] at this
    exact Bool.noConfusion this
  refine ⟨?_, ?_, ?_⟩
  · intro k' t'
    rw [Std.ExtTreeMap.getElem?_insert, List.mem_append, List.mem_singleton]
    by_cases he : k = k'
    · subst he
      have : (k, t') ∉ order := fun hm => hnew _ hm rfl
      simp [this, eq_comm]
    · have hc : compare k k' ≠ .eq := fun hc => he (Std.LawfulEqOrd.eq_of_compare hc)
      have hne : (k', t') ≠ (k, t) := fun hp => he (congrArg Prod.fst hp).symm
      rw [if_neg hc, h.mem]
      exact (or_iff_left hne).symm
  · rw [List.map_append, List.nodup_append]
    refine ⟨h.nodup, List.nodup_singleton _, ?_⟩
    intro a ha b hb
    obtain ⟨c, hc, rfl⟩ := List.mem_map.1 ha
    rw [List.mem_singleton.1 hb]
    exact hnew c hc
  · rw [Std.ExtTreeMap.size_insert, hk, h.size, List.length_append, List.length_singleton]
    rfl

/-! ## Expiry and room -/

/-- Not older than the window. -/
def isYoung (window : Span) (now : Moment) (b : Arrival) : Bool := now.within b.2 window

theorem isYoung_iff {window : Span} {now : Moment} {b : Arrival} :
    isYoung window now b = true ↔ now.nanos - b.2.nanos ≤ window.reach :=
  decide_eq_true_iff

/-- What is still young later was young before. -/
theorem isYoung_of_le {window : Span} {now later : Moment} {b : Arrival} (h : now ≤ later)
    (hb : isYoung window later b = true) : isYoung window now b = true := by
  rw [isYoung_iff] at hb ⊢
  have : now.nanos ≤ later.nanos := h
  omega

theorem isYoung_self (window : Span) (k : PacketKey) (now : Moment) :
    isYoung window now (k, now) = true := by
  rw [isYoung_iff, Int.sub_self]
  exact window.reach_nonneg

/-- If the first of several arrivals in order is young, all of them are. -/
theorem filter_isYoung_cons {window : Span} {now : Moment} {b : Arrival} {rest : List Arrival}
    (h : InOrder (b :: rest)) (hb : isYoung window now b = true) :
    (b :: rest).filter (isYoung window now) = b :: rest := by
  rw [List.filter_eq_self]
  intro a ha
  rcases List.mem_cons.1 ha with rfl | ha
  · exact hb
  · have hle : b.2.nanos ≤ a.2.nanos := (List.pairwise_cons.1 h).1 a ha
    rw [isYoung_iff] at hb ⊢
    omega

/-- **Expiry.** In a queue that is in order, the keys that are too old stand in front,
so dropping from the front keeps exactly the others. -/
theorem dropExpired_spec (window : Span) (now : Moment) (order : List Arrival) :
    ∀ seen : SeenKeys, InOrder order → InStep seen order →
      (dropExpired window now seen order).2 = order.filter (isYoung window now) ∧
      InStep (dropExpired window now seen order).1 (dropExpired window now seen order).2 := by
  induction order with
  | nil => intro seen _ h; exact ⟨rfl, h⟩
  | cons b rest ih =>
      intro seen hord h
      obtain ⟨k, t⟩ := b
      by_cases hy : isYoung window now (k, t) = true
      · have hw : now.within t window = true := hy
        rw [dropExpired, if_pos hw, filter_isYoung_cons hord hy]
        exact ⟨rfl, h⟩
      · have hw : ¬ now.within t window = true := hy
        rw [dropExpired, if_neg hw, List.filter_cons_of_neg hy]
        exact ih _ (List.pairwise_cons.1 hord).2 h.forget

/-- **Room.** The newest keys are left, one fewer than fit. -/
theorem makeRoom_spec {capacity : Nat} (hc : 0 < capacity) (order : List Arrival) :
    ∀ seen : SeenKeys, InStep seen order →
      (makeRoom capacity seen order).2 = Recent.newest (capacity - 1) order ∧
      InStep (makeRoom capacity seen order).1 (makeRoom capacity seen order).2 := by
  induction order with
  | nil => intro seen h; exact ⟨by simp [makeRoom, Recent.newest], h⟩
  | cons b rest ih =>
      intro seen h
      obtain ⟨k, t⟩ := b
      by_cases hfull : capacity ≤ rest.length + 1
      · rw [makeRoom, if_pos hfull]
        have hd : (rest.length + 1) - (capacity - 1) = (rest.length - (capacity - 1)) + 1 := by
          omega
        rw [Recent.newest, List.length_cons, hd, List.drop_succ_cons]
        exact ih _ h.forget
      · rw [makeRoom, if_neg hfull]
        refine ⟨(Recent.newest_of_le ?_).symm, h⟩
        rw [List.length_cons]
        omega

/-! ## What a cache remembers -/

/-- The accepted arrivals that an arrival is compared with: of the last ones, as many
as fit, those that are not older than the window. -/
def lately (capacity : Nat) (window : Span) (now : Moment) (log : List Arrival) : List Arrival :=
  (Recent.newest capacity log).filter (isYoung window now)

/-- **The log behind a cache.** A cache that was last asked at `now` holds what was
accepted lately. -/
structure Remembers (c : DedupCache) (log : List Arrival) (now : Moment) : Prop where
  order : c.order = lately c.capacity c.window now log
  inStep : InStep c.seen c.order
  inOrder : InOrder log
  past : ∀ b ∈ log, b.2 ≤ now
  pos : 0 < c.capacity

theorem remembers_empty (window : Span) (maxEntries : Nat) (now : Moment) :
    Remembers (empty window maxEntries) [] now := by
  refine ⟨?_, inStep_nil, List.Pairwise.nil, ?_, ?_⟩
  · simp [empty, lately, Recent.newest]
  · intro b hb
    exact absurd hb List.not_mem_nil
  · show 0 < max maxEntries 1
    omega

theorem mem_lately {capacity : Nat} {window : Span} {now : Moment} {log : List Arrival}
    {b : Arrival} : b ∈ lately capacity window now log ↔
      b ∈ Recent.newest capacity log ∧ isYoung window now b = true :=
  List.mem_filter

/-- Time only takes away from what was accepted lately. -/
theorem filter_lately {capacity : Nat} {window : Span} {now later : Moment} {log : List Arrival}
    (h : now ≤ later) :
    (lately capacity window now log).filter (isYoung window later) =
      lately capacity window later log := by
  rw [lately, lately, List.filter_filter]
  apply List.filter_congr
  intro b _
  cases hy : isYoung window later b with
  | false => rfl
  | true => rw [isYoung_of_le h hy]; rfl

/-- Making room and expiry commute in a log that is in order: either the oldest of
the last arrivals has expired, and there is room, or none of them has. -/
theorem newest_lately {capacity : Nat} {window : Span} {now : Moment} {log : List Arrival}
    (hord : InOrder log) :
    Recent.newest (capacity - 1) (lately capacity window now log) =
      lately (capacity - 1) window now log := by
  have hn := Recent.newest_newest (Nat.sub_le capacity 1) log
  have hlen := Recent.length_newest_le capacity log
  have hsub : InOrder (Recent.newest capacity log) := hord.sublist (List.drop_sublist _ _)
  rw [lately, lately, ← hn]
  generalize Recent.newest capacity log = xs at hlen hsub
  -- only a full log has an element to drop, and that is its first
  rcases Nat.lt_or_ge xs.length capacity with hlt | hge
  · have hx : xs.length ≤ capacity - 1 := by omega
    rw [Recent.newest_of_le hx]
    exact Recent.newest_of_le (Nat.le_trans (List.length_filter_le _ _) hx)
  · cases xs with
    | nil => simp [Recent.newest]
    | cons x xs =>
        rw [List.length_cons] at hlen hge
        have hd : Recent.newest (capacity - 1) (x :: xs) = xs := by
          have : (x :: xs).length - (capacity - 1) = 1 := by
            rw [List.length_cons]
            omega
          rw [Recent.newest, this]
          rfl
        by_cases hy : isYoung window now x = true
        · have hall := filter_isYoung_cons hsub hy
          have hxs : x :: xs.filter (isYoung window now) = x :: xs := by
            rw [← List.filter_cons_of_pos hy, hall]
          rw [hall, hd, (List.cons.inj hxs).2]
        · rw [hd, List.filter_cons_of_neg hy]
          refine Recent.newest_of_le (Nat.le_trans (List.length_filter_le _ _) ?_)
          omega

/-! ## One answer -/

theorem lately_snoc {capacity : Nat} {window : Span} {now : Moment} {log : List Arrival}
    (hc : 0 < capacity) (hord : InOrder log) (k : PacketKey) :
    lately capacity window now (log ++ [(k, now)]) =
      Recent.newest (capacity - 1) (lately capacity window now log) ++ [(k, now)] := by
  rw [newest_lately hord, lately, Recent.newest_snoc hc, List.filter_append,
    List.filter_cons_of_pos (isYoung_self window k now)]
  rfl

theorem InOrder.snoc {log : List Arrival} {b : Arrival} (h : InOrder log)
    (hb : ∀ a ∈ log, a.2 ≤ b.2) : InOrder (log ++ [b]) := by
  refine List.pairwise_append.2 ⟨h, List.pairwise_singleton _ _, ?_⟩
  intro a ha c hc
  rw [List.mem_singleton.1 hc]
  exact hb a ha

/-- The two ways in which the cache answers: a key that is still there after expiry
is a duplicate, and any other one is put last once there is room. -/
theorem accept_cases (c : DedupCache) (k : PacketKey) (t : Moment) {seen : SeenKeys}
    {order : List Arrival} (he : dropExpired c.window t c.seen c.order = (seen, order)) :
    (seen.contains k = true ∧
      c.accept k t = (true, { c with seen := seen, order := order })) ∨
    (seen.contains k = false ∧
      c.accept k t = (false, { c with
        seen := (makeRoom c.capacity seen order).1.insert k t
        order := (makeRoom c.capacity seen order).2 ++ [(k, t)] })) := by
  cases hk : seen.contains k with
  | true => exact Or.inl ⟨rfl, by simp [accept, he, hk]⟩
  | false => exact Or.inr ⟨rfl, by simp [accept, he, hk]⟩

/-- After expiry exactly what was accepted lately is left. -/
theorem Remembers.expired {c : DedupCache} {log : List Arrival} {now : Moment}
    (h : Remembers c log now) {t : Moment} (ht : now ≤ t) :
    ∃ seen, dropExpired c.window t c.seen c.order = (seen, lately c.capacity c.window t log) ∧
      InStep seen (lately c.capacity c.window t log) := by
  have hord : InOrder c.order := by
    rw [h.order]
    exact (h.inOrder.sublist (List.drop_sublist _ _)).filter _
  obtain ⟨hq, hs⟩ := dropExpired_spec c.window t c.order c.seen hord h.inStep
  have hl : c.order.filter (isYoung c.window t) = lately c.capacity c.window t log := by
    rw [h.order, filter_lately ht]
  rw [hq, hl] at hs
  exact ⟨_, Prod.ext rfl (hq.trans hl), hs⟩

/-- **The answer.** An arrival is a duplicate if its key was accepted lately. -/
theorem Remembers.seen_iff {c : DedupCache} {log : List Arrival} {now : Moment}
    (h : Remembers c log now) (k : PacketKey) {t : Moment} (ht : now ≤ t) :
    (c.accept k t).1 = true ↔ ∃ b ∈ lately c.capacity c.window t log, b.1 = k := by
  obtain ⟨seen, he, hs⟩ := h.expired ht
  rw [← hs.contains_iff]
  rcases accept_cases c k t he with ⟨hk, e⟩ | ⟨hk, e⟩
  · rw [e, hk]
  · rw [e, hk]

/-- The same, told from the log alone. -/
theorem Remembers.seen_iff_newest {c : DedupCache} {log : List Arrival} {now : Moment}
    (h : Remembers c log now) (k : PacketKey) {t : Moment} (ht : now ≤ t) :
    (c.accept k t).1 = true ↔
      ∃ b ∈ Recent.newest c.capacity log, b.1 = k ∧ t.since b.2 ≤ c.window.reach := by
  rw [h.seen_iff k ht]
  constructor
  · rintro ⟨b, hb, hk⟩
    obtain ⟨hn, hy⟩ := mem_lately.1 hb
    exact ⟨b, hn, hk, isYoung_iff.1 hy⟩
  · rintro ⟨b, hn, hk, hy⟩
    exact ⟨b, mem_lately.2 ⟨hn, isYoung_iff.2 hy⟩, hk⟩

/-- A key that was not known is put into the map. -/
theorem Remembers.stored {c : DedupCache} {log : List Arrival} {now : Moment}
    (h : Remembers c log now) {k : PacketKey} {t : Moment} (ht : now ≤ t)
    (hnew : (c.accept k t).1 = false) : (c.accept k t).2.seen[k]? = some t := by
  obtain ⟨seen, he, -⟩ := h.expired ht
  rcases accept_cases c k t he with ⟨_, e⟩ | ⟨_, e⟩
  · rw [e] at hnew
    cases hnew
  · rw [e]
    exact Std.ExtTreeMap.getElem?_insert_self

theorem Remembers.length_le {c : DedupCache} {log : List Arrival} {now : Moment}
    (h : Remembers c log now) : c.order.length ≤ c.capacity := by
  rw [h.order]
  exact Nat.le_trans (List.length_filter_le _ _) (Recent.length_newest_le _ _)

/-- **The step.** After an answer the cache remembers the log that the answer makes. -/
theorem Remembers.accept {c : DedupCache} {log : List Arrival} {now : Moment}
    (h : Remembers c log now) (k : PacketKey) {t : Moment} (ht : now ≤ t) :
    Remembers (c.accept k t).2 (log ++ c.accepted [(k, t)]) t ∧
      (c.accept k t).2.window = c.window ∧ (c.accept k t).2.capacity = c.capacity := by
  obtain ⟨seen, he, hs⟩ := h.expired ht
  have hpast : ∀ b ∈ log, b.2 ≤ t := fun b hb => Int.le_trans (h.past b hb) ht
  rcases accept_cases c k t he with ⟨_, e⟩ | ⟨hk, e⟩
  · have ea : c.accepted [(k, t)] = [] := by simp [accepted, e]
    rw [ea, e, List.append_nil]
    exact ⟨⟨rfl, hs, h.inOrder, hpast, h.pos⟩, rfl, rfl⟩
  -- a new key goes to the end of the queue and of the log
  · have ea : c.accepted [(k, t)] = [(k, t)] := by simp [accepted, e]
    obtain ⟨hm, hs'⟩ := makeRoom_spec h.pos _ _ hs
    rw [ea, e]
    refine ⟨⟨?_, hs'.insert t ?_, h.inOrder.snoc hpast, ?_, h.pos⟩, rfl, rfl⟩
    · show _ ++ [(k, t)] = lately c.capacity c.window t (log ++ [(k, t)])
      rw [lately_snoc h.pos h.inOrder, hm]
    · rw [Bool.eq_false_iff]
      intro hin
      obtain ⟨b, hb, hbk⟩ := (hs'.contains_iff k).1 hin
      rw [hm] at hb
      have := (hs.contains_iff k).2 ⟨b, List.mem_of_mem_drop hb, hbk⟩
      rw [hk] at this
      exact Bool.noConfusion this
    · intro b hb
      rcases List.mem_append.1 hb with hb | hb
      · exact hpast b hb
      · rw [List.mem_singleton.1 hb]
        exact Int.le_refl _

/-! ## Whole runs -/

theorem accepted_cons (c : DedupCache) (a : Arrival) (as : List Arrival) :
    c.accepted (a :: as) = c.accepted [a] ++ (c.accept a.1 a.2).2.accepted as :=
  accepted_append [a] as c

theorem InOrder.tail_le {a : Arrival} {as : List Arrival} (h : InOrder (a :: as)) :
    ∀ b ∈ as, a.2 ≤ b.2 :=
  (List.pairwise_cons.1 h).1

theorem InOrder.head_le {a : Arrival} {as : List Arrival} (h : InOrder (a :: as)) :
    ∀ b ∈ a :: as, a.2 ≤ b.2 := by
  intro b hb
  rcases List.mem_cons.1 hb with rfl | hb
  · exact Int.le_refl _
  · exact h.tail_le b hb

/-- **The run.** Whenever a run ends, the cache remembers what the run accepted. -/
theorem Remembers.run {as : List Arrival} : ∀ {c : DedupCache} {log : List Arrival} {now : Moment},
    Remembers c log now → InOrder as → (∀ a ∈ as, now ≤ a.2) → ∀ t, now ≤ t →
      (∀ a ∈ as, a.2 ≤ t) → ∃ last, last ≤ t ∧ Remembers (c.run as) (log ++ c.accepted as) last ∧
        (c.run as).window = c.window ∧ (c.run as).capacity = c.capacity := by
  -- the cache may have been asked for the last time before `t`, at `last`
  induction as with
  | nil =>
      intro c log now h _ _ t ht _
      refine ⟨now, ht, ?_, rfl, rfl⟩
      show Remembers c (log ++ []) now
      rw [List.append_nil]
      exact h
  | cons a as ih =>
      intro c log now h hord hfrom t _ hto
      obtain ⟨h', hw, hc⟩ := h.accept a.1 (hfrom a (List.mem_cons_self ..))
      obtain ⟨last, hlast, hr, hw', hc'⟩ := ih h' (List.pairwise_cons.1 hord).2 hord.tail_le t
        (hto a (List.mem_cons_self ..)) fun b hb => hto b (List.mem_cons_of_mem _ hb)
      refine ⟨last, hlast, ?_, hw'.trans hw, hc'.trans hc⟩
      rw [accepted_cons, ← List.append_assoc]
      exact hr

/-- The answers of a run from the start, up to a later time. -/
theorem remembers_run (window : Span) (maxEntries : Nat) {as : List Arrival} (hord : InOrder as)
    {t : Moment} (hto : ∀ a ∈ as, a.2 ≤ t) :
    ∃ last, last ≤ t ∧
      Remembers ((empty window maxEntries).run as) ((empty window maxEntries).accepted as) last ∧
      ((empty window maxEntries).run as).window = window ∧
      ((empty window maxEntries).run as).capacity = max maxEntries 1 := by
  cases as with
  | nil => exact ⟨t, Int.le_refl _, remembers_empty window maxEntries t, rfl, rfl⟩
  | cons a as =>
      exact (remembers_empty window maxEntries a.2).run hord hord.head_le t
        (hto a (List.mem_cons_self ..)) hto

/-- **Only the log counts.** Two caches that remember the same log accept the same
arrivals from then on, whenever each of them was asked last. -/
theorem accepted_congr {as : List Arrival} : ∀ {c c' : DedupCache} {log : List Arrival}
    {now now' : Moment}, Remembers c log now → Remembers c' log now' →
      c.window = c'.window → c.capacity = c'.capacity → InOrder as → (∀ a ∈ as, now ≤ a.2) →
      (∀ a ∈ as, now' ≤ a.2) → c.accepted as = c'.accepted as := by
  induction as with
  | nil => intros; rfl
  | cons a as ih =>
      intro c c' log now now' h h' hw hc hord hfrom hfrom'
      have ha := hfrom a (List.mem_cons_self ..)
      have ha' := hfrom' a (List.mem_cons_self ..)
      have hans : (c.accept a.1 a.2).1 = (c'.accept a.1 a.2).1 := by
        rw [Bool.eq_iff_iff, h.seen_iff a.1 ha, h'.seen_iff a.1 ha', hw, hc]
      have hone : c.accepted [a] = c'.accepted [a] := by simp [accepted, hans]
      obtain ⟨hr, hwr, hcr⟩ := h.accept a.1 ha
      obtain ⟨hr', hwr', hcr'⟩ := h'.accept a.1 ha'
      rw [← hone] at hr'
      rw [accepted_cons c, accepted_cons c', hone]
      refine congrArg _ (ih hr hr' ?_ ?_
        (List.pairwise_cons.1 hord).2 hord.tail_le hord.tail_le)
      · rw [hwr, hwr', hw]
      · rw [hcr, hcr', hc]

/-! ## Two acceptances of one key -/

/-- Between two accepted arrivals of one key more than the window has passed, or the
cache was filled by others. -/
def Spaced (capacity : Nat) (window : Span) (log : List Arrival) : Prop :=
  ∀ pre x mid y post, log = pre ++ x :: mid ++ y :: post → x.1 = y.1 →
    window.reach < y.2.since x.2 ∨ capacity ≤ mid.length

theorem spaced_nil (capacity : Nat) (window : Span) : Spaced capacity window [] := by
  intro pre x mid y post h
  simp at h

theorem Spaced.snoc {capacity : Nat} {window : Span} {log : List Arrival} {a : Arrival}
    (h : Spaced capacity window log) (ha : ∀ b ∈ lately capacity window a.2 log, b.1 ≠ a.1) :
    Spaced capacity window (log ++ [a]) := by
  intro pre x mid y post he hk
  -- either `y` is the new arrival, or both arrivals were in the log before
  rcases List.eq_nil_or_concat post with rfl | ⟨post, z, rfl⟩
  · obtain ⟨rfl, hy⟩ := List.append_inj' he rfl
    obtain rfl : a = y := (List.cons.inj hy).1
    rcases Nat.lt_or_ge mid.length capacity with hlt | hge
    · refine Or.inl (Int.not_le.1 fun hold => ?_)
      exact ha x (mem_lately.2 ⟨Recent.mem_newest_of_lt hlt, isYoung_iff.2 hold⟩) hk
    · exact Or.inr hge
  · have he' : log ++ [a] = (pre ++ x :: mid ++ y :: post) ++ [z] := by simpa using he
    exact h pre x mid y post (List.append_inj' he' rfl).1 hk

theorem Remembers.spaced {as : List Arrival} : ∀ {c : DedupCache} {log : List Arrival}
    {now : Moment}, Remembers c log now → Spaced c.capacity c.window log → InOrder as →
      (∀ a ∈ as, now ≤ a.2) → Spaced c.capacity c.window (log ++ c.accepted as) := by
  induction as with
  | nil =>
      intro c log now _ hs _ _
      show Spaced _ _ (log ++ [])
      rw [List.append_nil]
      exact hs
  | cons a as ih =>
      intro c log now h hs hord hfrom
      have ha := hfrom a (List.mem_cons_self ..)
      obtain ⟨h', hw, hc⟩ := h.accept a.1 ha
      have hone : Spaced c.capacity c.window (log ++ c.accepted [a]) := by
        cases hseen : (c.accept a.1 a.2).1 with
        | true =>
            have e : c.accepted [a] = [] := by simp [accepted, hseen]
            rw [e, List.append_nil]
            exact hs
        | false =>
            have e : c.accepted [a] = [a] := by simp [accepted, hseen]
            rw [e]
            refine hs.snoc fun b hb hk => ?_
            have := (h.seen_iff a.1 ha).2 ⟨b, hb, hk⟩
            rw [hseen] at this
            exact Bool.noConfusion this
      have hrest := ih h' (by rw [hw, hc]; exact hone) (List.pairwise_cons.1 hord).2 hord.tail_le
      rw [hw, hc, List.append_assoc] at hrest
      rw [accepted_cons]
      exact hrest

theorem spaced_accepted (window : Span) {maxEntries : Nat} (hmax : 1 ≤ maxEntries)
    {as : List Arrival} (hord : InOrder as) :
    Spaced maxEntries window ((empty window maxEntries).accepted as) := by
  have hcap : (empty window maxEntries).capacity = maxEntries := by
    show max maxEntries 1 = maxEntries
    omega
  cases as with
  | nil => exact spaced_nil _ _
  | cons a as =>
      have hs := (remembers_empty window maxEntries a.2).spaced (spaced_nil _ _) hord hord.head_le
      rw [hcap] at hs
      exact hs

/-! ## The cache against its log -/

/-- A repeated arrival leaves all later answers as they would have been without it. -/
theorem accept_after_repeat (window : Span) (maxEntries : Nat) {past future : List Arrival}
    {k : PacketKey} {now : Moment} {b : Arrival}
    (hseen : (((empty window maxEntries).run past).accept k now).1 = true)
    (hord : InOrder (past ++ (k, now) :: (future ++ [b]))) :
    (((empty window maxEntries).run (past ++ (k, now) :: future)).accept b.1 b.2).1 =
      (((empty window maxEntries).run (past ++ future)).accept b.1 b.2).1 := by
  have hsub : (past ++ (k, now) :: future ++ [b]).Sublist (past ++ (k, now) :: (future ++ [b])) := by
    simp
  have hwith := List.pairwise_append.1 (hord.sublist hsub)
  have hdrop : (past ++ future ++ [b]).Sublist (past ++ (k, now) :: (future ++ [b])) := by
    simp
  have hwithout := List.pairwise_append.1 (hord.sublist hdrop)
  have hb := List.mem_singleton_self b
  obtain ⟨t, ht, hr, hw, hc⟩ :=
    remembers_run window maxEntries hwith.1 fun a ha => hwith.2.2 a ha b hb
  obtain ⟨t', ht', hr', hw', hc'⟩ :=
    remembers_run window maxEntries hwithout.1 fun a ha => hwithout.2.2 a ha b hb
  -- the repetition is not in the log, and the log decides all that follows
  have hlog : (empty window maxEntries).accepted (past ++ (k, now) :: future) =
      (empty window maxEntries).accepted (past ++ future) := by
    have hpast := List.pairwise_append.1 hord
    obtain ⟨s, hs, hp, hpw, hpc⟩ := remembers_run window maxEntries hpast.1
      fun a ha => hpast.2.2 a ha (k, now) (List.mem_cons_self ..)
    obtain ⟨hq, hqw, hqc⟩ := hp.accept k hs
    have hnone : ((empty window maxEntries).run past).accepted [(k, now)] = [] := by
      simp [accepted, hseen]
    have hfut := (List.pairwise_append.1 (List.pairwise_cons.1 hpast.2.1).2).1
    have hle := InOrder.tail_le hpast.2.1
    rw [hnone, List.append_nil] at hq
    rw [accepted_append, accepted_append, accepted_cons, hnone, List.nil_append]
    refine congrArg _ (accepted_congr hq hp hqw hqc hfut ?_ ?_)
    · exact fun a ha => hle a (List.mem_append_left _ ha)
    · exact fun a ha => Int.le_trans hs (hle a (List.mem_append_left _ ha))
  rw [Bool.eq_iff_iff, hr.seen_iff b.1 ht, hr'.seen_iff b.1 ht', hw, hw', hc, hc', hlog]

/-- **The cache is its log.** While the clock does not run backwards, an arrival is a
duplicate exactly when its key is among the last accepted arrivals, as many as fit,
and was accepted no longer ago than the window reaches; any other arrival is
remembered. So two accepted arrivals of one key lie more than the window apart or
have a full cache of others between them, and a repetition changes no later answer.
The map and the queue always hold the same keys, no more than fit. -/
theorem seen_iff_accepted_lately (window : Span) (maxEntries : Nat) (hmax : 1 ≤ maxEntries)
    (past : List Arrival) (k : PacketKey) (now : Moment) (hord : InOrder (past ++ [(k, now)])) :
    let start := empty window maxEntries
    let c := start.run past
    ((c.accept k now).1 = true ↔ ∃ b ∈ Recent.newest maxEntries (start.accepted past),
      b.1 = k ∧ now.since b.2 ≤ window.reach) ∧
    ((c.accept k now).1 = false → (c.accept k now).2.seen[k]? = some now ∧
      start.accepted (past ++ [(k, now)]) = start.accepted past ++ [(k, now)]) ∧
    Spaced maxEntries window (start.accepted past) ∧
    ((c.accept k now).1 = true → ∀ future b, InOrder (past ++ (k, now) :: (future ++ [b])) →
      ((start.run (past ++ (k, now) :: future)).accept b.1 b.2).1 =
        ((start.run (past ++ future)).accept b.1 b.2).1) ∧
    (∀ k', c.seen.contains k' = true ↔ k' ∈ c.order.map Prod.fst) ∧
    c.seen.size = c.order.length ∧ c.order.length ≤ maxEntries := by
  intro start c
  have hpast := List.pairwise_append.1 hord
  have hcap : max maxEntries 1 = maxEntries := by omega
  obtain ⟨last, hlast, h, hw, hc⟩ := remembers_run window maxEntries hpast.1
    fun a ha => hpast.2.2 a ha (k, now) (List.mem_singleton_self _)
  rw [hcap] at hc
  have hseen := h.seen_iff_newest k hlast
  have hlength := h.length_le
  rw [hw, hc] at hseen
  rw [hc] at hlength
  refine ⟨hseen, fun hnew => ⟨h.stored hlast hnew, ?_⟩, spaced_accepted window hmax hpast.1, ?_, ?_,
    h.inStep.size, hlength⟩
  · have hone : c.accepted [(k, now)] = [(k, now)] := by simp [accepted, hnew]
    rw [accepted_append]
    exact congrArg _ hone
  · exact fun hseen future b hf => accept_after_repeat window maxEntries hseen hf
  · intro k'
    rw [h.inStep.contains_iff, List.mem_map]

/-- A key that comes back exactly a window later, with one other key accepted in
between, is still a duplicate for a cache of two. -/
theorem seen_at_edge_of_window :
    (1 ≤ 2 ∧ InOrder ([(⟨1, ⟨9⟩⟩, .ofSecs 0), (⟨2, ⟨9⟩⟩, .ofSecs 10)] ++
      [(⟨1, ⟨9⟩⟩, .ofSecs 300)])) ∧
    (((empty (.ofSecs 300) 2).run [(⟨1, ⟨9⟩⟩, .ofSecs 0), (⟨2, ⟨9⟩⟩, .ofSecs 10)]).accept
      ⟨1, ⟨9⟩⟩ (.ofSecs 300)).1 = true := by
  have hord : InOrder ([(⟨1, ⟨9⟩⟩, .ofSecs 0), (⟨2, ⟨9⟩⟩, .ofSecs 10)] ++
      [(⟨1, ⟨9⟩⟩, .ofSecs 300)]) := by
    unfold InOrder
    decide
  have h := seen_iff_accepted_lately (.ofSecs 300) 2 (by decide)
    [(⟨1, ⟨9⟩⟩, .ofSecs 0), (⟨2, ⟨9⟩⟩, .ofSecs 10)] ⟨1, ⟨9⟩⟩ (.ofSecs 300) hord
  refine ⟨⟨by decide, hord⟩, h.1.2 ⟨(⟨1, ⟨9⟩⟩, .ofSecs 0), ?_, rfl, by decide⟩⟩
  decide

/-- A window of more than 2^63 − 1 milliseconds does not reach as far as it is long:
the largest one forgets a key after 317 years. -/
theorem longest_window_forgets :
    let start := empty (.ofSecs 18446744073709551615) 2
    let past : List Arrival := [(⟨1, ⟨1⟩⟩, .ofMillis 1704067200000)]
    let now := Moment.ofMillis 11704067200000
    InOrder (past ++ [(⟨1, ⟨1⟩⟩, now)]) ∧
    ¬ (((start.run past).accept ⟨1, ⟨1⟩⟩ now).1 = true ↔
      ∃ b ∈ Recent.newest 2 (start.accepted past),
        b.1 = ⟨1, ⟨1⟩⟩ ∧ now.since b.2 ≤ start.window.nanos) := by
  intro start past now
  refine ⟨by unfold InOrder; decide, fun h => ?_⟩
  have hseen : ((start.run past).accept ⟨1, ⟨1⟩⟩ now).1 = false := by decide
  have hb := h.2 ⟨(⟨1, ⟨1⟩⟩, .ofMillis 1704067200000), by decide, rfl, by decide⟩
  rw [hseen] at hb
  exact Bool.noConfusion hb

end DedupCache

end MeshWatch
