import MeshWatch.Payload.Object
import MeshWatch.Proofs.DiscoveredHops

/-!
# The ratios of a traceroute object

A gateway lists the nodes of a traceroute in one array, and in another the ratios in quarters of
a decibel. The two are read apart from each other: what is no node id is left out of the one and
what is no integer out of the other, and all that stands behind moves up. A hop is then given the
ratio of its place among the ids that were read, which is that of its own entry only if as many
ratios as ids were read before it.

- `getElem?_filterMap`, `take_filterMap`: where an element stands in what is left of a list.
- `hop_of_entry`: the hop of an entry, and the ratio that it is given.
- `givenRatio_of_inStep`, `inStep_of_given_mark`: when that is the ratio of the entry.
- `hop_ratios`: all of that, of every traceroute object.
- `hops_with_ratios_of_others`: objects whose hops are given other ratios.
-/

namespace MeshWatch

open Json (Members field? nested)

namespace Json

/-- Written as a whole number. -/
def isInteger : Json → Bool
  | .int _ => true
  | _ => false

/-- No whole number is one of more than 32 bits. -/
def IsNarrow (j : Json) : Prop := ∀ n, j = .int n → -0x80000000 ≤ n ∧ n < 0x80000000

end Json

namespace RouteDiscovery

/-! ## Places in a list with gaps -/

section Gaps

variable {α β : Type} {f : α → Option β} {xs : List α} {i : Nat} {a : α} {b : β}

theorem eq_take_append_cons (h : xs[i]? = some a) : xs = xs.take i ++ a :: xs.drop (i + 1) := by
  obtain ⟨hi, rfl⟩ := List.getElem?_eq_some_iff.1 h
  rw [← List.drop_eq_getElem_cons hi, List.take_append_drop]

theorem filterMap_eq_append (h : xs[i]? = some a) (hb : f a = some b) :
    xs.filterMap f = (xs.take i).filterMap f ++ b :: (xs.drop (i + 1)).filterMap f := by
  have hsplit := congrArg (List.filterMap f) (eq_take_append_cons h)
  rwa [List.filterMap_append, List.filterMap_cons_some hb] at hsplit

theorem getElem?_append_length (xs : List α) (a : α) (ys : List α) :
    (xs ++ a :: ys)[xs.length]? = some a := by
  rw [List.getElem?_append_right (Nat.le_refl _), Nat.sub_self]
  rfl

/-- An element that is kept stands behind those before it that are kept. -/
theorem getElem?_filterMap (h : xs[i]? = some a) (hb : f a = some b) :
    (xs.filterMap f)[(xs.take i).countP fun x => (f x).isSome]? = some b := by
  rw [filterMap_eq_append h hb, ← List.length_filterMap_eq_countP]
  exact getElem?_append_length ..

theorem take_filterMap (h : xs[i]? = some a) (hb : f a = some b) :
    (xs.filterMap f).take ((xs.take i).countP fun x => (f x).isSome) = (xs.take i).filterMap f := by
  rw [filterMap_eq_append h hb, ← List.length_filterMap_eq_countP]
  exact List.take_left' rfl

end Gaps

/-! ## What an object lists -/

/-- The ratio that an entry is read as. -/
def ratio? (j : Json) : Option Float32 := j.asSigned?.map fun n => quarterDecibels (Int32.ofInt n)

/-- The ratio that is listed at a position; zero if that is no integer. -/
def listedRatio (ratios : List Json) (i : Nat) : Float32 :=
  match ratios[i]? with
  | some (.int n) => Float32.ofInt n / 4
  | _ => 0

/-- The ids that are read before a position. -/
def idsBefore (ids : List Json) (i : Nat) : Nat := (ids.take i).countP fun j => j.nodeId?.isSome

/-- The ratio that is given to the hop of a position. -/
def givenRatio (ids ratios : List Json) (i : Nat) : Float32 :=
  (ratios.filterMap ratio?)[idsBefore ids i]?.getD 0

/-- The place of the hop of a position. -/
def placeOf (ids : List Json) (i : Nat) : Nat :=
  (Route.hopIds ((ids.take i).filterMap Json.nodeId?)).length

/-- An object that is a traceroute, and has these arrays, under any of their names. -/
structure Lists (messageType : Option String) (ms : Members) (ids ratios : List Json) : Prop where
  port : Payload.portOf? messageType ms = some Port.traceroute.number
  ids : field? (nested ms ["traceroute", "route_discovery"]) ["route"] = some (.array ids)
  ratios : field? (nested ms ["traceroute", "route_discovery"]) ["snr_towards", "snrTowards"]
    = some (.array ratios)

/-- In every object that has these arrays, the hop of the position has the ratio that is listed
there. -/
def KeepsRatio (ids ratios : List Json) (i : Nat) : Prop :=
  ∀ messageType ms requestId d destination now, Lists messageType ms ids ratios →
    Payload.ofObject messageType (.object ms) requestId = .ok (.traceroute d) →
      (Route.ofDiscovery destination d now).hops[placeOf ids i]?.map RouteHop.snr
        = some (listedRatio ratios i)

/-- As many ratios as ids are read before a position; or if none is listed there, none is left
that could be taken for it. -/
def InStep (ids ratios : List Json) (i : Nat) : Prop :=
  if ratios[i]?.any Json.isInteger then (ratios.take i).countP Json.isInteger = idsBefore ids i
  else ratios.countP Json.isInteger ≤ idsBefore ids i

variable {messageType : Option String} {ms : Members} {requestId : UInt32}
variable {ids ratios ratios' : List Json} {i : Nat} {entry : Json} {id : NodeId}
variable {destination : NodeId} {now : Moment} {d : RouteDiscovery}

theorem Lists.ofObject (h : Lists messageType ms ids ratios) (requestId : UInt32) :
    Payload.ofObject messageType (.object ms) requestId = .ok (.traceroute
      (RouteDiscovery.ofMembers (nested ms ["traceroute", "route_discovery"]))) := by
  show Payload.ofFields messageType (.object ms) ms requestId = _
  rw [Payload.ofFields, h.port]
  show Payload.ofMembers Port.traceroute.number (.object ms) ms requestId = _
  rw [Payload.ofMembers, Port.ofNumber?_number]

theorem Lists.route_of_ofObject (h : Lists messageType ms ids ratios)
    (hd : Payload.ofObject messageType (.object ms) requestId = .ok (.traceroute d)) :
    d.route = ids.filterMap Json.nodeId? ∧ d.snrTowards = ratios.filterMap ratio? := by
  rw [h.ofObject] at hd
  cases hd
  constructor
  · show (((field? _ ["route"]).bind Json.asArray?).getD []).filterMap Json.nodeId? = _
    rw [h.ids]
    rfl
  · show (((field? _ ["snr_towards", "snrTowards"]).bind Json.asArray?).getD []).filterMap ratio? = _
    rw [h.ratios]
    rfl

/-- **The hop of an entry** stands behind those of the entries before it, and is given the ratio
of its place among the ids that were read. -/
theorem hop_of_entry (hentry : ids[i]? = some entry) (hid : entry.nodeId? = some id)
    (hhop : id.isPlaceholder = false) (h : Lists messageType ms ids ratios)
    (hd : Payload.ofObject messageType (.object ms) requestId = .ok (.traceroute d)) :
    (Route.ofDiscovery destination d now).hops[placeOf ids i]?
      = some ⟨id, givenRatio ids ratios i, now⟩ := by
  obtain ⟨hroute, hratios⟩ := h.route_of_ofObject hd
  have hread : d.route[idsBefore ids i]? = some id := by
    rw [hroute]
    exact getElem?_filterMap hentry hid
  have hplace : (d.route.take (idsBefore ids i)) = (ids.take i).filterMap Json.nodeId? := by
    rw [hroute]
    exact take_filterMap hentry hid
  have hlisted : (Route.discoveredHops destination d now)[
      (Route.hopIds (d.route.take (idsBefore ids i))).length]?
      = some ⟨id, d.snrTowards.getD (idsBefore ids i) 0, now⟩ :=
    Route.getElem?_discoveredHops hread hhop
  rwa [hplace, hratios, List.getD_eq_getElem?_getD] at hlisted

/-- An object with two given arrays. -/
def reply (ids ratios : List Json) : Members :=
  [("route", .array ids), ("snr_towards", .array ratios)]

theorem lists_reply (ids ratios : List Json) :
    Lists (some "traceroute") (reply ids ratios) ids ratios := ⟨rfl, rfl, rfl⟩

theorem keepsRatio_iff_given (hentry : ids[i]? = some entry) (hid : entry.nodeId? = some id)
    (hhop : id.isPlaceholder = false) :
    KeepsRatio ids ratios i ↔ givenRatio ids ratios i = listedRatio ratios i := by
  constructor
  · intro h
    have hlists := lists_reply ids ratios
    have hread := hlists.ofObject 0
    have hkept := h _ _ 0 _ id (.ofSecs 0) hlists hread
    rw [hop_of_entry hentry hid hhop hlists hread] at hkept
    exact Option.some.inj hkept
  · intro h messageType ms requestId d destination now hlists hd
    rw [hop_of_entry hentry hid hhop hlists hd, ← h]
    rfl

/-! ## Entries in step -/

theorem ratio?_int {n : Int} (h : (Json.int n).IsNarrow) :
    ratio? (.int n) = some (Float32.ofInt n / 4) := by
  obtain ⟨hlow, hhigh⟩ := h n rfl
  have hsigned : (Json.int n).asSigned? = some n := if_pos (by omega)
  rw [ratio?, hsigned, Option.map_some, quarterDecibels,
    Int32.toInt_ofInt_of_le (by omega) (by omega)]

theorem ratio?_of_not_integer {j : Json} (h : j.isInteger = false) : ratio? j = none := by
  cases j with
  | int n => cases h
  | _ => rfl

theorem isSome_ratio? {j : Json} (h : j.IsNarrow) : (ratio? j).isSome = j.isInteger := by
  cases hj : j.isInteger with
  | true =>
    cases j with
    | int n => rw [ratio?_int h]; rfl
    | _ => cases hj
  | false => rw [ratio?_of_not_integer hj]; rfl

theorem countP_isSome_ratio? (h : ∀ j ∈ ratios, j.IsNarrow) :
    ratios.countP (fun j => (ratio? j).isSome) = ratios.countP Json.isInteger :=
  List.countP_congr fun j hj => by rw [isSome_ratio? (h j hj)]

theorem exists_integer (h : ratios[i]?.any Json.isInteger = true) :
    ∃ n, ratios[i]? = some (.int n) := by
  cases hj : ratios[i]? with
  | none => rw [hj] at h; cases h
  | some j =>
    rw [hj] at h
    cases j with
    | int n => exact ⟨n, rfl⟩
    | _ => cases h

theorem listedRatio_of_integer {n : Int} (h : ratios[i]? = some (.int n)) :
    listedRatio ratios i = Float32.ofInt n / 4 := by rw [listedRatio, h]

theorem listedRatio_of_not_integer (h : ratios[i]?.any Json.isInteger = false) :
    listedRatio ratios i = 0 := by
  unfold listedRatio
  split
  · next n hn => rw [hn] at h; cases h
  · rfl

/-- An entry in step is given its own ratio. -/
theorem givenRatio_of_inStep (hnarrow : ∀ j ∈ ratios, j.IsNarrow) (h : InStep ids ratios i) :
    givenRatio ids ratios i = listedRatio ratios i := by
  unfold InStep at h
  unfold givenRatio
  cases hlisted : ratios[i]?.any Json.isInteger with
  | true =>
    obtain ⟨n, hn⟩ := exists_integer hlisted
    have hread := ratio?_int (hnarrow _ (List.mem_of_getElem? hn))
    rw [if_pos hlisted, ← countP_isSome_ratio? fun j hj => hnarrow j (List.mem_of_mem_take hj)] at h
    rw [← h, getElem?_filterMap hn hread, listedRatio_of_integer hn]
    rfl
  | false =>
    rw [hlisted, if_neg Bool.false_ne_true, ← countP_isSome_ratio? hnarrow,
      ← List.length_filterMap_eq_countP] at h
    rw [List.getElem?_eq_none h, listedRatio_of_not_integer hlisted]
    rfl

theorem idsBefore_of_readable (hi : i ≤ ids.length)
    (h : ∀ j ∈ ids.take i, j.nodeId?.isSome = true) : idsBefore ids i = i := by
  rw [idsBefore, List.countP_eq_length.2 h, List.length_take]
  omega

/-- Where nothing before an entry is left out, and no ratio at all, it is in step. -/
theorem inStep_of_readable (hi : i ≤ ids.length) (hids : ∀ j ∈ ids.take i, j.nodeId?.isSome = true)
    (hratios : ∀ j ∈ ratios, j.isInteger = true) : InStep ids ratios i := by
  unfold InStep
  rw [idsBefore_of_readable hi hids]
  split
  · next h =>
    obtain ⟨n, hn⟩ := exists_integer h
    have hlt := (List.getElem?_eq_some_iff.1 hn).1
    rw [List.countP_eq_length.2 fun j hj => hratios j (List.mem_of_mem_take hj), List.length_take]
    omega
  · next h =>
    rw [List.countP_eq_length.2 hratios]
    refine List.getElem?_eq_none_iff.1 ?_
    cases hj : ratios[i]? with
    | none => rfl
    | some j =>
      rw [hj] at h
      exact absurd (hratios j (List.mem_of_getElem? hj)) h

/-! ## Entries out of step -/

/-- Integers in the same places. -/
def SameGaps (ratios ratios' : List Json) : Prop :=
  ratios'.map Json.isInteger = ratios.map Json.isInteger

theorem SameGaps.countP_take (h : SameGaps ratios ratios') (i : Nat) :
    (ratios'.take i).countP Json.isInteger = (ratios.take i).countP Json.isInteger := by
  have htake := congrArg (fun gaps => (gaps.take i).countP id) h
  rwa [← List.map_take, ← List.map_take, List.countP_map, List.countP_map] at htake

theorem SameGaps.any_getElem? (h : SameGaps ratios ratios') (i : Nat) :
    ratios'[i]?.any Json.isInteger = ratios[i]?.any Json.isInteger := by
  have hat := congrArg (fun gaps => gaps[i]?.any id) h
  rwa [List.getElem?_map, List.getElem?_map, Option.any_map, Option.any_map] at hat

theorem SameGaps.inStep (h : SameGaps ratios ratios') (hstep : InStep ids ratios i) :
    InStep ids ratios' i := by
  have hcount : ratios'.countP Json.isInteger = ratios.countP Json.isInteger := by
    have hall := congrArg (List.countP id) h
    rwa [List.countP_map, List.countP_map] at hall
  unfold InStep at hstep ⊢
  rwa [h.any_getElem?, h.countP_take, hcount]

/-- Two decibels, where there is a ratio. -/
def leveled (j : Json) : Json := if j.isInteger then .int 8 else j

theorem isInteger_leveled (j : Json) : (leveled j).isInteger = j.isInteger := by
  unfold leveled
  split
  · next h => exact h.symm
  · rfl

theorem isNarrow_leveled (j : Json) : (leveled j).IsNarrow := by
  intro n hn
  unfold leveled at hn
  split at hn
  · cases hn; decide
  · next h => rw [hn] at h; exact absurd rfl h

theorem sameGaps_map_leveled (ratios : List Json) : SameGaps ratios (ratios.map leveled) := by
  rw [SameGaps, List.map_map]
  exact List.map_congr_left fun j _ => isInteger_leveled j

theorem filterMap_map_leveled (ratios : List Json) :
    (ratios.map leveled).filterMap ratio? = List.replicate (ratios.countP Json.isInteger) 2 := by
  induction ratios with
  | nil => rfl
  | cons j ratios ih =>
    rw [List.map_cons, List.countP_cons]
    cases hj : j.isInteger with
    | true =>
      have hread : ratio? (leveled j) = some 2 := by
        rw [leveled, if_pos hj]
        rfl
      rw [List.filterMap_cons_some hread, ih]
      rfl
    | false =>
      have hread : ratio? (leveled j) = none :=
        ratio?_of_not_integer ((isInteger_leveled j).trans hj)
      rw [List.filterMap_cons_none hread, ih]
      rfl

/-- One decibel at a position, and two in all other places. -/
def marked (ratios : List Json) (i : Nat) : List Json :=
  (ratios.take i).map leveled ++ .int 4 :: (ratios.drop (i + 1)).map leveled

theorem isNarrow_of_mem_map_leveled {j : Json} (h : j ∈ ratios.map leveled) : j.IsNarrow := by
  obtain ⟨k, -, rfl⟩ := List.mem_map.1 h
  exact isNarrow_leveled k

theorem isNarrow_of_mem_marked {j : Json} (h : j ∈ marked ratios i) : j.IsNarrow := by
  rcases List.mem_append.1 h with hfront | hrest
  · exact isNarrow_of_mem_map_leveled hfront
  · rcases List.mem_cons.1 hrest with rfl | hback
    · intro n hn
      cases hn
      decide
    · exact isNarrow_of_mem_map_leveled hback

theorem sameGaps_marked {n : Int} (h : ratios[i]? = some (.int n)) :
    SameGaps ratios (marked ratios i) := by
  have hsplit := congrArg (List.map Json.isInteger) (eq_take_append_cons h)
  rw [List.map_append, List.map_cons] at hsplit
  rw [SameGaps, hsplit, marked, List.map_append, List.map_cons, sameGaps_map_leveled,
    sameGaps_map_leveled]
  rfl

theorem filterMap_marked (ratios : List Json) (i : Nat) :
    (marked ratios i).filterMap ratio? = List.replicate ((ratios.take i).countP Json.isInteger) 2
      ++ 1 :: List.replicate ((ratios.drop (i + 1)).countP Json.isInteger) 2 := by
  have hmark : ratio? (.int 4) = some 1 := rfl
  rw [marked, List.filterMap_append, List.filterMap_cons_some hmark, filterMap_map_leveled,
    filterMap_map_leveled]

/-- The mark is given to the entry only if it is in step. -/
theorem inStep_of_given_marked {n : Int} (hn : ratios[i]? = some (.int n))
    (h : givenRatio ids (marked ratios i) i = 1) : InStep ids ratios i := by
  have hlevel : ∀ m k : Nat, ((List.replicate m (2 : Float32))[k]?.getD 0) ≠ 1 := by
    intro m k
    rw [List.getElem?_replicate]
    split <;> decide
  have hany : ratios[i]?.any Json.isInteger = true := by rw [hn]; rfl
  unfold InStep
  rw [if_pos hany]
  rw [givenRatio, filterMap_marked] at h
  obtain ⟨before, hbefore⟩ : ∃ k, (ratios.take i).countP Json.isInteger = k := ⟨_, rfl⟩
  rw [hbefore] at h ⊢
  -- on both sides of the mark all ratios are two decibels, and behind them there are none
  rcases Nat.lt_trichotomy (idsBefore ids i) before with hlt | heq | hgt
  · rw [List.getElem?_append_left (by rwa [List.length_replicate])] at h
    exact absurd h (hlevel _ _)
  · exact heq.symm
  · obtain ⟨k, hk⟩ : ∃ k, idsBefore ids i - before = k + 1 :=
      ⟨idsBefore ids i - before - 1, by omega⟩
    rw [List.getElem?_append_right (by rw [List.length_replicate]; omega), List.length_replicate,
      hk, List.getElem?_cons_succ] at h
    exact absurd h (hlevel _ _)

theorem inStep_of_given_leveled (hlisted : ratios[i]?.any Json.isInteger = false)
    (h : givenRatio ids (ratios.map leveled) i = 0) : InStep ids ratios i := by
  unfold InStep
  rw [hlisted, if_neg Bool.false_ne_true]
  rw [givenRatio, filterMap_map_leveled, List.getElem?_replicate] at h
  split at h
  · exact absurd h (by decide)
  · next hle => exact Nat.le_of_not_lt hle

theorem listedRatio_marked {n : Int} (h : ratios[i]? = some (.int n)) :
    listedRatio (marked ratios i) i = 1 := by
  have hlt := (List.getElem?_eq_some_iff.1 h).1
  have hlen : ((ratios.take i).map leveled).length = i := by
    rw [List.length_map, List.length_take]
    omega
  have hmark : (marked ratios i)[i]? = some (.int 4) := by
    have hat := getElem?_append_length ((ratios.take i).map leveled) (.int 4)
      ((ratios.drop (i + 1)).map leveled)
    rwa [hlen] at hat
  rw [listedRatio_of_integer hmark]
  rfl

/-- **The entries whose hops have their own ratios**, whatever these are, are those in step. -/
theorem keepsRatio_iff_inStep (hentry : ids[i]? = some entry) (hid : entry.nodeId? = some id)
    (hhop : id.isPlaceholder = false) (ratios : List Json) :
    (∀ ratios', SameGaps ratios ratios' → (∀ j ∈ ratios', j.IsNarrow) → KeepsRatio ids ratios' i)
      ↔ InStep ids ratios i := by
  constructor
  · intro h
    cases hlisted : ratios[i]?.any Json.isInteger with
    | true =>
      -- a ratio that stands out tells where it went
      obtain ⟨n, hn⟩ := exists_integer hlisted
      have hkept := h _ (sameGaps_marked hn) fun j hj => isNarrow_of_mem_marked hj
      rw [keepsRatio_iff_given hentry hid hhop, listedRatio_marked hn] at hkept
      exact inStep_of_given_marked hn hkept
    | false =>
      have hgaps := sameGaps_map_leveled ratios
      have hkept := h _ hgaps fun j hj => isNarrow_of_mem_map_leveled hj
      have hunlisted : (ratios.map leveled)[i]?.any Json.isInteger = false :=
        hgaps.any_getElem? i ▸ hlisted
      rw [keepsRatio_iff_given hentry hid hhop, listedRatio_of_not_integer hunlisted] at hkept
      exact inStep_of_given_leveled hlisted hkept
  · intro h ratios' hgaps hnarrow
    rw [keepsRatio_iff_given hentry hid hhop]
    exact givenRatio_of_inStep hnarrow (hgaps.inStep h)

/-! ## Traceroute objects -/

/-- **The ratios of a traceroute object.** Every object that is a traceroute with these two
arrays is read, and an entry that names a node makes a hop of that node; its ratio is the one
behind as many ratios as ids were read before the entry, or zero where there are no more. That
is the ratio of the entry itself, or zero where none is listed, for all ratios of 32 bits that
may stand in the places of integers, if and only if the entry is in step. It is where nothing
before it is unreadable and the ratios are integers throughout. -/
theorem hop_ratios (hentry : ids[i]? = some entry) (hid : entry.nodeId? = some id)
    (hhop : id.isPlaceholder = false) (ratios : List Json) :
    (∀ messageType ms requestId, Lists messageType ms ids ratios →
      ∃ d, Payload.ofObject messageType (.object ms) requestId = .ok (.traceroute d) ∧
        ∀ destination now, (Route.ofDiscovery destination d now).hops[placeOf ids i]?
          = some ⟨id, (ratios.filterMap ratio?)[idsBefore ids i]?.getD 0, now⟩) ∧
    ((∀ ratios', SameGaps ratios ratios' → (∀ j ∈ ratios', j.IsNarrow) → KeepsRatio ids ratios' i)
      ↔ InStep ids ratios i) ∧
    ((∀ j ∈ ids.take i, j.nodeId?.isSome = true) → (∀ j ∈ ratios, j.isInteger = true) →
      InStep ids ratios i) := by
  refine ⟨?_, keepsRatio_iff_inStep hentry hid hhop ratios, ?_⟩
  · intro messageType ms requestId hlists
    have hread := hlists.ofObject requestId
    exact ⟨_, hread, fun destination now => hop_of_entry hentry hid hhop hlists hread⟩
  · have hi := (List.getElem?_eq_some_iff.1 hentry).1
    exact inStep_of_readable (Nat.le_of_lt hi)

section Example

/-- An unreadable id and an unreadable ratio before an entry make up for each other. -/
theorem hop_behind_two_gaps :
    let ids : List Json := [.string "lost", .string "!00002001"]
    let ratios : List Json := [.null, .int 8]
    (Json.string "!00002001").nodeId? = some ⟨0x2001⟩ ∧
    (⟨0x2001⟩ : NodeId).isPlaceholder = false ∧
    KeepsRatio ids ratios 1 ∧ listedRatio ratios 1 = 2 ∧
    ∃ d, Payload.ofObject (some "traceroute") (.object (reply ids ratios)) 0
        = .ok (.traceroute d) ∧
      (Route.ofDiscovery ⟨0x1001⟩ d (.ofSecs 10)).hops[0]? = some ⟨⟨0x2001⟩, 2, .ofSecs 10⟩ := by
  intro ids ratios
  have hid : (Json.string "!00002001").nodeId? = some ⟨0x2001⟩ := by decide +kernel
  have hhop : (⟨0x2001⟩ : NodeId).isPlaceholder = false := by decide
  have hstep : InStep ids ratios 1 := by unfold InStep; decide +kernel
  have hnarrow : ∀ j ∈ ratios, j.IsNarrow := by
    intro j hj n hn
    obtain rfl : n = 8 := by simpa [ratios, hn] using hj
    decide
  have hentry : ids[1]? = some (.string "!00002001") := rfl
  obtain ⟨hread, hkept, -⟩ := hop_ratios hentry hid hhop ratios
  obtain ⟨d, hd, hops⟩ := hread _ _ 0 (lists_reply ids ratios)
  have hplace : placeOf ids 1 = 0 := by decide +kernel
  have hgiven : (ratios.filterMap ratio?)[idsBefore ids 1]?.getD 0 = 2 := by decide +kernel
  have hop := hops ⟨0x1001⟩ (.ofSecs 10)
  rw [hplace, hgiven] at hop
  exact ⟨hid, hhop, hkept.2 hstep ratios rfl hnarrow, rfl, d, hd, hop⟩

/-- The ratios along the route that a traceroute object of a node describes. -/
def ratiosAlong (ids ratios : List Json) : List Float32 :=
  match Payload.ofObject (some "traceroute") (.object (reply ids ratios)) 0 with
  | .ok (.traceroute d) => (Route.ofDiscovery ⟨0x1001⟩ d (.ofSecs 0)).hops.map RouteHop.snr
  | _ => []

/-- The only hop of a route is given the ratio of an entry that names no node, the ratio behind
one that is no integer, and what 32 bits hold of one that has more of them. -/
theorem hops_with_ratios_of_others :
    let id : Json := .string "!00001001"
    let wide : List Json := [.int 4294967300]
    (ratiosAlong [.string "lost", id] [.int 4, .int 8] = [1] ∧
      listedRatio [.int 4, .int 8] 1 = 2 ∧ ¬ KeepsRatio [.string "lost", id] [.int 4, .int 8] 1) ∧
    (ratiosAlong [id] [.null, .int 8] = [2] ∧
      listedRatio [.null, .int 8] 0 = 0 ∧ ¬ KeepsRatio [id] [.null, .int 8] 0) ∧
    (ratiosAlong [id] wide = [1] ∧ listedRatio wide 0 = 1073741824 ∧ ¬ KeepsRatio [id] wide 0) := by
  intro id wide
  have hid : id.nodeId? = some ⟨0x1001⟩ := by decide +kernel
  have hhop : (⟨0x1001⟩ : NodeId).isPlaceholder = false := by decide
  have hfirst : [id][0]? = some id := rfl
  have hsecond : [Json.string "lost", id][1]? = some id := rfl
  refine ⟨⟨?_, rfl, ?_⟩, ⟨?_, rfl, ?_⟩, ⟨?_, ?_, ?_⟩⟩
  · decide +kernel
  · rw [keepsRatio_iff_given hsecond hid hhop]
    decide +kernel
  · decide +kernel
  · rw [keepsRatio_iff_given hfirst hid hhop]
    decide +kernel
  · decide +kernel
  · decide +kernel
  · rw [keepsRatio_iff_given hfirst hid hhop]
    decide +kernel

end Example

end RouteDiscovery

end MeshWatch
