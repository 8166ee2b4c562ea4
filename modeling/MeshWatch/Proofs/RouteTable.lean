import Mathlib.Logic.Relation
import MeshWatch.Proofs.RouteNotes

/-!
# Which routes are stored

A route takes the place of the one to the same node if it is better, and of the one that was
discovered longest ago if there is no place left. Room is made in a loop that drops routes by
the destination that each of them names, while the table is filled by key. So the loop would go
on for ever over a route that lies under another key than its destination, and that it ends
rests on every way in which a route comes into the table: by a traceroute, by an operator, and
from a stored state.

- `RoutesKept`: every route lies under its destination, and there are no more than fit.
- `DropsOldest`: one turn of the loop. `RoutesKept.size_of_dropsOldest`: it leaves one less,
  and `RoutesKept.acc_dropsOldest`: so there is no endless run of turns.
- `Shed`: what is left after some turns, and `RoutesKept.shed_makeRouteRoom`: after all.
- `RoutesKept.perform`: every operation keeps the table in order.
- `route_policy`: whether a route is taken, and what becomes of the others.
-/

namespace MeshWatch.Mesh

variable {m m' : Mesh}

/-! ## Tables in order -/

/-- Every route lies under its destination, and there are no more routes than fit. -/
structure RoutesKept (m : Mesh) : Prop where
  destination : ∀ (id : NodeId) (r : Route), m.routes[id]? = some r → r.destination = id
  size : m.routes.size ≤ m.limits.routeCap

theorem routesKept_new (limits : Limits) (primary : String) (orders : HashOrders) :
    RoutesKept (new limits primary orders) where
  destination id r hr := by simp [new] at hr
  size := Nat.zero_le _

theorem RoutesKept.congr (h : RoutesKept m) (hl : m'.limits = m.limits)
    (hr : m'.routes = m.routes) : RoutesKept m' where
  destination := by
    rw [hr]
    exact h.destination
  size := by
    rw [hl, hr]
    exact h.size

/-- Dropping routes leaves a table in order. -/
theorem RoutesKept.spares (h : RoutesKept m) (hs : Spares m m') : RoutesKept m' where
  destination id r hr := h.destination id r (hs.routes id r hr)
  size := by
    rw [hs.limits]
    exact Nat.le_trans (Table.size_le hs.routes) h.size

theorem one_le_routeCap (l : Limits) : 1 ≤ l.routeCap := Nat.le_max_right ..

/-! ## Making room -/

theorem getElem?_routes_removeRoute (m : Mesh) (destination id : NodeId) :
    (m.removeRoute destination).routes[id]?
      = if destination = id then none else m.routes[id]? := by
  unfold removeRoute
  split
  · exact Table.getElem?_erase ..
  · next hnone =>
    split
    · next he => rw [← he, hnone]
    · rfl

theorem size_removeRoute {destination : NodeId} {r : Route}
    (h : m.routes[destination]? = some r) :
    (m.removeRoute destination).routes.size + 1 = m.routes.size := by
  have hthere : m.routes.contains destination = true := by
    rw [Std.ExtTreeMap.contains_eq_isSome_getElem?, h, Option.isSome_some]
  have hpos : m.routes.size ≠ 0 := by
    intro h0
    rw [Std.ExtTreeMap.eq_empty_iff_size_eq_zero.2 h0] at h
    simp at h
  have herase : (m.removeRoute destination).routes = m.routes.erase destination := by
    unfold removeRoute
    rw [h]
  rw [herase, Std.ExtTreeMap.size_erase, if_pos hthere]
  omega

/-- A stored route was discovered no later than any other one. -/
def IsOldestRoute (m : Mesh) (r : Route) : Prop :=
  (∃ id : NodeId, m.routes[id]? = some r) ∧
    ∀ (id : NodeId) (r' : Route), m.routes[id]? = some r' → r.discovered ≤ r'.discovered

theorem isOldestRoute_of_oldestRoute? {r : Route} (h : m.oldestRoute? = some r) :
    m.IsOldestRoute r := by
  refine ⟨Table.mem_values.1 (m.walkedRoutes_perm.mem_iff.1 (List.minOn?_mem h)), ?_⟩
  intro id r' hr'
  have hmem : r' ∈ m.walkedRoutes :=
    m.walkedRoutes_perm.mem_iff.2 (Table.mem_values.2 ⟨id, hr'⟩)
  have hle := List.apply_get_minOn?_le_of_mem (f := fun r : Route => r.discovered.nanos) hmem
  simp only [show m.walkedRoutes.minOn? (fun r => r.discovered.nanos) = some r from h,
    Option.get_some] at hle
  exact hle

theorem exists_oldestRoute? (h : 1 ≤ m.routes.size) : ∃ r, m.oldestRoute? = some r := by
  rw [← Option.isSome_iff_exists, oldestRoute?, List.isSome_minOn?_iff]
  intro hnil
  have hlen := congrArg List.length hnil
  rw [length_walkedRoutes, List.length_nil] at hlen
  omega

/-- One turn of the loop that makes room: there is no place left, and a route that was
discovered longest ago is dropped by its destination. -/
def DropsOldest (m m' : Mesh) : Prop :=
  m.limits.routeCap ≤ m.routes.size ∧
    ∃ r, m.IsOldestRoute r ∧ m' = m.removeRoute r.destination

theorem DropsOldest.spares (h : DropsOldest m m') : Spares m m' := by
  obtain ⟨-, r, -, rfl⟩ := h
  exact .removeRoute m r.destination

/-- **One turn** drops one route. -/
theorem RoutesKept.size_of_dropsOldest (h : RoutesKept m) (hd : DropsOldest m m') :
    m'.routes.size + 1 = m.routes.size := by
  obtain ⟨-, r, ⟨⟨id, hr⟩, -⟩, rfl⟩ := hd
  obtain rfl := h.destination id r hr
  exact size_removeRoute hr

/-- No run of turns goes on for ever, whichever of several oldest routes each of them drops. -/
theorem RoutesKept.acc_dropsOldest (h : RoutesKept m) : Acc (fun b a => DropsOldest a b) m := by
  obtain ⟨n, hn⟩ : ∃ n, m.routes.size = n := ⟨_, rfl⟩
  induction n using Nat.strong_induction_on generalizing m with
  | _ n ih =>
    constructor
    intro m' hd
    have hsize := h.size_of_dropsOldest hd
    exact ih m'.routes.size (by omega) (h.spares hd.spares) rfl

/-- Some turns were made: routes are gone, all of them at least as old as those that are left,
and no more than it takes. -/
structure Shed (m m' : Mesh) : Prop where
  kept : ∀ id : NodeId, m'.routes[id]? = m.routes[id]? ∨ m'.routes[id]? = none
  older : ∀ (id : NodeId) (r : Route), m.routes[id]? = some r → m'.routes[id]? = none →
    ∀ (id' : NodeId) (r' : Route), m'.routes[id']? = some r' → r.discovered ≤ r'.discovered
  size : min m.routes.size (m.limits.routeCap - 1) ≤ m'.routes.size

theorem Shed.refl (m : Mesh) : Shed m m where
  kept _ := Or.inl rfl
  older id r hr hnone := by
    rw [hr] at hnone
    cases hnone
  size := Nat.min_le_left ..

/-- One more turn. -/
theorem Shed.dropsOldest {m₁ : Mesh} (h : Shed m m₁) (hlim : m₁.limits = m.limits)
    (hk : RoutesKept m₁) (hd : DropsOldest m₁ m') : Shed m m' := by
  have hsize := hk.size_of_dropsOldest hd
  obtain ⟨hfull, r, ⟨⟨_, hr⟩, hleast⟩, rfl⟩ := hd
  obtain rfl := hk.destination _ r hr
  constructor
  case kept =>
    intro id
    rw [getElem?_routes_removeRoute]
    split
    · exact Or.inr rfl
    · exact h.kept id
  case older =>
    intro id s hs hnone id' s' hs'
    rw [getElem?_routes_removeRoute] at hnone hs'
    split at hs'
    · cases hs'
    · split at hnone
      · next he =>
        subst he
        rcases h.kept r.destination with hsame | hgone
        · -- it is the route of this turn, the oldest of all that were left
          rw [hr, hs] at hsame
          cases hsame
          exact hleast id' s' hs'
        · rw [hr] at hgone
          cases hgone
      · exact h.older id s hs hnone id' s' hs'
  case size =>
    have hle := h.size
    rw [hlim] at hfull
    omega

/-- **All turns.** With as much fuel as there are routes the loop makes turns until there is
room, and then no more can be made. -/
theorem RoutesKept.run_makeRouteRoom (fuel : Nat) : ∀ {m : Mesh}, RoutesKept m →
    m.routes.size ≤ fuel → Relation.ReflTransGen DropsOldest m (makeRouteRoom fuel m) ∧
      (makeRouteRoom fuel m).routes.size < m.limits.routeCap := by
  induction fuel with
  | zero =>
    intro m h hfuel
    exact ⟨.refl, Nat.lt_of_le_of_lt hfuel (one_le_routeCap m.limits)⟩
  | succ fuel ih =>
    intro m h hfuel
    rw [makeRouteRoom]
    split
    · next hroom => exact ⟨.refl, hroom⟩
    · next hroom =>
      have hfull : m.limits.routeCap ≤ m.routes.size := Nat.not_lt.1 hroom
      obtain ⟨r, hr⟩ := exists_oldestRoute? (Nat.le_trans (one_le_routeCap m.limits) hfull)
      have hd : DropsOldest m (m.removeRoute r.destination) :=
        ⟨hfull, r, isOldestRoute_of_oldestRoute? hr, rfl⟩
      have hsize := h.size_of_dropsOldest hd
      obtain ⟨hrun, hlt⟩ := ih (h.spares hd.spares) (by omega)
      rw [hd.spares.limits] at hlt
      rw [hr]
      exact ⟨.head hd hrun, hlt⟩

/-- What any number of turns leaves. -/
theorem RoutesKept.shed_of_run (h : RoutesKept m) (hrun : Relation.ReflTransGen DropsOldest m m') :
    Spares m m' ∧ Shed m m' := by
  induction hrun with
  | refl => exact ⟨.refl m, .refl m⟩
  | tail _ hd ih =>
    obtain ⟨hs, hshed⟩ := ih
    exact ⟨hs.trans hd.spares, hshed.dropsOldest hs.limits (h.spares hs) hd⟩

/-! ## Taking a route -/

theorem updateRoute_snd (m : Mesh) (r : Route) : (m.updateRoute r).2 = true ↔
    m.routes[r.destination]? = none ∨
      ∃ old, m.routes[r.destination]? = some old ∧ old.avgSnr < r.avgSnr := by
  unfold updateRoute isBetterRoute
  cases hold : m.routes[r.destination]? with
  | none => simp
  | some old => by_cases hlt : old.avgSnr < r.avgSnr <;> simp [hlt]

theorem updateRoute_eq_of_refused {r : Route} (h : (m.updateRoute r).2 = false) :
    (m.updateRoute r).1 = m := by
  unfold updateRoute at h ⊢
  split at h
  · cases h
  · next hworse => rw [if_neg hworse]

theorem updateRoute_eq_of_taken {r : Route} (h : (m.updateRoute r).2 = true) :
    (m.updateRoute r).1 = m.storeRoute r := by
  unfold updateRoute at h ⊢
  split at h
  · next hbetter => rw [if_pos hbetter]
  · cases h

/-- A better route takes the place of the one to the same node, and of no other. -/
theorem routes_storeRoute_of_stored {r old : Route} (hold : m.routes[r.destination]? = some old) :
    (m.storeRoute r).routes = m.routes.insert r.destination { r with preferred := true } := by
  unfold storeRoute
  simp only [hold]
  rfl

theorem routes_storeRoute_of_none {r : Route} (hnone : m.routes[r.destination]? = none) :
    (m.storeRoute r).routes = (makeRouteRoom m.routes.size m).routes.insert r.destination
      { r with preferred := true } := by
  unfold storeRoute
  simp only [hnone]

theorem limits_storeRoute (m : Mesh) (r : Route) : (m.storeRoute r).limits = m.limits := by
  unfold storeRoute
  extract_lets m'
  show m'.limits = m.limits
  unfold m'
  split
  · rfl
  · exact (Spares.makeRouteRoom _ m).limits

/-- The first route to a node was stored: others are as they were or gone, those that are gone
are at least as old as those that are left, and just enough are gone for one more to fit. -/
structure MakesWay (m m' : Mesh) (destination : NodeId) : Prop where
  kept : ∀ id : NodeId, id ≠ destination →
    m'.routes[id]? = m.routes[id]? ∨ m'.routes[id]? = none
  older : ∀ (id : NodeId) (r : Route), m.routes[id]? = some r → m'.routes[id]? = none →
    ∀ (id' : NodeId) (r' : Route), id' ≠ destination → m'.routes[id']? = some r' →
      r.discovered ≤ r'.discovered
  size : m'.routes.size = min m.routes.size (m.limits.routeCap - 1) + 1

namespace RoutesKept

/-- What room was made for the first route to a node. -/
theorem makesWay (h : RoutesKept m) {r : Route} (hnone : m.routes[r.destination]? = none) :
    MakesWay m (m.storeRoute r) r.destination := by
  obtain ⟨hrun, hroom⟩ := h.run_makeRouteRoom m.routes.size (Nat.le_refl _)
  obtain ⟨hspares, hshed⟩ := h.shed_of_run hrun
  have hroutes := routes_storeRoute_of_none hnone
  generalize makeRouteRoom m.routes.size m = m₁ at *
  have hother : ∀ id : NodeId, id ≠ r.destination →
      (m.storeRoute r).routes[id]? = m₁.routes[id]? := by
    intro id hid
    rw [hroutes, Table.getElem?_insert, if_neg (Ne.symm hid)]
  have hnew : m₁.routes.contains r.destination = false := by
    rw [Std.ExtTreeMap.contains_eq_isSome_getElem?]
    rcases hshed.kept r.destination with hsame | hgone
    · rw [hsame, hnone, Option.isSome_none]
    · rw [hgone, Option.isSome_none]
  constructor
  case kept =>
    intro id hid
    rw [hother id hid]
    exact hshed.kept id
  case older =>
    intro id s hs hgone id' s' hid' hs'
    have hid : id ≠ r.destination := by
      rintro rfl
      rw [hnone] at hs
      cases hs
    rw [hother id hid] at hgone
    rw [hother id' hid'] at hs'
    exact hshed.older id s hs hgone id' s' hs'
  case size =>
    have hge := hshed.size
    have hle := Table.size_le hspares.routes
    rw [hroutes, Std.ExtTreeMap.size_insert, hnew, if_neg nofun]
    omega

theorem storeRoute (h : RoutesKept m) (r : Route) : RoutesKept (m.storeRoute r) := by
  cases hold : m.routes[r.destination]? with
  | some old =>
    have hthere : m.routes.contains r.destination = true := by
      rw [Std.ExtTreeMap.contains_eq_isSome_getElem?, hold, Option.isSome_some]
    constructor
    · intro id s hs
      rw [routes_storeRoute_of_stored hold, Table.getElem?_insert] at hs
      split at hs
      · next he =>
        cases hs
        exact he
      · exact h.destination id s hs
    · rw [limits_storeRoute, routes_storeRoute_of_stored hold, Std.ExtTreeMap.size_insert,
        if_pos hthere]
      exact h.size
  | none =>
    have hway := h.makesWay hold
    constructor
    · intro id s hs
      by_cases hid : id = r.destination
      · subst hid
        rw [routes_storeRoute_of_none hold, Std.ExtTreeMap.getElem?_insert_self] at hs
        cases hs
        rfl
      · rcases hway.kept id hid with hsame | hgone
        · rw [hsame] at hs
          exact h.destination id s hs
        · rw [hgone] at hs
          cases hs
    · have hcap := one_le_routeCap m.limits
      rw [limits_storeRoute, hway.size]
      omega

theorem updateRoute (h : RoutesKept m) (r : Route) : RoutesKept (m.updateRoute r).1 := by
  unfold Mesh.updateRoute
  split
  · exact h.storeRoute r
  · exact h

/-! ## Operations -/

theorem takePayload (h : RoutesKept m) (p : Packet) (channel : UInt32) (now : Moment) :
    RoutesKept (m.takePayload p channel now).1 := by
  unfold Mesh.takePayload
  split
  · exact h.congr rfl rfl
  · exact h.updateRoute _
  · exact h.spares (.updateNeighbors m _ _)
  · exact h

theorem applyNew (h : RoutesKept m) (p : Packet) (now : Moment) :
    RoutesKept (m.applyNew p now).1 := by
  have hslot : RoutesKept ((m.resolveChannel p.channelName p.channelIndex).1.touchChannel
      (m.resolveChannel p.channelName p.channelIndex).2 false now) :=
    h.congr (framed_resolveChannel ..).limits (RoutesNoted.routes_resolveChannel ..)
  unfold Mesh.applyNew
  split
  · have hheard := ((hslot.spares (.hearSender _ p now)).spares (.hearRelay _ p now)).spares
      (.hearGateway _ p now)
    exact (hheard.takePayload p _ now).congr rfl rfl
  · exact h

/-- A stored state is put into the table by destination, and cut to what fits. -/
theorem restore (m : Mesh) (s : MeshState) : RoutesKept (m.restore s) where
  destination _ _ hr := (Table.getElem?_fill_eq_some hr).2
  size := by
    have hfill := Table.size_fill_le Route.destination
      ((newestRoutes s.routes).take m.limits.maxRoutes) ∅
    rw [Std.ExtTreeMap.size_empty, Nat.zero_add] at hfill
    have hlen := Nat.le_trans hfill (List.length_take_le ..)
    exact Nat.le_trans hlen (Nat.le_max_left ..)

/-- **One step** keeps the table in order, whatever it does. -/
theorem perform (h : RoutesKept m) (s : Step) : RoutesKept (m.perform s).1 := by
  obtain ⟨op, now⟩ := s
  cases op with
  | packet p =>
    obtain ⟨dedup, ⟨-, he⟩ | ⟨-, he⟩⟩ := m.apply_cases p now
    · simp only [Mesh.perform, he]
      exact h.congr rfl rfl
    · have h' : RoutesKept { m with dedup := dedup } := h.congr rfl rfl
      simp only [Mesh.perform, he]
      exact h'.applyNew p now
  | update id u => exact h.spares (.updateNode m id u now)
  | link id snr rssi hops => exact h.congr rfl rfl
  | route destination hops => exact h.updateRoute _
  | neighbors reporter entries => exact h.spares (.updateNeighbors m reporter entries)
  | channel c => exact h.congr rfl rfl
  | activity index message => exact h.congr rfl rfl
  | message message => exact h.congr rfl rfl
  | sweep => exact h.spares (.sweep m now)
  | restore state => exact restore m state

theorem after {steps : List Step} : ∀ {m : Mesh}, RoutesKept m → RoutesKept (m.after steps) := by
  induction steps with
  | nil => exact fun h => h
  | cons s steps ih => exact fun h => ih (h.perform s)

end RoutesKept

/-- **Which routes are stored.** In every mesh that any operations lead to, a path is taken if
and only if none is stored to its destination or its mean ratio is greater than that of the one
stored. A path that is not taken changes nothing. One that is taken is stored as the preferred
one, discovered now; it takes the place of the one to the same node, or else of those that were
discovered longest ago. The loop that drops these comes to an end, and there are never more
routes than fit. -/
theorem route_policy (limits : Limits) (primary : String) (orders : HashOrders) (steps : List Step)
    (destination : NodeId) (hops : List RouteHop) (now : Moment) :
    let m := (new limits primary orders).after steps
    let r := Route.new destination hops now
    let m' := (m.updateRoute r).1
    let taken := (m.updateRoute r).2
    (taken = true ↔ m.routes[destination]? = none ∨
      ∃ old, m.routes[destination]? = some old ∧ old.avgSnr < r.avgSnr) ∧
    (taken = false → m' = m) ∧
    (taken = true → m'.routes[destination]? = some ⟨destination, hops, now, none, true⟩) ∧
    (taken = true → m.routes.contains destination = true →
      ∀ id : NodeId, id ≠ destination → m'.routes[id]? = m.routes[id]?) ∧
    (taken = true → m.routes.contains destination = false → MakesWay m m' destination) ∧
    Acc (fun b a => DropsOldest a b) m ∧
    Relation.ReflTransGen DropsOldest m (makeRouteRoom m.routes.size m) ∧
    (∀ m'', ¬ DropsOldest (makeRouteRoom m.routes.size m) m'') ∧
    m.routes.size ≤ max limits.maxRoutes 1 ∧ m'.routes.size ≤ max limits.maxRoutes 1 := by
  intro m r m' taken
  have h : RoutesKept m := (routesKept_new limits primary orders).after
  have hlim : m.limits = limits := limits_after steps (new limits primary orders)
  have hstored : taken = true → m' = m.storeRoute r := updateRoute_eq_of_taken
  obtain ⟨hrun, hroom⟩ := h.run_makeRouteRoom m.routes.size (Nat.le_refl _)
  obtain ⟨hspares, -⟩ := h.shed_of_run hrun
  refine ⟨m.updateRoute_snd r, updateRoute_eq_of_refused, ?_, ?_, ?_, h.acc_dropsOldest, hrun,
    ?_, ?_, ?_⟩
  · intro ht
    rw [hstored ht]
    exact Std.ExtTreeMap.getElem?_insert_self
  · intro ht hthere id hid
    rw [Std.ExtTreeMap.contains_eq_isSome_getElem?, Option.isSome_iff_exists] at hthere
    obtain ⟨old, hold⟩ := hthere
    rw [hstored ht, routes_storeRoute_of_stored (r := r) hold, Table.getElem?_insert]
    exact if_neg (Ne.symm hid)
  · intro ht hnew
    rw [Std.ExtTreeMap.contains_eq_isSome_getElem?, Option.isSome_eq_false_iff,
      Option.isNone_iff_eq_none] at hnew
    rw [hstored ht]
    exact h.makesWay (r := r) hnew
  · rintro m'' ⟨hfull, -⟩
    rw [hspares.limits] at hfull
    omega
  · have hsize := h.size
    rwa [hlim] at hsize
  · have hsize := (h.updateRoute r).size
    rwa [(edits_updateRoute m r).limits, hlim] at hsize

/-- Two routes fit, and the one to the first node was replaced since: a path to a third node
takes the place of the one to the second, a worse one to the first is not taken, and a better
one to the second takes its place in the full table. -/
theorem replaced_route_outlives_older :
    let hop (id : UInt32) (snr : Float32) : RouteHop := ⟨⟨id⟩, snr, .ofSecs 9⟩
    let steps : List Step := [
      ⟨.route ⟨0x1001⟩ [hop 0x2001 5], .ofSecs 10⟩,
      ⟨.route ⟨0x1002⟩ [], .ofSecs 11⟩,
      ⟨.route ⟨0x1001⟩ [hop 0x2002 9], .ofSecs 12⟩]
    let m := (new { maxRoutes := 2 } "" {}).after steps
    let offered (destination : NodeId) (hops : List RouteHop) :=
      m.updateRoute (Route.new destination hops (.ofSecs 13))
    let third := offered ⟨0x1003⟩ []
    let worse := offered ⟨0x1001⟩ [hop 0x2003 8]
    let better := offered ⟨0x1002⟩ [hop 0x2003 1]
    (third.2 = true ∧ m.routes.contains ⟨0x1003⟩ = false ∧ MakesWay m third.1 ⟨0x1003⟩ ∧
      third.1.routeList.map (·.destination.value) = [0x1001, 0x1003]) ∧
    (worse.2 = false ∧ worse.1 = m) ∧
    (better.2 = true ∧ m.routes.contains ⟨0x1002⟩ = true ∧
      better.1.routes[(⟨0x1002⟩ : NodeId)]?
        = some ⟨⟨0x1002⟩, [hop 0x2003 1], .ofSecs 13, none, true⟩ ∧
      ∀ id : NodeId, id ≠ ⟨0x1002⟩ → better.1.routes[id]? = m.routes[id]?) := by
  intro hop steps m offered third worse better
  obtain ⟨-, -, -, -, hthird, -⟩ :=
    route_policy { maxRoutes := 2 } "" {} steps ⟨0x1003⟩ [] (.ofSecs 13)
  obtain ⟨-, hworse, -⟩ :=
    route_policy { maxRoutes := 2 } "" {} steps ⟨0x1001⟩ [hop 0x2003 8] (.ofSecs 13)
  obtain ⟨-, -, hstored, hothers, -⟩ :=
    route_policy { maxRoutes := 2 } "" {} steps ⟨0x1002⟩ [hop 0x2003 1] (.ofSecs 13)
  obtain ⟨htaken, hnew, hleft, hrefused, htaken', hthere⟩ : third.2 = true ∧
      m.routes.contains ⟨0x1003⟩ = false ∧
      third.1.routeList.map (·.destination.value) = [0x1001, 0x1003] ∧ worse.2 = false ∧
      better.2 = true ∧ m.routes.contains ⟨0x1002⟩ = true := by decide +kernel
  exact ⟨⟨htaken, hnew, hthird htaken hnew, hleft⟩, ⟨hrefused, hworse hrefused⟩,
    htaken', hthere, hstored htaken', hothers htaken' hthere⟩

end MeshWatch.Mesh
