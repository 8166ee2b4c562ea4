import MeshWatch.Route

/-!
# The hops of a discovered route

A traceroute reply lists nodes and ratios side by side, and in place of a node that did not
tell its id it lists a placeholder. Placeholders are left out of the path, which moves the nodes
behind them, but each node keeps the ratio of the position at which it was listed. The node that
replies is the end of the path: it is added behind the others, with the ratio behind those of
all positions, unless it is the last of them already.

- `map_nodeId_discoveredHops`: the ids along the path.
- `getElem?_listedHops`: where the hop of a position stands, and which ratio it has.
- `discovered_hops`: all of that, of the route that is made of a reply.
-/

namespace MeshWatch

/-- Listed where no node told its id. -/
def NodeId.isPlaceholder (id : NodeId) : Bool := id.isBroadcast || id.isUnknown

namespace Route

variable {snrs : List Float32} {now : Moment} {destination : NodeId} {d : RouteDiscovery}

/-- The listed nodes that are hops of the path. -/
def hopIds (ids : List NodeId) : List NodeId := ids.filter fun id => !id.isPlaceholder

section Listed

variable {id : NodeId} (ids : List NodeId)

theorem hopIds_cons_of_placeholder (h : id.isPlaceholder = true) :
    hopIds (id :: ids) = hopIds ids := List.filter_cons_of_neg (by simp [h])

theorem hopIds_cons_of_hop (h : id.isPlaceholder = false) :
    hopIds (id :: ids) = id :: hopIds ids := List.filter_cons_of_pos (by simp [h])

theorem listedHops_cons_of_placeholder (i : Nat) (h : id.isPlaceholder = true) :
    listedHops snrs now i (id :: ids) = listedHops snrs now (i + 1) ids := if_pos h

theorem listedHops_cons_of_hop (i : Nat) (h : id.isPlaceholder = false) :
    listedHops snrs now i (id :: ids) = ⟨id, snrs.getD i 0, now⟩ :: listedHops snrs now (i + 1) ids :=
  if_neg (by rw [Bool.not_eq_true]; exact h)

end Listed

theorem map_nodeId_listedHops (snrs : List Float32) (now : Moment) (ids : List NodeId) :
    ∀ i, (listedHops snrs now i ids).map RouteHop.nodeId = hopIds ids := by
  induction ids with
  | nil => intro i; rfl
  | cons id ids ih =>
    intro i
    cases hid : id.isPlaceholder with
    | true => rw [listedHops_cons_of_placeholder ids i hid, hopIds_cons_of_placeholder ids hid, ih]
    | false => rw [listedHops_cons_of_hop ids i hid, hopIds_cons_of_hop ids hid, List.map_cons, ih]

/-- The hop of a position stands behind as many hops as were listed before, and has the ratio
of its own position. -/
theorem getElem?_listedHops {id : NodeId} (hid : id.isPlaceholder = false) (ids : List NodeId) :
    ∀ i k : Nat, ids[k]? = some id →
      (listedHops snrs now i ids)[(hopIds (ids.take k)).length]?
        = some ⟨id, snrs.getD (i + k) 0, now⟩ := by
  induction ids with
  | nil => intro i k hk; simp at hk
  | cons first ids ih =>
    intro i k hk
    cases k with
    | zero =>
      obtain rfl : first = id := by simpa using hk
      rw [listedHops_cons_of_hop ids i hid]
      rfl
    | succ k =>
      have hrest := ih (i + 1) k hk
      rw [show i + 1 + k = i + (k + 1) by omega] at hrest
      rw [List.take_succ_cons]
      cases hfirst : first.isPlaceholder with
      | true =>
        rw [listedHops_cons_of_placeholder ids i hfirst, hopIds_cons_of_placeholder _ hfirst]
        exact hrest
      | false =>
        rw [listedHops_cons_of_hop ids i hfirst, hopIds_cons_of_hop _ hfirst, List.length_cons,
          List.getElem?_cons_succ]
        exact hrest

/-- The destination is added if it is not the last hop already. -/
theorem discoveredHops_eq (destination : NodeId) (d : RouteDiscovery) (now : Moment) :
    discoveredHops destination d now = listedHops d.snrTowards now 0 d.route ++
      if (hopIds d.route).getLast? = some destination then []
      else [⟨destination, d.snrTowards.getD d.route.length 0, now⟩] := by
  rw [discoveredHops, ← map_nodeId_listedHops d.snrTowards now d.route 0, List.getLast?_map]
  split
  · exact (List.append_nil _).symm
  · rfl

theorem map_nodeId_discoveredHops (destination : NodeId) (d : RouteDiscovery) (now : Moment) :
    (discoveredHops destination d now).map RouteHop.nodeId
      = if (hopIds d.route).getLast? = some destination then hopIds d.route
        else hopIds d.route ++ [destination] := by
  rw [discoveredHops_eq, List.map_append, map_nodeId_listedHops]
  split
  · exact List.append_nil _
  · rfl

theorem getElem?_discoveredHops {id : NodeId} {k : Nat} (hk : d.route[k]? = some id)
    (hid : id.isPlaceholder = false) :
    (discoveredHops destination d now)[(hopIds (d.route.take k)).length]?
      = some ⟨id, d.snrTowards.getD k 0, now⟩ := by
  have hlisted : (listedHops d.snrTowards now 0 d.route)[(hopIds (d.route.take k)).length]?
      = some ⟨id, d.snrTowards.getD (0 + k) 0, now⟩ := getElem?_listedHops hid d.route 0 k hk
  rw [Nat.zero_add] at hlisted
  rw [discoveredHops_eq, List.getElem?_append_left (List.getElem?_eq_some_iff.1 hlisted).1]
  exact hlisted

/-- The path ends at the node that replied. -/
theorem getLast?_map_nodeId_discoveredHops (destination : NodeId) (d : RouteDiscovery)
    (now : Moment) :
    ((discoveredHops destination d now).map RouteHop.nodeId).getLast? = some destination := by
  rw [map_nodeId_discoveredHops]
  split
  · next hlast => exact hlast
  · exact List.getLast?_concat

/-- **The hops of a discovered route.** Its ids are those of the reply without placeholders, and
the destination behind them if it is not the last one already; so it has a hop, and ends at the
destination. The hop of a position has the ratio of that position and an added destination the
one behind all positions, or zero where none is listed. The way back has no part in it. -/
theorem discovered_hops (destination : NodeId) (d : RouteDiscovery) (now : Moment) :
    let hops := (ofDiscovery destination d now).hops
    let listed := hopIds d.route
    hops.map RouteHop.nodeId
      = (if listed.getLast? = some destination then listed else listed ++ [destination]) ∧
    hops ≠ [] ∧ hops.getLast?.map RouteHop.nodeId = some destination ∧
    (∀ (k : Nat) (id : NodeId), d.route[k]? = some id → id.isPlaceholder = false →
      hops[(hopIds (d.route.take k)).length]? = some ⟨id, d.snrTowards[k]?.getD 0, now⟩) ∧
    (listed.getLast? ≠ some destination →
      hops.getLast? = some ⟨destination, d.snrTowards[d.route.length]?.getD 0, now⟩) ∧
    ∀ (routeBack : List NodeId) (snrBack : List Float32),
      ofDiscovery destination { d with routeBack := routeBack, snrBack := snrBack } now
        = ofDiscovery destination d now := by
  intro hops listed
  have hlast := getLast?_map_nodeId_discoveredHops destination d now
  refine ⟨map_nodeId_discoveredHops destination d now, hops_ofDiscovery_ne_nil destination d now,
    ?_, ?_, ?_, fun _ _ => rfl⟩
  · rwa [List.getLast?_map] at hlast
  · intro k id hk hid
    rw [← List.getD_eq_getElem?_getD]
    exact getElem?_discoveredHops hk hid
  · intro hadded
    have hhops := discoveredHops_eq destination d now
    rw [if_neg hadded] at hhops
    rw [← List.getD_eq_getElem?_getD]
    exact (congrArg List.getLast? hhops).trans List.getLast?_concat

/-- Of five positions two are placeholders, the destination is listed in the middle, and there
are ratios for the first four positions only. -/
theorem hops_between_placeholders :
    let destination : NodeId := ⟨0x1001⟩
    let d : RouteDiscovery :=
      { route := [.broadcast, ⟨0x2001⟩, destination, .unknown, ⟨0x2002⟩]
        snrTowards := [1, 2, 3, 4] }
    let hops := (ofDiscovery destination d (.ofSecs 10)).hops
    hops.map RouteHop.nodeId = [⟨0x2001⟩, destination, ⟨0x2002⟩, destination] ∧
    hops[0]? = some ⟨⟨0x2001⟩, 2, .ofSecs 10⟩ ∧ hops[2]? = some ⟨⟨0x2002⟩, 0, .ofSecs 10⟩ ∧
    hops.getLast? = some ⟨destination, 0, .ofSecs 10⟩ := by
  intro destination d hops
  obtain ⟨hids, -, -, hkept, hadded, -⟩ := discovered_hops destination d (.ofSecs 10)
  exact ⟨hids, hkept 1 ⟨0x2001⟩ rfl rfl, hkept 4 ⟨0x2002⟩ rfl rfl, hadded (by decide)⟩

end Route

end MeshWatch
