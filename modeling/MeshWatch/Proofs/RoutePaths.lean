import MeshWatch.Proofs.Bystanders
import MeshWatch.Proofs.TopicRoundTrip

/-!
# Paths and their ids

A node notes the routes to it by their ids, and an id is a text: the nodes along the path, written
out one after the other. Whatever has the same text goes with a route that is dropped, so no other
route is lost with it only if the whole path can be told from the text, however long it is, and if
nothing else of the route is in it.

- `Text.parts_joined`: texts that were joined are found again.
- `Route.idOf_injective`: no two paths have the same id. `Route.routeId_eq_iff`: nor two routes,
  unless they lead along the same path.
- `Node.count_forgetRoute`: what goes with a route that a node forgets.
- `Node.noted_paths`: notes are kept by id as they would be kept by path.
- `Mesh.forgot_updateRoute`: what nodes forget when the mesh is given a route.
- `Mesh.route_ids_tell_paths`: all of this together.
-/

namespace MeshWatch

/-! ## Joined texts -/

namespace Text

theorem joined_eq_intercalate (sep : String) (ss : List String) :
    joined sep ss = sep.intercalate ss := by
  induction ss with
  | nil => rfl
  | cons s ss ih =>
    cases ss with
    | nil => rw [joined, String.intercalate_singleton]
    | cons t ts =>
      rw [joined, ih, String.intercalate_cons_cons]
      exact List.cons_ne_nil t ts

/-- What stands between the separators of a text, where anything does. -/
def parts (sep : Char) (s : String) : List String :=
  ((s.toList.splitOn sep).filter (· ≠ [])).map String.ofList

/-- **Parts are found again**, also if there are none: no part is empty, so an empty text was
joined of nothing. -/
theorem parts_joined {sep : Char} {ss : List String}
    (h : ∀ s ∈ ss, s.toList ≠ [] ∧ sep ∉ s.toList) :
    parts sep (joined (String.singleton sep) ss) = ss := by
  have hchars : (joined (String.singleton sep) ss).toList =
      [sep].intercalate (ss.map String.toList) := by
    rw [joined_eq_intercalate, String.toList_intercalate, String.toList_singleton]
  have hfull : ∀ cs ∈ ss.map String.toList, cs ≠ [] ∧ sep ∉ cs := List.forall_mem_map.2 h
  have hparts : (([sep].intercalate (ss.map String.toList)).splitOn sep).filter (· ≠ []) =
      ss.map String.toList := by
    cases ss with
    | nil => rfl
    | cons s ss =>
      rw [List.splitOn_intercalate sep, List.filter_eq_self]
      · exact fun cs hcs => decide_eq_true (hfull cs hcs).1
      · exact fun cs hcs => (hfull cs hcs).2
      · exact List.cons_ne_nil _ _
  rw [parts, hchars, hparts, List.map_map]
  exact List.map_id'' (fun s => String.ofList_toList) _

end Text

/-! ## Paths -/

theorem NodeId.text_injective : Function.Injective text := by
  intro a b h
  have hread := a.ofText?_text
  rw [h, ofText?_text] at hread
  exact (Option.some.inj hread).symm

namespace Route

/-- The nodes along the way. -/
def path (r : Route) : List NodeId := r.hops.map RouteHop.nodeId

/-- The id of the routes along a path. -/
def idOf (path : List NodeId) : String := Text.joined ">" (path.map NodeId.text)

theorem routeId_eq (r : Route) : r.routeId = idOf r.path := by
  rw [routeId, idOf, path, List.map_map]
  rfl

example : idOf [⟨0x1111⟩, ⟨0x2222⟩, ⟨0xdddd⟩] = "!00001111>!00002222>!0000dddd" := by decide

theorem parts_idOf (path : List NodeId) : Text.parts '>' (idOf path) = path.map NodeId.text := by
  refine Text.parts_joined fun s hs => ?_
  obtain ⟨id, -, rfl⟩ := List.mem_map.1 hs
  refine ⟨?_, Topic.notMem_id (by decide) (by decide) id⟩
  rw [NodeId.text, String.toList_ofList]
  exact List.cons_ne_nil _ _

/-- **No two paths have the same id.** -/
theorem idOf_injective : Function.Injective idOf := by
  intro p q h
  have hparts := parts_idOf p
  rw [h, parts_idOf] at hparts
  exact (List.map_injective_iff.2 NodeId.text_injective hparts).symm

theorem routeId_eq_iff {r s : Route} : r.routeId = s.routeId ↔ r.path = s.path := by
  rw [routeId_eq, routeId_eq]
  exact idOf_injective.eq_iff

end Route

/-! ## Notes -/

namespace Recent

variable {α β : Type}

theorem filter_ne_map [BEq α] [LawfulBEq α] [BEq β] [LawfulBEq β] {f : α → β}
    (hf : Function.Injective f) (x : α) (xs : List α) :
    (xs.map f).filter (· != f x) = (xs.filter (· != x)).map f := by
  rw [List.filter_map]
  refine congrArg (List.map f) (List.filter_congr fun y _ => ?_)
  rw [Bool.eq_iff_iff]
  simp [hf.eq_iff]

variable [DecidableEq α] [DecidableEq β]

/-- A recent list of names is that of what they name, if nothing has the name of another. -/
theorem touch_map {f : α → β} (hf : Function.Injective f) (bound : Nat) (x : α) (xs : List α) :
    touch bound (f x) (xs.map f) = (touch bound x xs).map f := by
  have hlist : (xs.map f).filter (· != f x) ++ [f x] = (xs.filter (· != x) ++ [x]).map f := by
    rw [filter_ne_map hf, List.map_append, List.map_singleton]
  rw [touch, touch, newest, newest, hlist, List.length_map, List.map_drop]

omit [DecidableEq β] in
/-- An element leaves a recent list only when there is no place left. -/
theorem mem_touch_or_full {bound : Nat} {x y : α} {xs : List α} (hy : y ∈ xs) :
    y ∈ touch bound x xs ∨ (touch bound x xs).length = bound := by
  have hmem : y ∈ xs.filter (· != x) ++ [x] := by
    by_cases he : y = x
    · exact List.mem_append_right _ (List.mem_singleton.2 he)
    · exact List.mem_append_left _ (List.mem_filter.2 ⟨hy, by simpa using he⟩)
  rcases Nat.le_total (xs.filter (· != x) ++ [x]).length bound with hfits | hfull
  · left
    rwa [touch, newest_of_le hfits]
  · right
    rw [touch, newest, List.length_drop]
    omega

end Recent

/-- A change of the notes of a node: a route is noted, or its note is dropped. -/
inductive Note where
  | remember (r : Route)
  | forget (r : Route)

/-- The same change if paths were noted: the last five are, in the order in which they were noted
last. -/
def Note.keep (paths : List (List NodeId)) : Note → List (List NodeId)
  | .remember r => Recent.touch 5 r.path paths
  | .forget r => paths.filter (· != r.path)

namespace Node

def note (n : Node) : Note → Node
  | .remember r => n.rememberRoute r.routeId
  | .forget r => n.forgetRoute r.routeId

/-- The node after several changes of its notes. -/
def noted (n : Node) (notes : List Note) : Node := notes.foldl note n

/-- **One change** by id is the change by path. -/
theorem note_paths (n : Node) (paths : List (List NodeId)) (c : Note) :
    note { n with routes := paths.map Route.idOf } c =
      { n with routes := (c.keep paths).map Route.idOf } := by
  cases c with
  | remember r =>
    rw [note, rememberRoute, Route.routeId_eq, Recent.touch_map Route.idOf_injective]
    rfl
  | forget r =>
    rw [note, forgetRoute, Route.routeId_eq, Recent.filter_ne_map Route.idOf_injective]
    rfl

/-- **Any changes** together are, from any paths that are noted before. -/
theorem noted_paths (n : Node) (notes : List Note) : ∀ paths : List (List NodeId),
    noted { n with routes := paths.map Route.idOf } notes =
      { n with routes := (notes.foldl Note.keep paths).map Route.idOf } := by
  induction notes with
  | nil => exact fun _ => rfl
  | cons c notes ih =>
    intro paths
    rw [noted, List.foldl_cons, note_paths, ← noted, ih, List.foldl_cons]

/-- All notes of the path are dropped, and none of another path. -/
theorem count_forgetRoute (n : Node) (r s : Route) :
    (n.forgetRoute r.routeId).routes.count s.routeId =
      if s.path = r.path then 0 else n.routes.count s.routeId := by
  rw [forgetRoute]
  split
  · next hsame =>
    rw [Route.routeId_eq_iff.2 hsame, List.count_eq_zero, List.mem_filter]
    simp
  · next hother =>
    have hid : s.routeId ≠ r.routeId := mt Route.routeId_eq_iff.1 hother
    exact List.count_filter (by simpa using hid)

theorem mem_forgetRoute {n : Node} {r s : Route} (h : s.routeId ∈ n.routes) :
    s.routeId ∈ (n.forgetRoute r.routeId).routes ∨ s.path = r.path := by
  by_cases hpath : s.path = r.path
  · exact Or.inr hpath
  · refine Or.inl (List.count_pos_iff.1 ?_)
    rw [count_forgetRoute, if_neg hpath]
    exact List.count_pos_iff.2 h

end Node

/-! ## The notes of a mesh -/

namespace Mesh

variable {m : Mesh} {x : NodeId} {n n' : Node}

/-- At most the note of the route that is stored to a node is dropped. -/
def ForgotStored (m : Mesh) (x : NodeId) (n n' : Node) : Prop :=
  n' = n ∨ ∃ old, m.routes[x]? = some old ∧ n' = n.forgetRoute old.routeId

theorem forgot_makeRouteRoom (fuel : Nat) (hn : m.nodes[x]? = some n) :
    ∃ n', (makeRouteRoom fuel m).nodes[x]? = some n' ∧ ForgotStored m x n n' := by
  rcases routeGone_makeRouteRoom fuel m with he | ⟨-, old, hold, -, hnode⟩
  · exact ⟨n, he.trans hn, Or.inl rfl⟩
  · rw [hn] at hnode
    exact ⟨n.forgetRoute old.routeId, hnode, Or.inr ⟨old, hold, rfl⟩⟩

/-- **Forgetting in a mesh.** A route that is taken is noted on its destination; apart from that
a node forgets at most the route that was stored to it. -/
theorem forgot_updateRoute (r : Route) (hn : m.nodes[x]? = some n) :
    ∃ n', ForgotStored m x n n' ∧ ((m.updateRoute r).1.nodes[x]? = some n' ∨
      x = r.destination ∧ (m.updateRoute r).1.nodes[x]? = some (n'.rememberRoute r.routeId)) := by
  unfold updateRoute
  split
  · unfold storeRoute
    extract_lets m'
    have hroom : ∃ n', m'.nodes[x]? = some n' ∧ ForgotStored m x n n' := by
      -- the route to the same node gives way, or those discovered first while there is no place
      unfold m'
      split
      · next old hold =>
        rw [getElem?_modifyNode, hn]
        split
        · next hx => exact ⟨_, rfl, Or.inr ⟨old, hx ▸ hold, rfl⟩⟩
        · exact ⟨n, rfl, Or.inl rfl⟩
      · exact forgot_makeRouteRoom _ hn
    obtain ⟨n', hn', hforgot⟩ := hroom
    have hnode : (m'.modifyNode r.destination (·.rememberRoute r.routeId)).nodes[x]? =
        if r.destination = x then some (n'.rememberRoute r.routeId) else some n' := by
      rw [getElem?_modifyNode, hn', Option.map_some]
    refine ⟨n', hforgot, ?_⟩
    split at hnode
    · next hx => exact Or.inr ⟨hx.symm, hnode⟩
    · exact Or.inl hnode
  · exact ⟨n, Or.inl rfl, Or.inl hn⟩

theorem ForgotStored.mem {s : Route} (h : ForgotStored m x n n') (hs : s.routeId ∈ n.routes) :
    s.routeId ∈ n'.routes ∨ ∃ old, m.routes[x]? = some old ∧ s.path = old.path := by
  rcases h with rfl | ⟨old, hold, rfl⟩
  · exact Or.inl hs
  · exact (Node.mem_forgetRoute hs).imp_right fun hpath => ⟨old, hold, hpath⟩

/-- **Ids stand for paths.** Two routes have the same id exactly if they lead along the same
nodes. So a node that forgets a route loses all notes of that path and none of another, whatever
else it has noted; notes that are kept by id are those that would be kept by path, over any
sequence of notes; and when a mesh is given a route, what is noted on any node stays, unless it is
the path of the route that was stored to that node or gives way to five others. -/
theorem route_ids_tell_paths :
    (∀ r s : Route, r.routeId = s.routeId ↔ r.path = s.path) ∧
    (∀ (n : Node) (r s : Route), (n.forgetRoute r.routeId).routes.count s.routeId =
      if s.path = r.path then 0 else n.routes.count s.routeId) ∧
    (∀ (n : Node) (paths : List (List NodeId)) (notes : List Note),
      Node.noted { n with routes := paths.map Route.idOf } notes =
        { n with routes := (notes.foldl Note.keep paths).map Route.idOf }) ∧
    ∀ (m : Mesh) (x : NodeId) (n : Node) (r s : Route),
      m.nodes[x]? = some n → s.routeId ∈ n.routes →
      ∃ n', (m.updateRoute r).1.nodes[x]? = some n' ∧
        (s.routeId ∈ n'.routes ∨ (∃ old, m.routes[x]? = some old ∧ s.path = old.path) ∨
          x = r.destination ∧ n'.routes.length = 5) := by
  refine ⟨fun r s => Route.routeId_eq_iff, Node.count_forgetRoute, fun n paths notes =>
    n.noted_paths notes paths, ?_⟩
  intro m x n r s hn hs
  obtain ⟨n', hforgot, hnode | ⟨hx, hnode⟩⟩ := forgot_updateRoute r hn
  · exact ⟨n', hnode, (hforgot.mem hs).imp_right Or.inl⟩
  · refine ⟨_, hnode, ?_⟩
    rcases hforgot.mem hs with hmem | hstored
    · exact (Recent.mem_touch_or_full hmem).imp_right fun hfull => Or.inr ⟨hx, hfull⟩
    · exact Or.inr (Or.inl hstored)

/-- A node with the notes of two routes, of which the second is stored, is given a third one. The
stored route is forgotten and the detour is not, though both end alike. The note of the detour is
also that of a route along it at another time and with other ratios. -/
theorem note_of_detour_stays :
    let hop (id : UInt32) (snr : Float32) (now : Moment) : RouteHop := ⟨⟨id⟩, snr, now⟩
    let route (hops : Moment → List RouteHop) (now : Moment) := Route.new ⟨0x1001⟩ (hops now) now
    let detour := route (fun t => [hop 0x2001 2 t, hop 0x1001 7 t]) (.ofSecs 10)
    let again := route (fun t => [hop 0x2001 3 t, hop 0x1001 4 t]) (.ofSecs 20)
    let direct := route (fun t => [hop 0x1001 5 t]) (.ofSecs 30)
    let better := route (fun t => [hop 0x2002 9 t, hop 0x1001 8 t]) (.ofSecs 40)
    let n := { Node.new ⟨0x1001⟩ (.ofSecs 30) with routes := [detour.routeId, direct.routeId] }
    let m := (new {} "LongFast" {}).restore { nodes := [n], routes := [direct] }
    again.routeId = detour.routeId ∧ detour.routeId ≠ direct.routeId ∧
    (n.forgetRoute again.routeId).routes.count detour.routeId = 0 ∧
    (n.forgetRoute again.routeId).routes.count direct.routeId = 1 ∧
    m.nodes[(⟨0x1001⟩ : NodeId)]? = some n ∧
    ∃ n', (m.updateRoute better).1.nodes[(⟨0x1001⟩ : NodeId)]? = some n' ∧
      detour.routeId ∈ n'.routes ∧ direct.routeId ∉ n'.routes := by
  intro hop route detour again direct better n m
  obtain ⟨hiff, hcount, -, hupdate⟩ := route_ids_tell_paths
  have hsame : again.path = detour.path := by decide
  have hother : detour.path ≠ direct.path := by decide
  have hagain : direct.path ≠ again.path := by decide
  have hn : m.nodes[(⟨0x1001⟩ : NodeId)]? = some n := by decide +kernel
  have hstored : m.routes[(⟨0x1001⟩ : NodeId)]? = some direct := by decide +kernel
  have hafter : (m.updateRoute better).1.nodes[(⟨0x1001⟩ : NodeId)]?.map (fun n' =>
      (n'.routes.length, decide (direct.routeId ∈ n'.routes))) = some (2, false) := by
    decide +kernel
  obtain ⟨n', hn', hkept⟩ := hupdate m ⟨0x1001⟩ n better detour hn (List.mem_cons_self ..)
  rw [hn', Option.map_some, Option.some.injEq, Prod.mk.injEq, decide_eq_false_iff_not] at hafter
  refine ⟨(hiff again detour).2 hsame, mt (hiff detour direct).1 hother, ?_, ?_, hn, n', hn', ?_,
    hafter.2⟩
  · rw [hcount, if_pos hsame.symm]
  · rw [hcount, if_neg hagain]
    decide +kernel
  · rcases hkept with hmem | ⟨old, hold, hpath⟩ | ⟨-, hfull⟩
    · exact hmem
    · rw [hstored] at hold
      cases hold
      exact absurd hpath hother
    · rw [hafter.1] at hfull
      exact absurd hfull (by decide)

end Mesh

end MeshWatch
