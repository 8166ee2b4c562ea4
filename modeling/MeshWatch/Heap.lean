/-!
# Heaps

A binary tree with its least element on top, in which the heavier subtree stands
on the left, so that two heaps are merged along their short right spines. The
order is a parameter of the operations. Elements may occur more than once.

- `perm_insert`, `perm_pop`: inserting adds one element and popping takes one away.
- `size_eq_length`: the stored size of a well-built heap counts its elements.
- `ordered_insert`, `pop_least`: in a heap that was built by insertions, the element
  on top precedes all others.
-/

namespace MeshWatch

/-- A heap; every node stores the number of elements from it downwards. -/
inductive Heap (α : Type) where
  | nil
  | node (size : Nat) (top : α) (left right : Heap α)
deriving Repr

namespace Heap

variable {α : Type}

/-- The number of elements, as stored on top. -/
def size : Heap α → Nat
  | nil => 0
  | node n _ _ _ => n

/-- The elements, from the top downwards. -/
def toList : Heap α → List α
  | nil => []
  | node _ x l r => x :: (l.toList ++ r.toList)

/-- Two heaps below an element that precedes all of theirs, the heavier one left. -/
def join (x : α) (a b : Heap α) : Heap α :=
  if a.size < b.size then node (a.size + b.size + 1) x b a
  else node (a.size + b.size + 1) x a b

/-- Merges a heap `whole`, that has `x` on top of `l` and another heap, with the
heap given last; `mergeRight` merges that other heap. -/
def mergeInto (le : α → α → Bool) (whole : Heap α) (x : α) (l : Heap α)
    (mergeRight : Heap α → Heap α) : Heap α → Heap α
  | nil => whole
  | node n y l' r' =>
    if le x y then join x l (mergeRight (node n y l' r'))
    else join y l' (mergeInto le whole x l mergeRight r')

/-- The elements of two heaps. -/
def merge (le : α → α → Bool) : Heap α → Heap α → Heap α
  | nil, h => h
  | node n x l r, h => mergeInto le (node n x l r) x l (fun h' => merge le r h') h

/-- One element more. -/
def insert (le : α → α → Bool) (x : α) (h : Heap α) : Heap α := merge le (node 1 x nil nil) h

/-- The elements of a list besides those of a heap. -/
def insertAll (le : α → α → Bool) (xs : List α) (h : Heap α) : Heap α :=
  xs.foldl (fun h x => h.insert le x) h

/-- The heap of the elements of a list. -/
def ofList (le : α → α → Bool) (xs : List α) : Heap α := insertAll le xs nil

/-- The element on top, and the heap without it. -/
def pop? (le : α → α → Bool) : Heap α → Option (α × Heap α)
  | nil => none
  | node _ x l r => some (x, merge le l r)

/-! ## The elements of a result -/

theorem perm_join (x : α) (a b : Heap α) : (join x a b).toList.Perm (x :: (a.toList ++ b.toList)) := by
  unfold join
  split
  · exact List.Perm.cons x List.perm_append_comm
  · exact List.Perm.refl _

theorem perm_mergeInto (le : α → α → Bool) (n : Nat) (x : α) (l r : Heap α)
    (mergeRight : Heap α → Heap α)
    (hr : ∀ h, (mergeRight h).toList.Perm (r.toList ++ h.toList)) (h : Heap α) :
    (mergeInto le (node n x l r) x l mergeRight h).toList.Perm
      ((node n x l r).toList ++ h.toList) := by
  induction h with
  | nil => simp [mergeInto, toList]
  | node m y l' r' _ ih =>
    rw [mergeInto]
    split
    · refine (perm_join _ _ _).trans ?_
      have := (hr (node m y l' r')).append_left l.toList
      simpa [toList, List.append_assoc] using List.Perm.cons x this
    · refine (perm_join _ _ _).trans ?_
      have h1 := ih.append_left l'.toList
      have h2 : (l'.toList ++ ((node n x l r).toList ++ r'.toList)).Perm
          ((node n x l r).toList ++ (l'.toList ++ r'.toList)) := by
        rw [← List.append_assoc, ← List.append_assoc]
        exact List.perm_append_comm.append_right _
      refine (List.Perm.cons y (h1.trans h2)).trans ?_
      have h3 : (y :: ((node n x l r).toList ++ (l'.toList ++ r'.toList))).Perm
          ((node n x l r).toList ++ y :: (l'.toList ++ r'.toList)) := List.perm_middle.symm
      simpa [toList] using h3

theorem perm_merge (le : α → α → Bool) (a b : Heap α) :
    (merge le a b).toList.Perm (a.toList ++ b.toList) := by
  induction a generalizing b with
  | nil => simp [merge, toList]
  | node n x l r _ ih =>
    rw [merge]
    exact perm_mergeInto le n x l r _ ih b

theorem perm_insert (le : α → α → Bool) (x : α) (h : Heap α) :
    (h.insert le x).toList.Perm (x :: h.toList) := by
  simpa [insert, toList] using perm_merge le (node 1 x nil nil) h

theorem perm_pop {le : α → α → Bool} {h rest : Heap α} {x : α} (hp : h.pop? le = some (x, rest)) :
    h.toList.Perm (x :: rest.toList) := by
  cases h with
  | nil => simp [pop?] at hp
  | node n y l r =>
    simp only [pop?, Option.some.injEq, Prod.mk.injEq] at hp
    obtain ⟨rfl, rfl⟩ := hp
    exact List.Perm.cons _ (perm_merge le l r).symm

/-! ## Stored sizes -/

/-- Every node stores the number of elements below and on it. -/
def Sized : Heap α → Prop
  | nil => True
  | node n _ l r => n = l.size + r.size + 1 ∧ l.Sized ∧ r.Sized

theorem size_eq_length {h : Heap α} (hs : h.Sized) : h.size = h.toList.length := by
  induction h with
  | nil => rfl
  | node n x l r ihl ihr =>
    obtain ⟨hn, hl, hr⟩ := hs
    rw [show size (node n x l r) = n from rfl, hn, ihl hl, ihr hr]
    simp [toList]

theorem sized_join {x : α} {a b : Heap α} (ha : a.Sized) (hb : b.Sized) : (join x a b).Sized := by
  unfold join
  split
  · exact ⟨by omega, hb, ha⟩
  · exact ⟨rfl, ha, hb⟩

theorem sized_merge (le : α → α → Bool) {a b : Heap α} (ha : a.Sized) (hb : b.Sized) :
    (merge le a b).Sized := by
  induction a generalizing b with
  | nil => simpa [merge] using hb
  | node n x l r _ ih =>
    rw [merge]
    induction b with
    | nil => exact ha
    | node m y l' r' _ ih' =>
      rw [mergeInto]
      split
      · exact sized_join ha.2.1 (ih ha.2.2 hb)
      · exact sized_join hb.2.1 (ih' hb.2.2)

theorem sized_insert (le : α → α → Bool) (x : α) {h : Heap α} (hs : h.Sized) :
    (h.insert le x).Sized :=
  sized_merge le (by simp [Sized, size]) hs

theorem sized_pop {le : α → α → Bool} {h rest : Heap α} {x : α} (hs : h.Sized)
    (hp : h.pop? le = some (x, rest)) : rest.Sized := by
  cases h with
  | nil => simp [pop?] at hp
  | node n y l r =>
    simp only [pop?, Option.some.injEq, Prod.mk.injEq] at hp
    obtain ⟨rfl, rfl⟩ := hp
    exact sized_merge le hs.2.1 hs.2.2

/-! ## Order -/

/-- Every element precedes those below it. -/
def Ordered (le : α → α → Bool) : Heap α → Prop
  | nil => True
  | node _ x l r =>
    (∀ y ∈ l.toList ++ r.toList, le x y = true) ∧ l.Ordered le ∧ r.Ordered le

section Order

variable {le : α → α → Bool} (total : ∀ x y, (le x y || le y x) = true)
  (trans : ∀ x y z, le x y = true → le y z = true → le x z = true)

theorem ordered_join {x : α} {a b : Heap α} (ha : a.Ordered le) (hb : b.Ordered le)
    (hx : ∀ y ∈ a.toList ++ b.toList, le x y = true) : (join x a b).Ordered le := by
  unfold join
  split
  · refine ⟨?_, hb, ha⟩
    intro y hy
    exact hx y (List.perm_append_comm.mem_iff.1 hy)
  · exact ⟨hx, ha, hb⟩

include trans in
/-- The element on top precedes itself and everything below it, and so does whatever
precedes it. -/
theorem le_of_le_top {n : Nat} {x w : α} {l r : Heap α} (h : (node n x l r).Ordered le)
    (hw : le w x = true) : ∀ y ∈ (node n x l r).toList, le w y = true := by
  intro y hy
  rcases List.mem_cons.1 hy with rfl | hy
  · exact hw
  · exact trans w x y hw (h.1 y hy)

include total trans in
theorem ordered_merge {a b : Heap α} (ha : a.Ordered le) (hb : b.Ordered le) :
    (merge le a b).Ordered le := by
  induction a generalizing b with
  | nil => simpa [merge] using hb
  | node n x l r _ ih =>
    rw [merge]
    induction b with
    | nil => exact ha
    | node m y l' r' _ ih' =>
      rw [mergeInto]
      split
      · next hxy =>
        refine ordered_join ha.2.1 (ih ha.2.2 hb) ?_
        intro z hz
        rw [List.mem_append, (perm_merge le r _).mem_iff, List.mem_append] at hz
        rcases hz with hz | hz | hz
        · exact ha.1 z (List.mem_append_left _ hz)
        · exact ha.1 z (List.mem_append_right _ hz)
        · exact le_of_le_top trans hb hxy z hz
      · next hxy =>
        have hyx : le y x = true := by
          have := total x y
          simpa [hxy] using this
        refine ordered_join hb.2.1 (ih' hb.2.2) ?_
        intro z hz
        have hperm := perm_mergeInto le n x l r (fun h => merge le r h) (perm_merge le r) r'
        rw [List.mem_append, hperm.mem_iff, List.mem_append] at hz
        rcases hz with hz | hz | hz
        · exact hb.1 z (List.mem_append_left _ hz)
        · exact le_of_le_top trans ha hyx z hz
        · exact hb.1 z (List.mem_append_right _ hz)

include total trans in
theorem ordered_insert (x : α) {h : Heap α} (hs : h.Ordered le) : (h.insert le x).Ordered le :=
  ordered_merge total trans (by simp [Ordered, toList]) hs

include total trans in
theorem ordered_pop {h rest : Heap α} {x : α} (hs : h.Ordered le)
    (hp : h.pop? le = some (x, rest)) : rest.Ordered le := by
  cases h with
  | nil => simp [pop?] at hp
  | node n y l r =>
    simp only [pop?, Option.some.injEq, Prod.mk.injEq] at hp
    obtain ⟨rfl, rfl⟩ := hp
    exact ordered_merge total trans hs.2.1 hs.2.2

/-- What is popped precedes what is left. -/
theorem pop_least {h rest : Heap α} {x : α} (hs : h.Ordered le)
    (hp : h.pop? le = some (x, rest)) : ∀ y ∈ rest.toList, le x y = true := by
  cases h with
  | nil => simp [pop?] at hp
  | node n z l r =>
    simp only [pop?, Option.some.injEq, Prod.mk.injEq] at hp
    obtain ⟨rfl, rfl⟩ := hp
    intro y hy
    exact hs.1 y ((perm_merge le l r).mem_iff.1 hy)

end Order

end Heap

end MeshWatch
