import MeshWatch.Heap
import MeshWatch.NodeId
import MeshWatch.Time.Moment

/-!
# When nodes were heard

Whenever a node is heard, that sighting is put on a heap, so that the node that has
been silent longest is found without looking at all of them. A sighting goes out of
date as soon as its node is heard again or forgotten; such sightings stay on the
heap until they surface.

- `le_total`, `le_trans`, `le_antisymm`: sightings are ordered by time and then by
  node id.
- `size_eq`: the size counts the sightings.
- `pop?_least`: the sighting that is taken precedes all others.
- `oldest_some`, `oldest_none`: what is found is the earliest sighting that counts.
-/

namespace MeshWatch

/-- A node and a time at which it was heard. -/
structure Sighting where
  heard : Moment
  id : NodeId
deriving DecidableEq, Repr, Inhabited

namespace Sighting

/-- Earlier, or at the same time and by a lesser id. -/
def le (a b : Sighting) : Bool :=
  a.heard < b.heard || (a.heard == b.heard && a.id.value ≤ b.id.value)

theorem le_iff {a b : Sighting} :
    a.le b = true ↔ a.heard.nanos < b.heard.nanos ∨
      (a.heard.nanos = b.heard.nanos ∧ a.id.value.toNat ≤ b.id.value.toNat) := by
  have e : a.heard = b.heard ↔ a.heard.nanos = b.heard.nanos := by
    cases a.heard; cases b.heard; simp
  simp [le, e, UInt32.le_iff_toNat_le]

theorem le_total (a b : Sighting) : (a.le b || b.le a) = true := by
  rw [Bool.or_eq_true, le_iff, le_iff]
  omega

theorem le_trans {a b c : Sighting} (h1 : a.le b = true) (h2 : b.le c = true) :
    a.le c = true := by
  rw [le_iff] at *
  omega

theorem le_antisymm {a b : Sighting} (h1 : a.le b = true) (h2 : b.le a = true) : a = b := by
  rw [le_iff] at *
  obtain ⟨⟨ta⟩, ⟨ia⟩⟩ := a
  obtain ⟨⟨tb⟩, ⟨ib⟩⟩ := b
  simp only [Sighting.mk.injEq, Moment.mk.injEq, NodeId.mk.injEq] at *
  refine ⟨by omega, UInt32.toNat_inj.1 (by omega)⟩

end Sighting

/-- The sightings that were not looked at yet. -/
structure Sightings where
  heap : Heap Sighting := .nil
  sized : heap.Sized := by trivial
  ordered : heap.Ordered Sighting.le := by trivial

namespace Sightings

/-- No sightings. -/
def empty : Sightings := {}

/-- The sightings in no particular order. -/
def toList (s : Sightings) : List Sighting := s.heap.toList

def size (s : Sightings) : Nat := s.heap.size

theorem size_eq (s : Sightings) : s.size = s.toList.length := Heap.size_eq_length s.sized

/-- One sighting more. -/
def insert (s : Sightings) (x : Sighting) : Sightings :=
  { heap := s.heap.insert Sighting.le x
    sized := Heap.sized_insert _ x s.sized
    ordered := Heap.ordered_insert Sighting.le_total (fun _ _ _ => Sighting.le_trans) x s.ordered }

/-- Several sightings more. -/
def insertAll (s : Sightings) (xs : List Sighting) : Sightings := xs.foldl insert s

/-- The sightings of a list. -/
def ofList (xs : List Sighting) : Sightings := empty.insertAll xs

/-- The earliest sighting, and the others. -/
def pop? (s : Sightings) : Option (Sighting × Sightings) :=
  match h : s.heap.pop? Sighting.le with
  | some (x, rest) =>
    some (x,
      { heap := rest
        sized := Heap.sized_pop s.sized h
        ordered := Heap.ordered_pop Sighting.le_total (fun _ _ _ => Sighting.le_trans) s.ordered h })
  | none => none

theorem perm_insert (s : Sightings) (x : Sighting) :
    (s.insert x).toList.Perm (x :: s.toList) := Heap.perm_insert _ x s.heap

theorem perm_pop {s rest : Sightings} {x : Sighting} (h : s.pop? = some (x, rest)) :
    s.toList.Perm (x :: rest.toList) := by
  unfold pop? at h
  split at h
  · next y r hp =>
    simp only [Option.some.injEq, Prod.mk.injEq] at h
    obtain ⟨rfl, rfl⟩ := h
    exact Heap.perm_pop hp
  · cases h

theorem mem_insert {s : Sightings} {x y : Sighting} :
    y ∈ (s.insert x).toList ↔ y = x ∨ y ∈ s.toList := by
  rw [(perm_insert s x).mem_iff, List.mem_cons]

theorem mem_insertAll {xs : List Sighting} {y : Sighting} : ∀ {s : Sightings},
    y ∈ (s.insertAll xs).toList ↔ y ∈ xs ∨ y ∈ s.toList := by
  induction xs with
  | nil =>
    intro s
    simp [insertAll]
  | cons x xs ih =>
    intro s
    show y ∈ ((s.insert x).insertAll xs).toList ↔ _
    rw [ih, mem_insert, List.mem_cons, or_left_comm, or_assoc]

theorem mem_ofList {xs : List Sighting} {y : Sighting} : y ∈ (ofList xs).toList ↔ y ∈ xs := by
  rw [ofList, mem_insertAll]
  simp [empty, toList, Heap.toList]

theorem pop?_least {s rest : Sightings} {x : Sighting} (h : s.pop? = some (x, rest)) :
    ∀ y ∈ rest.toList, x.le y = true := by
  unfold pop? at h
  split at h
  · next y r hp =>
    simp only [Option.some.injEq, Prod.mk.injEq] at h
    obtain ⟨rfl, rfl⟩ := h
    exact Heap.pop_least s.ordered hp
  · cases h

theorem pop?_none {s : Sightings} (h : s.pop? = none) : s.toList = [] := by
  unfold pop? at h
  split at h
  · cases h
  · next hp =>
    cases hh : s.heap with
    | nil => rw [toList, hh]; rfl
    | node n y l r => rw [hh] at hp; simp [Heap.pop?] at hp

theorem size_pop? {s rest : Sightings} {x : Sighting} (h : s.pop? = some (x, rest)) :
    s.size = rest.size + 1 := by
  rw [size_eq, size_eq, (perm_pop h).length_eq, List.length_cons]

/-- Looks for the earliest sighting that is up to date and whose node need not be
kept. Sightings out of date are dropped on the way, and those of nodes to be kept
are put back. -/
def oldest (upToDate : Sighting → Bool) (keep : NodeId → Bool) :
    (fuel : Nat) → (held : List Sighting) → Sightings → Option NodeId × Sightings
  | 0, held, s => (none, s.insertAll held)
  | fuel + 1, held, s =>
    match s.pop? with
    | none => (none, s.insertAll held)
    | some (x, rest) =>
      if !upToDate x then oldest upToDate keep fuel held rest
      else if keep x.id then oldest upToDate keep fuel (x :: held) rest
      else (some x.id, rest.insertAll held)

section Oldest

variable {upToDate : Sighting → Bool} {keep : NodeId → Bool}

/-- The node that is found has a sighting that counts, and no sighting that counts is
earlier. -/
theorem oldest_some {id : NodeId} {fuel : Nat} : ∀ {held : List Sighting} {s : Sightings},
    (oldest upToDate keep fuel held s).1 = some id →
      ∃ x ∈ s.toList, x.id = id ∧ upToDate x = true ∧ keep id = false ∧
        ∀ y ∈ s.toList, upToDate y = true → keep y.id = false → x.le y = true := by
  induction fuel with
  | zero => intro held s h; cases h
  | succ fuel ih =>
    intro held s h
    -- what is passed over does not count, so the rest decides
    have pass : ∀ {x : Sighting} {rest : Sightings} {held' : List Sighting},
        s.pop? = some (x, rest) → ¬(upToDate x = true ∧ keep x.id = false) →
        (oldest upToDate keep fuel held' rest).1 = some id → ∃ x ∈ s.toList, x.id = id ∧
          upToDate x = true ∧ keep id = false ∧
          ∀ y ∈ s.toList, upToDate y = true → keep y.id = false → x.le y = true := by
      intro x rest held' hp hx hr
      obtain ⟨z, hz, hid, hup, hk, hle⟩ := ih hr
      refine ⟨z, (perm_pop hp).mem_iff.2 (List.mem_cons_of_mem _ hz), hid, hup, hk, ?_⟩
      intro y hy hyu hyk
      rcases List.mem_cons.1 ((perm_pop hp).mem_iff.1 hy) with rfl | hy
      · exact absurd ⟨hyu, hyk⟩ hx
      · exact hle y hy hyu hyk
    rw [oldest] at h
    split at h
    · cases h
    · next x rest hp =>
      split at h
      · next hup => exact pass hp (fun hx => by simp [hx.1] at hup) h
      · next hup =>
        split at h
        · next hk => exact pass hp (fun hx => by simp [hx.2] at hk) h
        · next hk =>
          simp only [Option.some.injEq] at h
          subst h
          refine ⟨x, (perm_pop hp).mem_iff.2 (List.mem_cons_self ..), rfl, ?_, ?_, ?_⟩
          · simpa using hup
          · simpa using hk
          · intro y hy _ _
            rcases List.mem_cons.1 ((perm_pop hp).mem_iff.1 hy) with rfl | hy
            · have := Sighting.le_total y y
              simpa using this
            · exact pop?_least hp y hy

/-- If no node is found, then no sighting counts. -/
theorem oldest_none {fuel : Nat} : ∀ {held : List Sighting} {s : Sightings}, s.size ≤ fuel →
    (oldest upToDate keep fuel held s).1 = none →
      ∀ y ∈ s.toList, upToDate y = true → keep y.id = true := by
  induction fuel with
  | zero =>
    intro held s hs _ y hy
    rw [size_eq, Nat.le_zero, List.length_eq_zero_iff] at hs
    rw [hs] at hy
    cases hy
  | succ fuel ih =>
    intro held s hs h y hy hyu
    rw [oldest] at h
    split at h
    · next hp =>
      rw [pop?_none hp] at hy
      cases hy
    · next x rest hp =>
      have hrest : rest.size ≤ fuel := by
        have := size_pop? hp
        omega
      have hy' := List.mem_cons.1 ((perm_pop hp).mem_iff.1 hy)
      split at h
      · next hup =>
        rcases hy' with rfl | hy
        · simp [hyu] at hup
        · exact ih hrest h y hy hyu
      · split at h
        · next hk =>
          rcases hy' with rfl | hy
          · exact hk
          · exact ih hrest h y hy hyu
        · cases h

/-- A sighting that is up to date is not lost, unless it is one of the node found. -/
theorem mem_oldest {y : Sighting} (hyu : upToDate y = true) {fuel : Nat} :
    ∀ {held : List Sighting} {s : Sightings}, (y ∈ held ∨ y ∈ s.toList) →
      (oldest upToDate keep fuel held s).1 ≠ some y.id →
      y ∈ (oldest upToDate keep fuel held s).2.toList := by
  induction fuel with
  | zero =>
    intro held s hy _
    exact mem_insertAll.2 hy
  | succ fuel ih =>
    intro held s hy hne
    rw [oldest] at hne ⊢
    split at hne
    · exact mem_insertAll.2 hy
    · next x rest hp =>
      have hy' : y ∈ held ∨ y = x ∨ y ∈ rest.toList :=
        hy.imp_right fun hy => List.mem_cons.1 ((perm_pop hp).mem_iff.1 hy)
      split at hne
      · next hup =>
        rw [if_pos hup]
        refine ih ?_ hne
        rcases hy' with hy | rfl | hy
        · exact Or.inl hy
        · simp [hyu] at hup
        · exact Or.inr hy
      · next hup =>
        rw [if_neg hup]
        split at hne
        · next hk =>
          rw [if_pos hk]
          refine ih ?_ hne
          rcases hy' with hy | rfl | hy
          · exact Or.inl (List.mem_cons_of_mem _ hy)
          · exact Or.inl (List.mem_cons_self ..)
          · exact Or.inr hy
        · next hk =>
          rw [if_neg hk, mem_insertAll]
          rcases hy' with hy | rfl | hy
          · exact Or.inl hy
          · exact absurd rfl hne
          · exact Or.inr hy

end Oldest

end Sightings

end MeshWatch
