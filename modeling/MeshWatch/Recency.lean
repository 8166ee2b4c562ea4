/-!
# Bounded lists of recent things

Neighbors, relay hints and route ids are kept as short lists, oldest first, in
which something that is seen again moves to the end and the oldest give way when
the list is full.

- `length_newest_le`: a bounded list does not exceed its bound.
- `newest_of_le`: a list within its bound is left alone.
- `newest_append_newest`: what was dropped before would be dropped later.
- `nodup_touch`: no element is listed twice.
-/

namespace MeshWatch.Recent

variable {α : Type}

/-- The last `bound` elements. -/
def newest (bound : Nat) (xs : List α) : List α := xs.drop (xs.length - bound)

theorem length_newest_le (bound : Nat) (xs : List α) : (newest bound xs).length ≤ bound := by
  simp only [newest, List.length_drop]
  omega

theorem newest_of_le {bound : Nat} {xs : List α} (h : xs.length ≤ bound) :
    newest bound xs = xs := by
  have : xs.length - bound = 0 := by omega
  simp [newest, this]

theorem newest_sublist (bound : Nat) (xs : List α) : (newest bound xs).Sublist xs :=
  List.drop_sublist ..

/-- The last element is among the newest, unless none is kept. -/
theorem mem_newest {bound : Nat} (h : 0 < bound) (xs : List α) (x : α) :
    x ∈ newest bound (xs ++ [x]) := by
  have : (xs ++ [x]).length - bound ≤ xs.length := by
    simp only [List.length_append, List.length_singleton]
    omega
  rw [newest, List.drop_append_of_le_length this]
  simp

theorem newest_newest {m n : Nat} (h : m ≤ n) (xs : List α) :
    newest m (newest n xs) = newest m xs := by
  simp only [newest, List.drop_drop, List.length_drop]
  congr 1
  omega

/-- The newest elements after one more was added. -/
theorem newest_snoc {n : Nat} (h : 0 < n) (xs : List α) (x : α) :
    newest n (xs ++ [x]) = newest (n - 1) xs ++ [x] := by
  have hl : (xs ++ [x]).length - n = xs.length - (n - 1) := by
    rw [List.length_append, List.length_singleton]
    omega
  rw [newest, hl, List.drop_append_of_le_length (by omega)]
  rfl

theorem nodup_newest_snoc {xs : List α} {x : α} (h : xs.Nodup) (hx : x ∉ xs) (bound : Nat) :
    (newest bound (xs ++ [x])).Nodup := by
  refine (newest_sublist ..).nodup (List.nodup_append.2 ⟨h, List.pairwise_singleton .., ?_⟩)
  rintro y hy z hz rfl
  exact hx (List.mem_singleton.1 hz ▸ hy)

theorem mem_of_mem_newest_snoc {bound : Nat} {xs : List α} {x y : α}
    (h : y ∈ newest bound (xs ++ [x])) : y = x ∨ y ∈ xs := by
  rcases List.mem_append.1 ((newest_sublist ..).subset h) with hy | hy
  · exact Or.inr hy
  · exact Or.inl (List.mem_singleton.1 hy)

/-- The newest elements are those that fewer than the bound follow. -/
theorem mem_newest_of_lt {n : Nat} {pre mid : List α} {x : α} (h : mid.length < n) :
    x ∈ newest n (pre ++ x :: mid) := by
  have hd : (pre ++ x :: mid).length - n ≤ pre.length := by
    rw [List.length_append, List.length_cons]
    omega
  rw [newest, List.drop_append_of_le_length hd]
  exact List.mem_append_right _ (List.mem_cons_self ..)

theorem newest_append_newest (n : Nat) (xs ys : List α) :
    newest n (newest n xs ++ ys) = newest n (xs ++ ys) := by
  have hd : newest n xs ++ ys = (xs ++ ys).drop (xs.length - n) :=
    (List.drop_append_of_le_length (by omega)).symm
  rw [hd]
  simp only [newest, List.drop_drop, List.length_drop, List.length_append]
  congr 1
  omega

/-- What comes before enough other elements is not among the newest. -/
theorem newest_append_of_le {n : Nat} {ys : List α} (h : n ≤ ys.length) (xs : List α) :
    newest n (xs ++ ys) = newest n ys := by
  have hdrop : (xs ++ ys).length - n = xs.length + (ys.length - n) := by
    rw [List.length_append]
    omega
  rw [newest, hdrop, List.drop_length_add_append]
  rfl

/-- Moves an element to the end, or adds it there. -/
def touch [DecidableEq α] (bound : Nat) (x : α) (xs : List α) : List α :=
  newest bound (xs.filter (· != x) ++ [x])

theorem length_touch_le [DecidableEq α] (bound : Nat) (x : α) (xs : List α) :
    (touch bound x xs).length ≤ bound := length_newest_le _ _

theorem nodup_touch [DecidableEq α] {xs : List α} (h : xs.Nodup) (bound : Nat) (x : α) :
    (touch bound x xs).Nodup := by
  refine nodup_newest_snoc (h.filter _) ?_ bound
  intro hx
  simp at hx

theorem mem_of_mem_touch [DecidableEq α] {bound : Nat} {x y : α} {xs : List α}
    (h : y ∈ touch bound x xs) : y = x ∨ y ∈ xs :=
  (mem_of_mem_newest_snoc h).imp_right fun hy => (List.mem_filter.1 hy).1

end MeshWatch.Recent
