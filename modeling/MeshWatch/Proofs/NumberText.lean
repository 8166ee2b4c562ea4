import Mathlib.Data.List.TakeWhile
import MeshWatch.Json.Reader
import MeshWatch.Json.Writer

/-!
# The text of numbers

An integer that fits 64 bits is read back from its digits. Floats are another matter:
their digits are read with two roundings, and not every float survives them. But whatever
is read from the text of a number alone is read from it in the middle of a document, since
no part of the reader looks further than the number.

- `Local`, `local_readNumber`: what follows a number has no part in it.
- `readSigned_integerChars`: integers are read back.
- `isNumberText_write?`: the texts of floats, and `readValue_of_read?`: how they are read
  in a document.
-/

namespace MeshWatch.Json

/-- A text that does not go on with a number. -/
def StopsNumber (tail : List Char) : Prop :=
  ∀ c rest, tail = c :: rest → c.isDigit = false ∧ c ≠ '.' ∧ c ≠ 'e' ∧ c ≠ 'E'

theorem stopsNumber_nil : StopsNumber [] := nofun

theorem stopsNumber_cons {c : Char} (h : c.isDigit = false ∧ c ≠ '.' ∧ c ≠ 'e' ∧ c ≠ 'E')
    (rest : List Char) : StopsNumber (c :: rest) := by
  rintro _ _ ⟨rfl, rfl⟩
  exact h

variable {tail : List Char}

theorem takeWhile_isDigit_append (cs : List Char) (h : StopsNumber tail) :
    (cs ++ tail).takeWhile Char.isDigit = cs.takeWhile Char.isDigit := by
  induction cs with
  | nil =>
    cases tail with
    | nil => rfl
    | cons c rest => exact List.takeWhile_cons_of_neg (by simp [(h c rest rfl).1])
  | cons c cs ih => simp only [List.cons_append, List.takeWhile_cons, ih]

theorem dropWhile_isDigit_append (cs : List Char) (h : StopsNumber tail) :
    (cs ++ tail).dropWhile Char.isDigit = cs.dropWhile Char.isDigit ++ tail := by
  induction cs with
  | nil =>
    cases tail with
    | nil => rfl
    | cons c rest => exact List.dropWhile_cons_of_neg (by simp [(h c rest rfl).1])
  | cons c cs ih =>
    simp only [List.cons_append, List.dropWhile_cons, ih]
    split
    · rfl
    · rfl

/-! ## Integers -/

theorem accumulate_eq (ds : List Char) : ∀ significand count,
    Nat.ofDigitChars 10 ds significand < wordBound →
      accumulate significand count ds
        = (Nat.ofDigitChars 10 ds significand, count + ds.length, []) := by
  induction ds with
  | nil => exact fun _ _ _ => rfl
  | cons c ds ih =>
    intro significand count h
    rw [Nat.ofDigitChars_cons, Nat.mul_comm] at h ⊢
    change Nat.ofDigitChars 10 ds (significand * 10 + (c.toNat - 48)) < wordBound at h
    have hnext : significand * 10 + (c.toNat - 48) < wordBound := by
      refine Nat.lt_of_le_of_lt ?_ h
      rw [Nat.ofDigitChars_eq_ofDigitChars_zero]
      have hpow : 1 ≤ 10 ^ ds.length := Nat.one_le_pow _ _ (by decide)
      exact Nat.le_add_right_of_le (Nat.le_mul_of_pos_left _ hpow)
    have hrest := ih (significand * 10 + (c.toNat - 48)) (count + 1) h
    rw [accumulate, if_pos hnext, hrest, List.length_cons, Nat.add_assoc, Nat.add_comm 1]
    rfl

theorem head?_toDigits {n : Nat} (h : 0 < n) : (Nat.toDigits 10 n).head? ≠ some '0' := by
  induction n using Nat.strongRecOn with
  | _ n ih =>
    rcases Nat.lt_or_ge n 10 with hlt | hge
    · have hdigits : ∀ k : Fin 10, 0 < k.val → [Nat.digitChar k].head? ≠ some '0' := by decide
      rw [Nat.toDigits_of_lt_base hlt]
      exact hdigits ⟨n, hlt⟩ h
    · have hpos : 0 < n / 10 := by omega
      have hne : Nat.toDigits 10 (n / 10) ≠ [] := Nat.toDigits_ne_nil
      have hhead := ih (n / 10) (by omega) hpos
      rw [Nat.toDigits_of_base_le (by decide) hge, List.head?_append]
      rw [List.head?_eq_some_head hne] at hhead ⊢
      exact hhead

theorem isDigit_of_mem_digitChars {n : Nat} {c : Char} (h : c ∈ Decimal.digitChars n) :
    c.isDigit = true := Nat.isDigit_of_mem_toDigits (by decide) (by decide) h

/-! ## Floats -/

/-- A reader of part of a number looks no further than the number, whatever follows it. -/
def Local (read : List Char → Option (Json × List Char)) : Prop :=
  ∀ cs v rest, read cs = some (v, rest) → rest <:+ cs ∧
    ∀ tail, StopsNumber tail → read (cs ++ tail) = some (v, rest ++ tail)

theorem Local.after {read : List Char → Option (Json × List Char)} (h : Local read) {c : Char}
    {cs rest : List Char} {v : Json} (hcs : read cs = some (v, rest)) : rest <:+ c :: cs ∧
      ∀ tail, StopsNumber tail → read (cs ++ tail) = some (v, rest ++ tail) := by
  obtain ⟨hs, ht⟩ := h cs v rest hcs
  exact ⟨hs.trans (List.suffix_cons c cs), ht⟩

/-- The digits of an exponent whose sign was read. -/
def exponentDigits (negative : Bool) (significand : Nat) (start : Int) (down : Bool)
    (cs : List Char) : Option (Json × List Char) :=
  let ds := cs.takeWhile Char.isDigit
  let rest := cs.dropWhile Char.isDigit
  if ds.isEmpty then none
  else
    let e : Nat := ds.foldl (fun acc c => acc * 10 + (c.toNat - 48)) 0
    if 0x80000000 ≤ e then
      if significand ≠ 0 ∧ !down then none
      else some (.double (if negative then -0.0 else 0.0), rest)
    else
      (floatOf negative significand (if down then start - (e : Int) else start + (e : Int))).map
        (·, rest)

theorem map_pair_eq_some {α β : Type} {x : Option α} {b rest : β} {v : α}
    (h : x.map (·, b) = some (v, rest)) : x = some v ∧ b = rest := by
  obtain ⟨a, ha, he⟩ := Option.map_eq_some_iff.1 h
  cases he
  exact ⟨ha, rfl⟩

theorem local_exponentDigits (negative : Bool) (significand : Nat) (start : Int) (down : Bool) :
    Local (exponentDigits negative significand start down) := by
  intro cs v rest h
  have hsuffix : cs.dropWhile Char.isDigit <:+ cs := List.dropWhile_suffix _
  unfold exponentDigits at h
  dsimp only at h
  split at h
  · cases h
  · next hds =>
    have hrest : rest = cs.dropWhile Char.isDigit := by
      split at h
      · split at h
        · cases h
        · cases h
          rfl
      · exact (map_pair_eq_some h).2.symm
    subst hrest
    refine ⟨hsuffix, fun tail ht => ?_⟩
    unfold exponentDigits
    dsimp only
    rw [takeWhile_isDigit_append cs ht, dropWhile_isDigit_append cs ht, if_neg hds]
    split
    · next he =>
      rw [if_pos he] at h
      split
      · next hz =>
        rw [if_pos hz] at h
        cases h
      · next hz =>
        rw [if_neg hz] at h
        cases h
        rfl
    · next he =>
      rw [if_neg he] at h
      rw [(map_pair_eq_some h).1]
      rfl

theorem readExponent_cons (negative : Bool) (significand : Nat) (start : Int) (c : Char)
    (cs : List Char) :
    readExponent negative significand start (c :: cs)
      = if c = '+' then exponentDigits negative significand start false cs
        else if c = '-' then exponentDigits negative significand start true cs
        else exponentDigits negative significand start false (c :: cs) := by
  by_cases hplus : c = '+'
  · subst hplus
    rfl
  · by_cases hminus : c = '-'
    · subst hminus
      rfl
    · rw [if_neg hplus, if_neg hminus]
      unfold readExponent exponentDigits
      split
      next down r heq =>
      split at heq
      · next he => cases he; exact absurd rfl hplus
      · next he => cases he; exact absurd rfl hminus
      · cases heq
        rfl

theorem local_readExponent (negative : Bool) (significand : Nat) (start : Int) :
    Local (readExponent negative significand start) := by
  intro cs v rest h
  cases cs with
  | nil => cases h
  | cons c cs =>
    rw [readExponent_cons] at h
    simp only [List.cons_append, readExponent_cons]
    split
    · next hc =>
      rw [if_pos hc] at h
      exact Local.after (local_exponentDigits _ _ _ _) h
    · next hc =>
      rw [if_neg hc] at h
      split
      · next hc =>
        rw [if_pos hc] at h
        exact Local.after (local_exponentDigits _ _ _ _) h
      · next hc =>
        rw [if_neg hc] at h
        exact local_exponentDigits _ _ _ _ _ _ _ h

theorem finishFloat_stop (negative : Bool) (significand : Nat) (exponent : Int)
    (h : StopsNumber tail) :
    finishFloat negative significand exponent tail
      = (floatOf negative significand exponent).map (·, tail) := by
  cases tail with
  | nil => rfl
  | cons c cs =>
    obtain ⟨-, -, he, hE⟩ := h c cs rfl
    unfold finishFloat
    split
    · next heq => cases heq; exact absurd rfl he
    · next heq => cases heq; exact absurd rfl hE
    · rfl

theorem finishFloat_cons (negative : Bool) (significand : Nat) (exponent : Int) (c : Char)
    (cs : List Char) :
    finishFloat negative significand exponent (c :: cs)
      = if c = 'e' ∨ c = 'E' then readExponent negative significand exponent cs
        else (floatOf negative significand exponent).map (·, c :: cs) := by
  by_cases he : c = 'e'
  · subst he
    rfl
  · by_cases hE : c = 'E'
    · subst hE
      rfl
    · rw [if_neg (by simp [he, hE])]
      unfold finishFloat
      split
      · next heq => cases heq; exact absurd rfl he
      · next heq => cases heq; exact absurd rfl hE
      · rfl

theorem local_finishFloat (negative : Bool) (significand : Nat) (exponent : Int) :
    Local (finishFloat negative significand exponent) := by
  intro cs v rest h
  cases cs with
  | nil =>
    obtain ⟨hv, rfl⟩ := map_pair_eq_some h
    refine ⟨List.suffix_refl _, fun tail ht => ?_⟩
    rw [List.nil_append, finishFloat_stop _ _ _ ht, hv]
    rfl
  | cons c cs =>
    rw [finishFloat_cons] at h
    simp only [List.cons_append, finishFloat_cons]
    split
    · next hc =>
      rw [if_pos hc] at h
      exact Local.after (local_readExponent _ _ _) h
    · next hc =>
      rw [if_neg hc] at h
      obtain ⟨hv, rfl⟩ := map_pair_eq_some h
      refine ⟨List.suffix_refl _, fun tail ht => ?_⟩
      rw [hv]
      rfl

theorem local_readFraction (negative : Bool) (significand : Nat) (exponent : Int) :
    Local (readFraction negative significand exponent) := by
  intro cs v rest h
  have hsuffix : cs.dropWhile Char.isDigit <:+ cs := List.dropWhile_suffix _
  unfold readFraction at h
  dsimp only at h
  split at h
  · cases h
  · next hds =>
    obtain ⟨hs, ht⟩ := local_finishFloat _ _ _ _ _ _ h
    refine ⟨hs.trans hsuffix, fun tail htail => ?_⟩
    unfold readFraction
    dsimp only
    rw [takeWhile_isDigit_append cs htail, dropWhile_isDigit_append cs htail, if_neg hds]
    exact ht tail htail

/-- What follows the integer digits of a number. -/
def finishNumber (negative : Bool) (significand : Nat) (dropped : List Char) :
    List Char → Option (Json × List Char)
  | '.' :: r => readFraction negative significand dropped.length r
  | 'e' :: r => readExponent negative significand dropped.length r
  | 'E' :: r => readExponent negative significand dropped.length r
  | r =>
    if dropped.isEmpty then some (integer negative significand, r)
    else (floatOf negative significand dropped.length).map (·, r)

/-- The number whose integer digits were read, if nothing follows them. -/
def wholeNumber (negative : Bool) (significand : Nat) (dropped : List Char) : Option Json :=
  if dropped.isEmpty then some (integer negative significand)
  else floatOf negative significand dropped.length

theorem finishNumber_stop (negative : Bool) (significand : Nat) (dropped : List Char)
    (h : StopsNumber tail) :
    finishNumber negative significand dropped tail
      = (wholeNumber negative significand dropped).map (·, tail) := by
  have hwhole : (if dropped.isEmpty then some (integer negative significand, tail)
      else (floatOf negative significand dropped.length).map (·, tail))
      = (wholeNumber negative significand dropped).map (·, tail) := by
    unfold wholeNumber
    split
    · rfl
    · rfl
  cases tail with
  | nil => exact hwhole
  | cons c cs =>
    obtain ⟨-, hdot, he, hE⟩ := h c cs rfl
    unfold finishNumber
    split
    · next heq => cases heq; exact absurd rfl hdot
    · next heq => cases heq; exact absurd rfl he
    · next heq => cases heq; exact absurd rfl hE
    · exact hwhole

theorem finishNumber_cons (negative : Bool) (significand : Nat) (dropped : List Char) (c : Char)
    (cs : List Char) :
    finishNumber negative significand dropped (c :: cs)
      = if c = '.' then readFraction negative significand dropped.length cs
        else if c = 'e' ∨ c = 'E' then readExponent negative significand dropped.length cs
        else (wholeNumber negative significand dropped).map (·, c :: cs) := by
  by_cases hdot : c = '.'
  · subst hdot
    rfl
  · by_cases he : c = 'e'
    · subst he
      rfl
    · by_cases hE : c = 'E'
      · subst hE
        rfl
      · rw [if_neg hdot, if_neg (by simp [he, hE])]
        unfold finishNumber wholeNumber
        split
        · next heq => cases heq; exact absurd rfl hdot
        · next heq => cases heq; exact absurd rfl he
        · next heq => cases heq; exact absurd rfl hE
        · split
          · rfl
          · rfl

theorem local_finishNumber (negative : Bool) (significand : Nat) (dropped : List Char) :
    Local (finishNumber negative significand dropped) := by
  intro cs v rest h
  cases cs with
  | nil =>
    rw [finishNumber_stop _ _ _ stopsNumber_nil] at h
    obtain ⟨hv, rfl⟩ := map_pair_eq_some h
    refine ⟨List.suffix_refl _, fun tail ht => ?_⟩
    rw [List.nil_append, finishNumber_stop _ _ _ ht, hv]
    rfl
  | cons c cs =>
    rw [finishNumber_cons] at h
    simp only [List.cons_append, finishNumber_cons]
    split
    · next hc =>
      rw [if_pos hc] at h
      exact Local.after (local_readFraction _ _ _) h
    · next hc =>
      rw [if_neg hc] at h
      split
      · next hc =>
        rw [if_pos hc] at h
        exact Local.after (local_readExponent _ _ _) h
      · next hc =>
        rw [if_neg hc] at h
        obtain ⟨hv, rfl⟩ := map_pair_eq_some h
        refine ⟨List.suffix_refl _, fun tail ht => ?_⟩
        rw [hv]
        rfl

theorem readNumber_eq (negative : Bool) (cs : List Char) :
    readNumber negative cs
      = if (cs.takeWhile Char.isDigit).isEmpty || ((cs.takeWhile Char.isDigit).length > 1
          && (cs.takeWhile Char.isDigit).head? == some '0') then none
        else finishNumber negative (accumulate 0 0 (cs.takeWhile Char.isDigit)).1
          (accumulate 0 0 (cs.takeWhile Char.isDigit)).2.2 (cs.dropWhile Char.isDigit) := rfl

theorem local_readNumber (negative : Bool) : Local (readNumber negative) := by
  intro cs v rest h
  rw [readNumber_eq] at h
  split at h
  · cases h
  · next hds =>
    obtain ⟨hs, ht⟩ := local_finishNumber _ _ _ _ _ _ h
    refine ⟨hs.trans (List.dropWhile_suffix _), fun tail htail => ?_⟩
    rw [readNumber_eq, takeWhile_isDigit_append cs htail, dropWhile_isDigit_append cs htail,
      if_neg hds]
    exact ht tail htail

/-- A number without point and exponent is read back from its digits. -/
theorem readNumber_digitChars {n : Nat} (hn : n < wordBound) (negative : Bool)
    (h : StopsNumber tail) :
    readNumber negative (Decimal.digitChars n ++ tail) = some (integer negative n, tail) := by
  have htake : (Decimal.digitChars n ++ tail).takeWhile Char.isDigit = Decimal.digitChars n := by
    rw [takeWhile_isDigit_append _ h, List.takeWhile_eq_self_iff]
    exact fun c hc => isDigit_of_mem_digitChars hc
  have hdrop : (Decimal.digitChars n ++ tail).dropWhile Char.isDigit = tail := by
    rw [dropWhile_isDigit_append _ h, List.dropWhile_eq_nil_iff.2, List.nil_append]
    exact fun c hc => isDigit_of_mem_digitChars hc
  have hval : Nat.ofDigitChars 10 (Decimal.digitChars n) 0 = n := Nat.ofDigitChars_ten_toDigits
  have hacc := accumulate_eq (Decimal.digitChars n) 0 0 (by rwa [hval])
  rw [hval] at hacc
  -- no digit is missing, and none stands in front without need
  have hshape : ((Decimal.digitChars n).isEmpty || ((Decimal.digitChars n).length > 1
      && (Decimal.digitChars n).head? == some '0')) = false := by
    have hne : (Decimal.digitChars n).isEmpty = false := by
      rw [List.isEmpty_eq_false_iff]
      exact Nat.toDigits_ne_nil
    rw [hne, Bool.false_or]
    rcases Nat.eq_zero_or_pos n with rfl | hpos
    · rfl
    · have hhead : ((Decimal.digitChars n).head? == some '0') = false := by
        rw [beq_eq_false_iff_ne]
        exact head?_toDigits hpos
      rw [hhead, Bool.and_false]
  rw [readNumber_eq, htake, hdrop, hshape, hacc, if_neg nofun, finishNumber_stop _ _ _ h]
  rfl

/-! ## Numbers as values -/

/-- A number with its sign. -/
def readSigned : List Char → Option (Json × List Char)
  | '-' :: rest => readNumber true rest
  | cs => readNumber false cs

theorem readSigned_of_ne {c : Char} (h : c ≠ '-') (cs : List Char) :
    readSigned (c :: cs) = readNumber false (c :: cs) := by
  unfold readSigned
  split
  · next heq => cases heq; exact absurd rfl h
  · rfl

theorem local_readSigned : Local readSigned := by
  intro cs v rest h
  cases cs with
  | nil => cases h
  | cons c cs =>
    by_cases hc : c = '-'
    · subst hc
      exact Local.after (local_readNumber true) h
    · rw [readSigned_of_ne hc] at h
      obtain ⟨hs, ht⟩ := local_readNumber false _ _ _ h
      refine ⟨hs, fun tail htail => ?_⟩
      rw [List.cons_append, readSigned_of_ne hc]
      exact ht tail htail

theorem readSigned_integerChars {n : Int} (hlow : -0x8000000000000000 ≤ n) (hhigh : n < wordBound)
    (h : StopsNumber tail) :
    readSigned (Decimal.integerChars n ++ tail) = some (.int n, tail) := by
  have hbound : n.natAbs < wordBound := by
    unfold wordBound UInt64.size at *
    omega
  unfold Decimal.integerChars
  split
  · next hneg =>
    have hint : integer true n.natAbs = .int n := by
      unfold integer
      rw [if_pos rfl, if_neg (by omega)]
      congr 1
      omega
    rw [List.cons_append, ← hint]
    exact readNumber_digitChars hbound true h
  · next hpos =>
    have hint : integer false n.natAbs = .int n := by
      unfold integer
      rw [if_neg nofun]
      congr 1
      omega
    have hread := readNumber_digitChars hbound false h
    have hnil : Nat.toDigits 10 n.natAbs ≠ [] := Nat.toDigits_ne_nil
    obtain ⟨c, cs, hcs⟩ := List.exists_cons_of_ne_nil hnil
    have hmem : c ∈ Decimal.digitChars n.natAbs := by
      rw [Decimal.digitChars, hcs]
      exact List.mem_cons_self ..
    have hdigit : c.isDigit = true := isDigit_of_mem_digitChars hmem
    have hne : c ≠ '-' := by
      rintro rfl
      cases hdigit
    rw [Decimal.digitChars, hcs] at hread ⊢
    rw [← hint, ← hread]
    exact readSigned_of_ne hne _

/-! ## The text of numbers -/

/-- How the text of a number begins. -/
def startsNumber (c : Char) : Bool := c.isDigit || c = '-'

theorem skipSpace_of_not_isSpace {c : Char} (h : isSpace c = false) (cs : List Char) :
    skipSpace (c :: cs) = c :: cs := List.dropWhile_cons_of_neg (by simp [h])

theorem isSpace_of_isDigit {c : Char} (h : c.isDigit = true) : isSpace c = false := by
  unfold isSpace
  simp only [Bool.or_eq_false_iff, decide_eq_false_iff_not]
  refine ⟨⟨⟨?_, ?_⟩, ?_⟩, ?_⟩ <;> (rintro rfl; cases h)

theorem readValue_number {c : Char} (h : startsNumber c = true) (fuel depth : Nat)
    (cs : List Char) : readValue (fuel + 1) depth (c :: cs) = readSigned (c :: cs) := by
  unfold startsNumber at h
  by_cases hminus : c = '-'
  · subst hminus
    rw [readValue.eq_def, skipSpace_of_not_isSpace rfl]
    rfl
  · have hdigit : c.isDigit = true := by simpa [hminus] using h
    have hspace := isSpace_of_isDigit hdigit
    rw [readSigned_of_ne hminus, readValue.eq_def, skipSpace_of_not_isSpace hspace]
    dsimp only
    -- no other value begins with a digit
    split <;> rename_i heq <;> cases heq
    case h_9 => exact if_pos hdigit
    all_goals cases hdigit

/-- The text of a number: it begins like one, and no blank is in it. -/
structure IsNumberText (t : List Char) : Prop where
  starts : ∃ c cs, t = c :: cs ∧ startsNumber c = true
  unspaced : ∀ c ∈ t, isSpace c = false

theorem isNumberText_of_digit {c : Char} {cs : List Char} (hc : c.isDigit = true)
    (hcs : ∀ x ∈ cs, isSpace x = false) : IsNumberText (c :: cs) where
  starts := ⟨c, cs, rfl, by simp [startsNumber, hc]⟩
  unspaced := by
    intro x hx
    rcases List.mem_cons.1 hx with rfl | hx
    · exact isSpace_of_isDigit hc
    · exact hcs x hx

theorem IsNumberText.negative {t : List Char} (h : IsNumberText t) : IsNumberText ('-' :: t) where
  starts := ⟨'-', t, rfl, rfl⟩
  unspaced := by
    intro x hx
    rcases List.mem_cons.1 hx with rfl | hx
    · rfl
    · exact h.unspaced x hx

theorem isNumberText_digitChars (n : Nat) : IsNumberText (Decimal.digitChars n) := by
  have hne : Decimal.digitChars n ≠ [] := Nat.toDigits_ne_nil
  have hall : ∀ c ∈ Decimal.digitChars n, c.isDigit = true := fun c hc =>
    isDigit_of_mem_digitChars hc
  obtain ⟨c, cs, hcs⟩ := List.exists_cons_of_ne_nil hne
  rw [hcs] at hall ⊢
  exact isNumberText_of_digit (hall c (List.mem_cons_self ..)) fun x hx =>
    isSpace_of_isDigit (hall x (List.mem_cons_of_mem _ hx))

theorem isNumberText_integerChars (n : Int) : IsNumberText (Decimal.integerChars n) := by
  unfold Decimal.integerChars
  split
  · exact (isNumberText_digitChars _).negative
  · exact isNumberText_digitChars _

theorem isNumberText_append {t u : List Char} (h : IsNumberText t)
    (hu : ∀ c ∈ u, isSpace c = false) : IsNumberText (t ++ u) := by
  obtain ⟨c, cs, rfl, hc⟩ := h.starts
  refine ⟨⟨c, cs ++ u, rfl, hc⟩, fun x hx => ?_⟩
  rcases List.mem_append.1 hx with hx | hx
  · exact h.unspaced x hx
  · exact hu x hx

theorem isNumberText_text (l : Decimal.Layout) (d : Decimal.Digits) : IsNumberText (l.text d) := by
  have hds := isNumberText_digitChars d.significand
  have htake : ∀ n, 0 < n → IsNumberText ((Decimal.digitChars d.significand).take n) := by
    intro n hn
    obtain ⟨c, cs, hcs, hc⟩ := hds.starts
    refine ⟨⟨c, cs.take (n - 1), ?_, hc⟩, fun x hx => hds.unspaced x (List.mem_of_mem_take hx)⟩
    rw [hcs, List.take_cons hn]
  have hdrop : ∀ n, ∀ x ∈ (Decimal.digitChars d.significand).drop n, isSpace x = false :=
    fun n x hx => hds.unspaced x (List.mem_of_mem_drop hx)
  have hzeros : ∀ n, ∀ x ∈ Decimal.zeros n, isSpace x = false := by
    intro n x hx
    rw [(List.mem_replicate.1 hx).2]
    rfl
  have hpoint : ∀ x ∈ ['.', '0'], isSpace x = false :=
    List.forall_mem_cons.2 ⟨rfl, List.forall_mem_singleton.2 rfl⟩
  unfold Decimal.Layout.text
  dsimp only
  split
  · exact isNumberText_of_digit rfl hpoint
  split
  · exact isNumberText_append (isNumberText_append hds (hzeros _)) hpoint
  split
  · exact isNumberText_append (htake _ (by omega)) (List.forall_mem_cons.2 ⟨rfl, hdrop _⟩)
  split
  · refine isNumberText_of_digit rfl (List.forall_mem_cons.2 ⟨rfl, ?_⟩)
    exact List.forall_mem_append.2 ⟨hzeros _, hds.unspaced⟩
  · -- one digit, the others behind a point if there are any, and the exponent
    rw [List.append_assoc]
    refine isNumberText_append (htake 1 Nat.one_pos) (List.forall_mem_append.2 ⟨?_, ?_⟩)
    · split
      · exact List.forall_mem_nil _
      · exact List.forall_mem_cons.2 ⟨rfl, hdrop 1⟩
    · exact List.forall_mem_cons.2 ⟨rfl, (isNumberText_integerChars _).unspaced⟩

theorem isNumberText_write? {l : Decimal.Layout} {f : Ieee.Format} {v : Ieee.Value}
    {t : List Char} (h : l.write? f v = some t) : IsNumberText t := by
  cases v with
  | finite negative m q =>
    cases h
    split
    · exact (isNumberText_text _ _).negative
    · exact isNumberText_text _ _
  | _ => cases h

theorem skipSpace_eq_nil {cs : List Char} (h : ∀ c ∈ cs, isSpace c = false)
    (he : (skipSpace cs).isEmpty = true) : cs = [] := by
  cases cs with
  | nil => rfl
  | cons c cs =>
    rw [skipSpace_of_not_isSpace (h c (List.mem_cons_self ..))] at he
    cases he

/-- A number that is read from a text of its own is read from it wherever it stands. -/
theorem readValue_of_read? {t : List Char} {j : Json} (ht : IsNumberText t)
    (h : read? (String.ofList t) = some j) (hs : StopsNumber tail) (fuel depth : Nat) :
    readValue (fuel + 1) depth (t ++ tail) = some (j, tail) := by
  obtain ⟨c, cs, rfl, hc⟩ := ht.starts
  unfold read? at h
  rw [String.toList_ofList] at h
  dsimp only at h
  rw [readValue_number hc] at h
  split at h
  · next v rest hv =>
    split at h
    · next hempty =>
      cases h
      obtain ⟨hsuffix, hcontext⟩ := local_readSigned _ _ _ hv
      have hrest : rest = [] :=
        skipSpace_eq_nil (fun x hx => ht.unspaced x (hsuffix.subset hx)) hempty
      rw [List.cons_append, readValue_number hc]
      have := hcontext tail hs
      rw [hrest, List.nil_append] at this
      exact this
    · cases h
  · cases h

end MeshWatch.Json
