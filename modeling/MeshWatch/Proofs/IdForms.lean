import MeshWatch.Proofs.StoredValues

/-!
# The forms of an id

An id may be written in four forms: with its mark, with the prefix of a hexadecimal number, as
a decimal number, or as eight bare digits. Which form a text has is seen from its shape before
any digit is read, and eight digits may be meant either way: they are hexadecimal if a letter
is among them and decimal if none is. Each form is read back, whatever blanks stand around it
and whichever case its letters have.

- `Hex.Spells`: hexadecimal digits of a number, with `Text.readWord?_of_spells`.
- `Text.digitsFrom?_toDigits`: decimal digits.
- `Text.trimmed_padded`, `NodeId.ofText?_padded`: blanks around a text do not matter.
- `NodeId.Form`: the forms, and `NodeId.ofText?_of_form`: they are read back.
- `NodeId.ids_read_back`: any form, and the form in which ids are stored.
-/

namespace MeshWatch

/-! ## Characters of a number -/

/-- What holds of the first characters, one by one, holds of every character that is below a
bound. -/
theorem Text.forall_below {P : Char → Prop} {n : Nat} (h : ∀ m : Fin n, P (Char.ofNat m)) {c : Char}
    (hc : c.toNat < n) : P c := by
  have hn := h ⟨c.toNat, hc⟩
  rwa [Char.ofNat_toNat] at hn

/-- The last hexadecimal digit is `'f'`. -/
theorem Hex.toNat_lt_of_value? {c : Char} (hc : (value? c).isSome = true) : c.toNat < 103 := by
  have hle : ∀ d : Char, d.toNat < 103 → c ≤ d → c.toNat < 103 := fun d hd hcd =>
    Nat.lt_of_le_of_lt (UInt32.le_iff_toNat_le.1 hcd) hd
  unfold value? at hc
  split at hc
  · next hd => exact hle '9' (by decide) hd.2
  · split at hc
    · next hd => exact hle 'f' (by decide) hd.2
    · split at hc
      · next hd => exact hle 'F' (by decide) hd.2
      · cases hc

/-- The case of a letter makes no difference to its value. -/
theorem Hex.value?_toLower (c : Char) : value? c.toLower = value? c := by
  rcases Nat.lt_or_ge c.toNat 128 with hlt | hge
  · exact Text.forall_below (P := fun c => value? c.toLower = value? c) (by decide) hlt
  · have hsame : c.toLower = c := by
      refine dif_neg fun hupper => ?_
      have hle : c.toNat ≤ 'Z'.toNat := UInt32.le_iff_toNat_le.1 hupper.2
      exact absurd (Nat.le_trans hge hle) (by decide)
    rw [hsame]

/-- The characters that tell one form from another; no digit is among them. -/
def NodeId.marks : List Char := ['!', 'x', 'X', '^', '+']

theorem Hex.plain {c : Char} (hc : (value? c).isSome = true) :
    Text.isBlank c = false ∧ c.utf8Size = 1 ∧ c ∉ NodeId.marks :=
  Text.forall_below (P := fun c => (value? c).isSome = true →
    Text.isBlank c = false ∧ c.utf8Size = 1 ∧ c ∉ NodeId.marks) (by decide)
    (toNat_lt_of_value? hc) hc

namespace Text

theorem digitsFrom?_toLower {base : Nat} (cs : List Char) : ∀ acc : Nat,
    digitsFrom? base acc (cs.map Char.toLower) = digitsFrom? base acc cs := by
  induction cs with
  | nil => exact fun _ => rfl
  | cons c cs ih =>
    intro acc
    rw [List.map_cons, digitsFrom?, digitsFrom?, digitBelow?, digitBelow?, Hex.value?_toLower]
    split
    · exact ih _
    · rfl

/-- A sign is no digit, so a sequence of digits is read as it is. -/
theorem readWord?_of_digits {base : Nat} {cs : List Char} {w : UInt32} (hne : cs ≠ [])
    (hplus : '+' ∉ cs) (h : digitsFrom? base 0 cs = some w.toNat) : readWord? base cs = some w := by
  have hunsigned : unsigned cs = cs := by
    unfold unsigned
    split
    · exact absurd (List.mem_cons_self ..) hplus
    · rfl
  have hdigits : digits? base cs = some w.toNat := by
    rw [digits?, h]
    exact hne
  have hlt : w.toNat < UInt32.size := w.toNat_lt
  rw [readWord?, readBelow?, hunsigned, hdigits]
  dsimp only
  rw [if_pos hlt, Option.map_some, UInt32.ofNat_toNat]

end Text

/-! ## Hexadecimal digits -/

/-- Digits of a number with as many zeros in front as one likes, and letters of either case. -/
structure Hex.Spells (n : Nat) (cs : List Char) : Prop where
  ne_nil : cs ≠ []
  lt : n < 16 ^ cs.length
  digits : cs.map Char.toLower = Hex.fixed cs.length n

theorem Hex.spells_fixed {n width : Nat} (hwidth : width ≠ 0) (h : n < 16 ^ width) :
    Spells n (fixed width n) := by
  have hlower : ∀ v : Fin 16, (digit v).toLower = digit v := by decide
  refine ⟨?_, ?_, ?_⟩
  · rw [← List.length_pos_iff, length_fixed]
    omega
  · rwa [length_fixed]
  · rw [length_fixed]
    refine (List.map_congr_left fun c hc => ?_).trans (List.map_id _)
    obtain ⟨v, rfl⟩ := exists_digit_of_mem_fixed width n hc
    exact hlower v

theorem Hex.Spells.isSome_value? {n : Nat} {cs : List Char} (h : Spells n cs) {c : Char}
    (hc : c ∈ cs) : (value? c).isSome = true := by
  have hmem : c.toLower ∈ fixed cs.length n := by
    rw [← h.digits]
    exact List.mem_map_of_mem hc
  obtain ⟨v, hv⟩ := exists_digit_of_mem_fixed _ _ hmem
  rw [← value?_toLower, hv, value?_digit]
  rfl

theorem Hex.Spells.marks_not_mem {n : Nat} {cs : List Char} (h : Spells n cs) :
    ∀ c ∈ NodeId.marks, c ∉ cs := fun _ hmark hc => (plain (h.isSome_value? hc)).2.2 hmark

theorem Text.readWord?_of_spells {w : UInt32} {cs : List Char} (h : Hex.Spells w.toNat cs) :
    readWord? 16 cs = some w := by
  refine readWord?_of_digits h.ne_nil (h.marks_not_mem '+' (by decide)) ?_
  rw [← digitsFrom?_toLower, h.digits, digitsFrom?_fixed, Nat.zero_mul, Nat.zero_add,
    Nat.mod_eq_of_lt h.lt]

/-! ## Decimal digits -/

/-- What holds of the ten digits, one by one, holds of every decimal digit. -/
theorem Text.forall_digit {P : Char → Prop}
    (h : ∀ n : Fin 58, (Char.ofNat n).isDigit = true → P (Char.ofNat n)) {c : Char}
    (hc : c.isDigit = true) : P c :=
  forall_below (P := fun c => c.isDigit = true → P c) h
    (Nat.lt_succ_of_le (Char.isDigit_iff_toNat.1 hc).2) hc

theorem Text.digitBelow?_of_isDigit {c : Char} (hc : c.isDigit = true) :
    digitBelow? 10 c = some (c.toNat - '0'.toNat) :=
  forall_digit (P := fun c => digitBelow? 10 c = some (c.toNat - '0'.toNat)) (by decide) hc

theorem Text.plain_of_isDigit {c : Char} (hc : c.isDigit = true) :
    isBlank c = false ∧ c.isAlpha = false ∧ c ∉ NodeId.marks :=
  forall_digit (P := fun c => isBlank c = false ∧ c.isAlpha = false ∧ c ∉ NodeId.marks)
    (by decide) hc

theorem Text.digitsFrom?_of_isDigit (cs : List Char) : ∀ acc : Nat,
    (∀ c ∈ cs, c.isDigit = true) → digitsFrom? 10 acc cs = some (Nat.ofDigitChars 10 cs acc) := by
  induction cs with
  | nil => exact fun _ _ => rfl
  | cons c cs ih =>
    intro acc h
    obtain ⟨hc, hcs⟩ := List.forall_mem_cons.1 h
    rw [digitsFrom?, digitBelow?_of_isDigit hc, Nat.ofDigitChars_cons, Nat.mul_comm]
    exact ih _ hcs

theorem Text.digitsFrom?_toDigits (n : Nat) :
    digitsFrom? 10 0 (Nat.toDigits 10 n) = some n := by
  have hdigits : ∀ c ∈ Nat.toDigits 10 n, c.isDigit = true := fun _ hc =>
    Nat.isDigit_of_mem_toDigits (by decide) (by decide) hc
  rw [digitsFrom?_of_isDigit _ _ hdigits, Nat.ofDigitChars_ten_toDigits]

/-! ## Blanks around a text -/

/-- **Blanks** around a text go with its own. -/
theorem Text.trimmed_padded {lead trail : List Char} (hlead : ∀ c ∈ lead, isBlank c = true)
    (htrail : ∀ c ∈ trail, isBlank c = true) (cs : List Char) :
    trimmed (lead ++ cs ++ trail) = trimmed cs := by
  have hfront : (lead ++ cs ++ trail).dropWhile isBlank
      = if (cs.dropWhile isBlank).isEmpty then [] else cs.dropWhile isBlank ++ trail := by
    rw [List.append_assoc, List.dropWhile_append_of_pos hlead, List.dropWhile_append,
      List.dropWhile_eq_nil_iff.2 htrail]
  unfold trimmed
  rw [hfront]
  split
  · next hempty => rw [List.isEmpty_iff.1 hempty]
  · rw [List.reverse_append, List.dropWhile_append_of_pos]
    exact fun c hc => htrail c (List.mem_reverse.1 hc)

namespace NodeId

theorem ofText?_padded {lead trail : List Char} (hlead : ∀ c ∈ lead, Text.isBlank c = true)
    (htrail : ∀ c ∈ trail, Text.isBlank c = true) (cs : List Char) :
    ofText? (String.ofList (lead ++ cs ++ trail)) = ofText? (String.ofList cs) := by
  simp only [ofText?, String.toList_ofList, Text.trimmed_padded hlead htrail]

/-! ## Forms -/

/-- The characters in which an id may be written. -/
inductive Form (id : NodeId) : List Char → Prop where
  /-- The mark and eight digits, as ids are printed. -/
  | marked : Form id id.chars
  /-- A prefix of either case, and hexadecimal digits. -/
  | withPrefix {x : Char} {cs : List Char} (hx : x = 'x' ∨ x = 'X')
      (h : Hex.Spells id.value.toNat cs) : Form id ('0' :: x :: cs)
  /-- The decimal number. -/
  | decimal : Form id (Nat.toDigits 10 id.value.toNat)
  /-- Eight hexadecimal digits, a letter among them. -/
  | bare {cs : List Char} (h : Hex.Spells id.value.toNat cs) (hlength : cs.length = 8)
      (hletter : cs.any Char.isAlpha = true) : Form id cs

/-- Characters with neither mark nor prefix are a number, hexadecimal or decimal by their shape. -/
theorem ofChars?_unmarked {cs : List Char} (h : ∀ c ∈ marks, c ∉ cs) :
    ofChars? cs = if (String.ofList cs).utf8ByteSize = 8 ∧ cs.any Char.isAlpha then
      Text.readWord? 16 cs else Text.readWord? 10 cs := by
  unfold ofChars?
  split
  · exact absurd (List.mem_cons_self ..) (h '!' (by decide))
  · exact absurd (List.mem_cons_of_mem _ (List.mem_cons_self ..)) (h 'x' (by decide))
  · exact absurd (List.mem_cons_of_mem _ (List.mem_cons_self ..)) (h 'X' (by decide))
  · rfl

theorem utf8ByteSize_ofList {cs : List Char} (h : ∀ c ∈ cs, c.utf8Size = 1) :
    (String.ofList cs).utf8ByteSize = cs.length := by
  induction cs with
  | nil => rfl
  | cons c cs ih =>
    obtain ⟨hc, hcs⟩ := List.forall_mem_cons.1 h
    have hsplit : String.ofList (c :: cs) = String.singleton c ++ String.ofList cs := by
      rw [← String.toList_inj]
      simp
    rw [hsplit, String.utf8ByteSize_append, String.utf8ByteSize_singleton, ih hcs, hc,
      List.length_cons, Nat.add_comm]

variable {id : NodeId} {cs : List Char}

/-- Every form but the printed one is read as a number. -/
theorem ofChars?_of_form (h : id.Form cs) : ofChars? cs = some id.value := by
  cases h with
  | marked => exact Text.readWord?_fixed id.value
  | withPrefix hx h =>
    rcases hx with rfl | rfl
    · exact Text.readWord?_of_spells h
    · exact Text.readWord?_of_spells h
  | decimal =>
    have hplain : ∀ c ∈ Nat.toDigits 10 id.value.toNat,
        Text.isBlank c = false ∧ c.isAlpha = false ∧ c ∉ marks := fun _ hc =>
      Text.plain_of_isDigit (Nat.isDigit_of_mem_toDigits (by decide) (by decide) hc)
    have hletter : (Nat.toDigits 10 id.value.toNat).any Char.isAlpha = false := by
      rw [List.any_eq_false]
      exact fun c hc => by simp [(hplain c hc).2.1]
    have hmarks : ∀ c ∈ marks, c ∉ Nat.toDigits 10 id.value.toNat := fun _ hmark hc =>
      (hplain _ hc).2.2 hmark
    rw [ofChars?_unmarked hmarks, hletter, if_neg fun hshape => Bool.noConfusion hshape.2]
    exact Text.readWord?_of_digits Nat.toDigits_ne_nil (hmarks '+' (by decide))
      (Text.digitsFrom?_toDigits _)
  | bare h hlength hletter =>
    have hsize : (String.ofList cs).utf8ByteSize = 8 := by
      rw [utf8ByteSize_ofList fun c hc => (Hex.plain (h.isSome_value? hc)).2.1, hlength]
    rw [ofChars?_unmarked h.marks_not_mem, if_pos ⟨hsize, hletter⟩]
    exact Text.readWord?_of_spells h

/-- No form has blanks, and none starts like the text for all nodes. -/
theorem Form.plain (h : id.Form cs) : (∀ c ∈ cs, Text.isBlank c = false) ∧ '^' ∉ cs := by
  have hspells : ∀ {cs : List Char}, Hex.Spells id.value.toNat cs →
      (∀ c ∈ cs, Text.isBlank c = false) ∧ '^' ∉ cs := fun h =>
    ⟨fun c hc => (Hex.plain (h.isSome_value? hc)).1, h.marks_not_mem '^' (by decide)⟩
  cases h with
  | marked =>
    have hfixed : Hex.Spells id.value.toNat (Hex.fixed 8 id.value.toNat) :=
      Hex.spells_fixed (by decide) id.value.toNat_lt
    obtain ⟨hblank, hmark⟩ := hspells hfixed
    refine ⟨List.forall_mem_cons.2 ⟨rfl, hblank⟩, ?_⟩
    rw [chars, List.mem_cons, not_or]
    exact ⟨by decide, hmark⟩
  | withPrefix hx h =>
    obtain ⟨hblank, hmark⟩ := hspells h
    rcases hx with rfl | rfl
    · refine ⟨List.forall_mem_cons.2 ⟨rfl, List.forall_mem_cons.2 ⟨rfl, hblank⟩⟩, ?_⟩
      simpa using hmark
    · refine ⟨List.forall_mem_cons.2 ⟨rfl, List.forall_mem_cons.2 ⟨rfl, hblank⟩⟩, ?_⟩
      simpa using hmark
  | decimal =>
    have hdigit : ∀ c ∈ Nat.toDigits 10 id.value.toNat, c.isDigit = true := fun _ hc =>
      Nat.isDigit_of_mem_toDigits (by decide) (by decide) hc
    exact ⟨fun c hc => (Text.plain_of_isDigit (hdigit c hc)).1,
      fun hc => (Text.plain_of_isDigit (hdigit _ hc)).2.2 (by decide)⟩
  | bare h _ _ => exact hspells h

/-- **Every form** of an id is read back. -/
theorem ofText?_of_form (h : id.Form cs) : ofText? (String.ofList cs) = some id := by
  obtain ⟨hblank, hmark⟩ := h.plain
  have hall : String.ofList cs ≠ broadcastText := by
    intro he
    have hcs := congrArg String.toList he
    rw [String.toList_ofList] at hcs
    rw [hcs] at hmark
    exact hmark (by decide)
  simp only [ofText?, String.toList_ofList, Text.trimmed_of_no_blanks hblank]
  rw [if_neg hall, ofChars?_of_form h]
  rfl

/-! ## Stored ids -/

/-- An id is read back from a document that is written for it. -/
theorem read?_pretty_toJson (id : NodeId) :
    (Json.read? id.toJson.pretty).bind ofJson? = some id := by
  have hnone : id.toJson.floats = [] := rfl
  have hfloats : ∀ x ∈ id.toJson.floats, x.ReadsBack := by
    rw [hnone]
    exact fun _ hx => absurd hx List.not_mem_nil
  have hread : Json.read? id.toJson.pretty = some id.toJson.reread :=
    Json.read?_pretty (Json.fits_id id) hfloats
  have hkept : ofJson? id.toJson.reread = some id := Json.kept_id id hfloats
  rw [hread, Option.bind_some, hkept]

/-- **Ids are read back.** Whatever id it is, each of its forms names it, whatever blanks stand
around it; no other id is printed like it; and every text that names it can be replaced by the
printed form, in print and in a document. -/
theorem ids_read_back (id : NodeId) :
    (∀ cs, id.Form cs → ∀ lead trail : List Char, (∀ c ∈ lead, Text.isBlank c = true) →
      (∀ c ∈ trail, Text.isBlank c = true) →
      ofText? (String.ofList (lead ++ cs ++ trail)) = some id) ∧
    (∀ other : NodeId, other.text = id.text → other = id) ∧
    ∀ s, ofText? s = some id → ofText? id.text = some id ∧
      (Json.read? id.toJson.pretty).bind ofJson? = some id := by
  refine ⟨fun cs h lead trail hlead htrail => ?_, fun other h => ?_, fun s _ => ?_⟩
  · rw [ofText?_padded hlead htrail]
    exact ofText?_of_form h
  · have hother := other.ofText?_text
    rw [h, ofText?_text] at hother
    exact (Option.some.inj hother).symm
  · exact ⟨id.ofText?_text, id.read?_pretty_toJson⟩

/-- One id in its four forms, with spaces of several kinds around them. -/
theorem id_in_four_forms :
    ofText? "\u2003!a1b2c3d4\n" = some ⟨0xa1b2c3d4⟩ ∧
    ofText? "\t0X00A1b2C3d4" = some ⟨0xa1b2c3d4⟩ ∧
    ofText? " 2712847316\u00a0" = some ⟨0xa1b2c3d4⟩ ∧
    ofText? "a1B2c3D4\u0085" = some ⟨0xa1b2c3d4⟩ ∧
    (Json.read? (toJson ⟨0xa1b2c3d4⟩).pretty).bind ofJson? = some ⟨0xa1b2c3d4⟩ := by
  obtain ⟨hforms, -, hstored⟩ := ids_read_back ⟨0xa1b2c3d4⟩
  have hten : Hex.Spells 0xa1b2c3d4 "00A1b2C3d4".toList := ⟨by decide, by decide, by decide⟩
  have height : Hex.Spells 0xa1b2c3d4 "a1B2c3D4".toList := ⟨by decide, by decide, by decide⟩
  have hblank : ∀ c : Char, Text.isBlank c = true → ∀ d ∈ [c], Text.isBlank d = true := fun _ h =>
    List.forall_mem_singleton.2 h
  have hnone : ∀ d ∈ ([] : List Char), Text.isBlank d = true := List.forall_mem_nil _
  have hmarked := hforms _ .marked _ _ (hblank '\u2003' rfl) (hblank '\n' rfl)
  have hlong := hforms _ (.withPrefix (.inr rfl) hten) _ _ (hblank '\t' rfl) hnone
  have hdecimal := hforms _ .decimal _ _ (hblank ' ' rfl) (hblank '\u00a0' rfl)
  have hbare := hforms _ (.bare height rfl (by decide)) _ _ hnone (hblank '\u0085' rfl)
  exact ⟨hmarked, hlong, hdecimal, hbare, (hstored _ hmarked).2⟩

end NodeId

end MeshWatch
