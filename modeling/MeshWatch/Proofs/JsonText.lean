import MeshWatch.Json.Record
import MeshWatch.Proofs.NumberText

/-!
# The text of documents

A document is read back from its text: every string, every integer, and every float that
is read back from its own text. The members of an object come back in the order of their
names.

- `readString_stringLiteral`: strings.
- `reread`: what is read from the text of a document, and `Fits`: which documents the
  reader does not refuse.
- `readValue_prettyAt`, `read?_pretty`: that it is so.
-/

namespace MeshWatch.Json

variable {tail : List Char}

/-! ## Strings -/

theorem fixed_four (n : Fin 32) :
    Hex.fixed 4 n.val = ['0', '0', Hex.digit (n.val / 16), Hex.digit (n.val % 16)] := by
  revert n
  decide

theorem codeUnit?_control (n : Fin 32) :
    codeUnit? '0' '0' (Hex.digit (n.val / 16)) (Hex.digit (n.val % 16)) = some n.val := by
  revert n
  decide

theorem readString_control {c : Char} (h : c.toNat < 0x20) (acc rest : List Char) :
    readString none acc ('\\' :: 'u' :: Hex.fixed 4 c.toNat ++ rest)
      = readString none (c :: acc) rest := by
  have hd := fixed_four ⟨c.toNat, h⟩
  have hu := codeUnit?_control ⟨c.toNat, h⟩
  dsimp only at hd hu
  have hhigh : ¬ (0xD800 ≤ c.toNat ∧ c.toNat ≤ 0xDBFF) := by omega
  have hlow : ¬ (0xDC00 ≤ c.toNat ∧ c.toNat ≤ 0xDFFF) := by omega
  rw [hd]
  simp only [List.cons_append, List.nil_append]
  rw [readString.eq_3 _ _ _ _ _ _ _ hu, if_neg hhigh, if_neg hlow, Char.ofNat_toNat]

/-- A character that stands for itself. -/
theorem readString_plain {c : Char} (hquote : c ≠ '"') (hslash : c ≠ '\\')
    (h : ¬ c.toNat < 0x20) (acc rest : List Char) :
    readString none acc (c :: rest) = readString none (c :: acc) rest := by
  rw [readString]
  · rw [if_neg (by simp [h, hslash])]
  · exact fun _ _ _ _ _ hc _ => hslash hc
  · exact fun _ _ hc _ => hslash hc
  · exact hquote

/-- A character is read back from what is written for it. -/
theorem readString_escapedChar (c : Char) (acc rest : List Char) :
    readString none acc (escapedChar c ++ rest) = readString none (c :: acc) rest := by
  have hchar : ∀ n, c.toNat = n → c = Char.ofNat n := fun n h => by rw [← h, Char.ofNat_toNat]
  unfold escapedChar
  by_cases hquote : c = '"'
  · subst hquote
    simp [readString, escapeLetter?]
  by_cases hslash : c = '\\'
  · subst hslash
    simp [readString, escapeLetter?]
  rw [if_neg hquote, if_neg hslash]
  split
  · next h =>
    rw [hchar _ h]
    rfl
  split
  · next h =>
    rw [hchar _ h]
    rfl
  split
  · next h =>
    rw [h]
    rfl
  split
  · next h =>
    rw [h]
    rfl
  split
  · next h =>
    rw [h]
    rfl
  split
  · next h => exact readString_control h acc rest
  · next h => exact readString_plain hquote hslash h acc rest

theorem readString_escaped (cs : List Char) : ∀ acc rest,
    readString none acc (cs.flatMap escapedChar ++ '"' :: rest)
      = some (String.ofList (acc.reverse ++ cs), rest) := by
  induction cs with
  | nil =>
    intro acc rest
    simp [readString]
  | cons c cs ih =>
    intro acc rest
    rw [List.flatMap_cons, List.append_assoc, readString_escapedChar, ih]
    simp

theorem readString_stringLiteral (s : String) (rest : List Char) :
    ∃ cs, (stringLiteral s).toList ++ rest = '"' :: cs
      ∧ readString none [] cs = some (s, rest) := by
  refine ⟨s.toList.flatMap escapedChar ++ '"' :: rest, ?_, ?_⟩
  · simp [stringLiteral]
  · rw [readString_escaped]
    simp

/-! ## Documents -/

/-- A float is read back from its text; this is so for all other values. -/
def ReadsBack : Json → Prop
  | .single x => (read? (scalarText (.single x))).bind readSingle = some x
  | .double x => (read? (scalarText (.double x))).bind readDouble = some x
  | _ => True

instance : (j : Json) → Decidable j.ReadsBack
  | .single x => inferInstanceAs (Decidable (Option.bind _ readSingle = some x))
  | .double x => inferInstanceAs (Decidable (Option.bind _ readDouble = some x))
  | .null | .bool _ | .int _ | .string _ | .array _ | .object _ => .isTrue trivial

mutual

/-- The floats of a document. -/
def floats : Json → List Json
  | .single x => [.single x]
  | .double x => [.double x]
  | .array xs => itemFloats xs
  | .object ms => memberFloats ms
  | _ => []

def itemFloats : List Json → List Json
  | [] => []
  | x :: xs => floats x ++ itemFloats xs

def memberFloats : List (String × Json) → List Json
  | [] => []
  | (_, v) :: ms => floats v ++ memberFloats ms

end

mutual

/-- What is read from the text of a document. -/
def reread : Json → Json
  | .single x => (read? (scalarText (.single x))).getD .null
  | .double x => (read? (scalarText (.double x))).getD .null
  | .array xs => .array (rereadItems xs)
  | .object ms => .object (rereadMembers [] ms)
  | j => j

def rereadItems : List Json → List Json
  | [] => []
  | x :: xs => reread x :: rereadItems xs

/-- Adds members to those that were read before. -/
def rereadMembers (acc : Members) : List (String × Json) → Members
  | [] => acc
  | (k, v) :: ms => rereadMembers (insertMember k (reread v) acc) ms

end

/-- Integers fit 64 bits, and arrays and objects are nested at most so deep. -/
def Fits : Nat → Json → Prop
  | _, .int n => -0x8000000000000000 ≤ n ∧ n < wordBound
  | 0, .array _ => False
  | 0, .object _ => False
  | d + 1, .array xs => ∀ x ∈ xs, Fits d x
  | d + 1, .object ms => ∀ m ∈ ms, Fits d m.2
  | _, _ => True

theorem skipSpace_lineBreak (level : Nat) (cs : List Char) :
    skipSpace ((lineBreak level).toList ++ cs) = skipSpace cs := by
  have hall : ∀ c ∈ (lineBreak level).toList, isSpace c = true := by
    intro c hc
    rw [lineBreak, String.toList_ofList] at hc
    rcases List.mem_cons.1 hc with rfl | hc
    · rfl
    · rw [(List.mem_replicate.1 hc).2]
      rfl
  exact List.dropWhile_append_of_pos hall

/-- The text of a value begins with a character that is no blank and closes nothing. -/
def Opens (cs : List Char) : Prop :=
  ∃ c rest, cs = c :: rest ∧ isSpace c = false ∧ c ≠ ']' ∧ c ≠ '\x7d'

theorem IsNumberText.opens {t : List Char} (h : IsNumberText t) : Opens t := by
  obtain ⟨c, cs, rfl, hc⟩ := h.starts
  refine ⟨c, cs, rfl, h.unspaced c (List.mem_cons_self ..), ?_, ?_⟩
  · rintro rfl
    cases hc
  · rintro rfl
    cases hc

theorem opens_write? {l : Decimal.Layout} {f : Ieee.Format} {v : Ieee.Value} :
    Opens ((l.write? f v).elim "null" String.ofList).toList := by
  cases h : l.write? f v with
  | none => exact ⟨'n', ['u', 'l', 'l'], rfl, by decide⟩
  | some t =>
    rw [Option.elim_some, String.toList_ofList]
    exact (isNumberText_write? h).opens

theorem opens_scalarText (j : Json) : Opens (scalarText j).toList := by
  cases j with
  | null => exact ⟨'n', ['u', 'l', 'l'], rfl, by decide⟩
  | bool b =>
    cases b with
    | true => exact ⟨'t', ['r', 'u', 'e'], rfl, by decide⟩
    | false => exact ⟨'f', ['a', 'l', 's', 'e'], rfl, by decide⟩
  | int n =>
    rw [scalarText, String.toList_ofList]
    exact (isNumberText_integerChars n).opens
  | double x => exact opens_write?
  | single x => exact opens_write?
  | string s =>
    rw [scalarText, stringLiteral, String.toList_ofList]
    exact ⟨'"', _, rfl, by decide⟩
  | array => exact ⟨'[', [']'], by simp [scalarText], by decide⟩
  | object => exact ⟨'\x7b', ['\x7d'], by simp [scalarText], by decide⟩

theorem opens_stringLiteral (s : String) : Opens (stringLiteral s).toList := by
  rw [stringLiteral, String.toList_ofList]
  exact ⟨'"', _, rfl, by decide⟩

theorem opens_prettyAt (level : Nat) (j : Json) : Opens (prettyAt level j).toList := by
  cases j with
  | array xs =>
    cases xs with
    | nil => exact ⟨'[', [']'], by simp [prettyAt], by decide⟩
    | cons x xs =>
      simp only [prettyAt, String.toList_append, List.append_assoc]
      exact ⟨'[', _, rfl, by decide⟩
  | object ms =>
    cases ms with
    | nil => exact ⟨'\x7b', ['\x7d'], by simp [prettyAt], by decide⟩
    | cons m ms =>
      simp only [prettyAt, String.toList_append, List.append_assoc]
      exact ⟨'\x7b', _, rfl, by decide⟩
  | _ => exact opens_scalarText _

theorem readValue_lineBreak (fuel depth level : Nat) (cs : List Char) :
    readValue fuel depth ((lineBreak level).toList ++ cs) = readValue fuel depth cs := by
  rw [readValue.eq_def, readValue.eq_def fuel depth cs, skipSpace_lineBreak]

theorem readMembers_lineBreak (fuel depth level : Nat) (acc : Members) (cs : List Char) :
    readMembers fuel depth acc ((lineBreak level).toList ++ cs)
      = readMembers fuel depth acc cs := by
  rw [readMembers.eq_def, readMembers.eq_def fuel depth acc cs, skipSpace_lineBreak]

/-! ### Values that hold no others -/

theorem readValue_null (fuel depth : Nat) :
    readValue (fuel + 1) depth ((scalarText .null).toList ++ tail) = some (.null, tail) := rfl

theorem readValue_bool (b : Bool) (fuel depth : Nat) :
    readValue (fuel + 1) depth ((scalarText (.bool b)).toList ++ tail) = some (.bool b, tail) := by
  cases b with
  | true => rfl
  | false => rfl

theorem readValue_string (s : String) (fuel depth : Nat) :
    readValue (fuel + 1) depth ((stringLiteral s).toList ++ tail) = some (.string s, tail) := by
  obtain ⟨cs, hcs, hread⟩ := readString_stringLiteral s tail
  rw [hcs, readValue.eq_def, skipSpace_of_not_isSpace rfl]
  show (readString none [] cs).map (fun x => (Json.string x.1, x.2)) = some (.string s, tail)
  rw [hread]
  rfl

theorem readValue_int {n : Int} (hlow : -0x8000000000000000 ≤ n) (hhigh : n < wordBound)
    (hs : StopsNumber tail) (fuel depth : Nat) :
    readValue (fuel + 1) depth ((scalarText (.int n)).toList ++ tail) = some (.int n, tail) := by
  have hread := readSigned_integerChars hlow hhigh hs
  rw [scalarText, String.toList_ofList]
  obtain ⟨c, cs, hcs, hc⟩ := (isNumberText_integerChars n).starts
  rw [hcs] at hread ⊢
  rw [List.cons_append, readValue_number hc]
  exact hread

theorem read?_null : read? "null" = some .null := rfl

theorem readValue_float {l : Decimal.Layout} {f : Ieee.Format} {v : Ieee.Value} {α : Type}
    {read : Json → Option α} {a : α} (hnull : read .null = none)
    (h : (read? ((l.write? f v).elim "null" String.ofList)).bind read = some a)
    (hs : StopsNumber tail) (fuel depth : Nat) :
    readValue (fuel + 1) depth (((l.write? f v).elim "null" String.ofList).toList ++ tail)
      = some ((read? ((l.write? f v).elim "null" String.ofList)).getD .null, tail) := by
  obtain ⟨j, hj, hread⟩ := Option.bind_eq_some_iff.1 h
  cases ht : l.write? f v with
  | none =>
    -- such a float is written as null, and not read back
    rw [ht, Option.elim_none, read?_null] at hj
    cases hj
    rw [hnull] at hread
    cases hread
  | some t =>
    rw [ht, Option.elim_some] at hj
    rw [Option.elim_some, hj, String.toList_ofList]
    exact readValue_of_read? (isNumberText_write? ht) hj hs fuel depth

/-! ### Arrays and objects -/

theorem stopsNumber_lineBreak (level : Nat) (cs : List Char) :
    StopsNumber ((lineBreak level).toList ++ cs) := by
  rw [lineBreak, String.toList_ofList, List.cons_append]
  exact stopsNumber_cons (by decide) _

theorem Opens.skipSpace {cs : List Char} (h : Opens cs) (tail : List Char) :
    skipSpace (cs ++ tail) = cs ++ tail := by
  obtain ⟨c, rest, rfl, hspace, -⟩ := h
  exact skipSpace_of_not_isSpace hspace _

theorem readValue_emptyArray (fuel depth : Nat) :
    readValue (fuel + 1) (depth + 1) ('[' :: ']' :: tail) = some (.array [], tail) := rfl

theorem readValue_emptyObject (fuel depth : Nat) :
    readValue (fuel + 1) (depth + 1) ('\x7b' :: '\x7d' :: tail) = some (.object [], tail) := rfl

/-- An array that begins with a value is read item by item. -/
theorem readValue_array {cs : List Char} (h : Opens cs) (fuel depth level : Nat) :
    readValue (fuel + 1) (depth + 1) ('[' :: ((lineBreak level).toList ++ (cs ++ tail)))
      = (readItems fuel depth (cs ++ tail)).map fun (xs, r) => (.array xs, r) := by
  rw [readValue, skipSpace_of_not_isSpace rfl]
  simp only [if_neg (Nat.succ_ne_zero depth), Nat.add_sub_cancel, skipSpace_lineBreak, h.skipSpace]
  obtain ⟨c, rest, rfl, -, hclose, -⟩ := h
  split
  · next heq => cases heq; exact absurd rfl hclose
  · rfl

/-- An object that begins with a name is read member by member. -/
theorem readValue_object {cs : List Char} (h : Opens cs) (fuel depth level : Nat) :
    readValue (fuel + 1) (depth + 1) ('\x7b' :: ((lineBreak level).toList ++ (cs ++ tail)))
      = (readMembers fuel depth [] (cs ++ tail)).map fun (ms, r) => (.object ms, r) := by
  rw [readValue, skipSpace_of_not_isSpace rfl]
  simp only [if_neg (Nat.succ_ne_zero depth), Nat.add_sub_cancel, skipSpace_lineBreak, h.skipSpace]
  obtain ⟨c, rest, rfl, -, -, hclose⟩ := h
  split
  · next heq => cases heq; exact absurd rfl hclose
  · rfl

theorem readItems_last {fuel depth level : Nat} {cs : List Char} {v : Json}
    (h : readValue fuel depth cs = some (v, (lineBreak level).toList ++ ']' :: tail)) :
    readItems (fuel + 1) depth cs = some ([v], tail) := by
  rw [readItems, h]
  dsimp only
  rw [skipSpace_lineBreak, skipSpace_of_not_isSpace rfl]
  rfl

theorem readItems_next {fuel depth : Nat} {cs : List Char} {v : Json}
    (h : readValue fuel depth cs = some (v, ',' :: tail)) :
    readItems (fuel + 1) depth cs
      = (readItems fuel depth tail).map fun (xs, r) => (v :: xs, r) := by
  rw [readItems, h]
  dsimp only
  rw [skipSpace_of_not_isSpace rfl]
  rfl

theorem readValue_blank (fuel depth : Nat) (cs : List Char) :
    readValue fuel depth (' ' :: cs) = readValue fuel depth cs := by
  rw [readValue.eq_def, readValue.eq_def fuel depth cs]
  rfl

/-- A member is stored under its name, and it may be the last one. -/
theorem readMembers_last {fuel depth level : Nat} {cs : List Char} {key : String} {v : Json}
    (acc : Members)
    (h : readValue fuel depth cs = some (v, (lineBreak level).toList ++ '\x7d' :: tail)) :
    readMembers (fuel + 1) depth acc ((stringLiteral key).toList ++ ':' :: ' ' :: cs)
      = some (insertMember key v acc, tail) := by
  obtain ⟨text, htext, hread⟩ := readString_stringLiteral key (':' :: ' ' :: cs)
  rw [htext, readMembers, skipSpace_of_not_isSpace rfl]
  simp only [hread, skipSpace_of_not_isSpace (c := ':') rfl, readValue_blank, h,
    skipSpace_lineBreak, skipSpace_of_not_isSpace (c := '\x7d') rfl]

theorem readMembers_next {fuel depth : Nat} {cs : List Char} {key : String} {v : Json}
    (acc : Members) (h : readValue fuel depth cs = some (v, ',' :: tail)) :
    readMembers (fuel + 1) depth acc ((stringLiteral key).toList ++ ':' :: ' ' :: cs)
      = readMembers fuel depth (insertMember key v acc) tail := by
  obtain ⟨text, htext, hread⟩ := readString_stringLiteral key (':' :: ' ' :: cs)
  rw [htext, readMembers, skipSpace_of_not_isSpace rfl]
  simp only [hread, skipSpace_of_not_isSpace (c := ':') rfl, readValue_blank, h,
    skipSpace_of_not_isSpace (c := ',') rfl]

theorem length_pos_prettyAt (level : Nat) (j : Json) : 0 < (prettyAt level j).toList.length := by
  obtain ⟨c, rest, hopen, -⟩ := opens_prettyAt level j
  rw [hopen]
  exact Nat.succ_pos _

theorem fits_int {d : Nat} {n : Int} :
    Fits d (.int n) ↔ -0x8000000000000000 ≤ n ∧ n < wordBound := by
  cases d <;> exact Iff.rfl

theorem prettyItems_cons (level : Nat) (x : Json) (xs : List Json) :
    (prettyItems level (x :: xs)).toList = ',' :: ((lineBreak (level + 1)).toList
      ++ ((prettyAt (level + 1) x).toList ++ (prettyItems level xs).toList)) := by
  simp [prettyItems]

theorem prettyMembers_cons (level : Nat) (k : String) (v : Json) (ms : List (String × Json)) :
    (prettyMembers level ((k, v) :: ms)).toList = ',' :: ((lineBreak (level + 1)).toList
      ++ ((stringLiteral k).toList ++ ':' :: ' ' :: ((prettyAt (level + 1) v).toList
      ++ (prettyMembers level ms).toList))) := by
  simp [prettyMembers]

theorem prettyAt_array (level : Nat) (x : Json) (xs : List Json) :
    (prettyAt level (.array (x :: xs))).toList = '[' :: ((lineBreak (level + 1)).toList
      ++ ((prettyAt (level + 1) x).toList ++ ((prettyItems level xs).toList
      ++ ((lineBreak level).toList ++ [']'])))) := by
  simp [prettyAt]

theorem prettyAt_object (level : Nat) (k : String) (v : Json) (ms : List (String × Json)) :
    (prettyAt level (.object ((k, v) :: ms))).toList = '\x7b' :: ((lineBreak (level + 1)).toList
      ++ ((stringLiteral k).toList ++ ':' :: ' ' :: ((prettyAt (level + 1) v).toList
      ++ ((prettyMembers level ms).toList ++ ((lineBreak level).toList ++ ['\x7d']))))) := by
  simp [prettyAt]

theorem stopsNumber_prettyItems (level : Nat) (xs : List Json) (cs : List Char) :
    StopsNumber ((prettyItems level xs).toList ++ ((lineBreak level).toList ++ cs)) := by
  cases xs with
  | nil => exact stopsNumber_lineBreak level cs
  | cons x xs =>
    rw [prettyItems_cons]
    exact stopsNumber_cons (by decide) _

theorem stopsNumber_prettyMembers (level : Nat) (ms : List (String × Json)) (cs : List Char) :
    StopsNumber ((prettyMembers level ms).toList ++ ((lineBreak level).toList ++ cs)) := by
  cases ms with
  | nil => exact stopsNumber_lineBreak level cs
  | cons m ms =>
    rw [prettyMembers_cons]
    exact stopsNumber_cons (by decide) _

mutual

/-- **A document is read back from its text.** -/
theorem readValue_prettyAt : ∀ (j : Json) (level fuel depth : Nat) (tail : List Char),
    Fits depth j → (∀ x ∈ j.floats, x.ReadsBack) → StopsNumber tail →
    (prettyAt level j).toList.length ≤ fuel →
    readValue fuel depth ((prettyAt level j).toList ++ tail) = some (j.reread, tail)
  | j, level, 0, depth, tail => fun _ _ _ hfuel =>
    absurd (length_pos_prettyAt level j) (by omega)
  | .null, _, fuel + 1, depth, tail => fun _ _ _ _ => readValue_null fuel depth
  | .bool b, _, fuel + 1, depth, tail => fun _ _ _ _ => readValue_bool b fuel depth
  | .int n, _, fuel + 1, depth, tail => fun hfits _ hs _ =>
    readValue_int (fits_int.1 hfits).1 (fits_int.1 hfits).2 hs fuel depth
  | .double x, _, fuel + 1, depth, tail => fun _ hfloats hs _ =>
    readValue_float rfl (hfloats (.double x) (List.mem_singleton_self _)) hs fuel depth
  | .single x, _, fuel + 1, depth, tail => fun _ hfloats hs _ =>
    readValue_float rfl (hfloats (.single x) (List.mem_singleton_self _)) hs fuel depth
  | .string s, _, fuel + 1, depth, tail => fun _ _ _ _ => readValue_string s fuel depth
  | .array [], level, fuel + 1, 0, tail => fun hfits => hfits.elim
  | .array [], level, fuel + 1, depth + 1, tail => fun _ _ _ _ => by
    have htext : (prettyAt level (.array [])).toList = ['[', ']'] := by simp [prettyAt]
    rw [htext]
    exact readValue_emptyArray fuel depth
  | .array (x :: xs), level, fuel + 1, 0, tail => fun hfits => hfits.elim
  | .array (x :: xs), level, 0 + 1, depth + 1, tail => fun _ _ _ hfuel => by
    rw [prettyAt_array, List.length_cons, List.length_append, List.length_append] at hfuel
    have := length_pos_prettyAt (level + 1) x
    omega
  | .array (x :: xs), level, fuel + 1 + 1, depth + 1, tail => by
    intro hfits hfloats hs hfuel
    obtain ⟨hx, hxs⟩ := List.forall_mem_cons.1 hfits
    obtain ⟨hfx, hfxs⟩ := List.forall_mem_append.1 hfloats
    rw [prettyAt_array] at hfuel ⊢
    simp only [List.length_cons, List.length_append, List.length_nil] at hfuel
    have hv := readValue_prettyAt x (level + 1) fuel depth
      ((prettyItems level xs).toList ++ ((lineBreak level).toList ++ ']' :: tail)) hx hfx
      (stopsNumber_prettyItems level xs _) (by omega)
    have hitems := readItems_prettyItems xs level fuel depth _ tail _ hv hxs hfxs (by omega)
    simp only [List.cons_append, List.append_assoc, List.nil_append]
    rw [readValue_array (opens_prettyAt (level + 1) x), hitems]
    rfl
  | .object [], level, fuel + 1, 0, tail => fun hfits => hfits.elim
  | .object [], level, fuel + 1, depth + 1, tail => fun _ _ _ _ => by
    have htext : (prettyAt level (.object [])).toList = ['\x7b', '\x7d'] := by simp [prettyAt]
    rw [htext]
    exact readValue_emptyObject fuel depth
  | .object ((k, v) :: ms), level, fuel + 1, 0, tail => fun hfits => hfits.elim
  | .object ((k, v) :: ms), level, 0 + 1, depth + 1, tail => fun _ _ _ hfuel => by
    rw [prettyAt_object, List.length_cons, List.length_append, List.length_append,
      List.length_cons] at hfuel
    omega
  | .object ((k, v) :: ms), level, fuel + 1 + 1, depth + 1, tail => by
    intro hfits hfloats hs hfuel
    obtain ⟨hx, hxs⟩ := List.forall_mem_cons.1 hfits
    obtain ⟨hfx, hfxs⟩ := List.forall_mem_append.1 hfloats
    rw [prettyAt_object] at hfuel ⊢
    simp only [List.length_cons, List.length_append, List.length_nil] at hfuel
    have hv := readValue_prettyAt v (level + 1) fuel depth
      ((prettyMembers level ms).toList ++ ((lineBreak level).toList ++ '\x7d' :: tail)) hx hfx
      (stopsNumber_prettyMembers level ms _) (by omega)
    have hmembers := readMembers_prettyMembers ms level fuel depth _ tail k _ [] hv hxs hfxs
      (by omega)
    simp only [List.cons_append, List.append_assoc, List.nil_append]
    rw [readValue_object (opens_stringLiteral k), hmembers]
    rfl

/-- Once an item was read, the others are read up to the end of the array. -/
theorem readItems_prettyItems : ∀ (xs : List Json) (level fuel depth : Nat) (cs tail : List Char)
    (v : Json), readValue fuel depth cs
      = some (v, (prettyItems level xs).toList ++ ((lineBreak level).toList ++ ']' :: tail)) →
    (∀ x ∈ xs, Fits depth x) → (∀ x ∈ itemFloats xs, x.ReadsBack) →
    (prettyItems level xs).toList.length ≤ fuel →
    readItems (fuel + 1) depth cs = some (v :: rereadItems xs, tail)
  | [], level, fuel, depth, cs, tail, v => fun hv _ _ _ => readItems_last hv
  | x :: xs, level, 0, depth, cs, tail, v => fun _ _ _ hfuel => by
    rw [prettyItems_cons, List.length_cons] at hfuel
    omega
  | x :: xs, level, fuel + 1, depth, cs, tail, v => by
    intro hv hfits hfloats hfuel
    obtain ⟨hx, hxs⟩ := List.forall_mem_cons.1 hfits
    obtain ⟨hfx, hfxs⟩ := List.forall_mem_append.1 hfloats
    rw [prettyItems_cons] at hv hfuel
    simp only [List.length_cons, List.length_append] at hfuel
    simp only [List.cons_append, List.append_assoc] at hv
    have hx' := readValue_prettyAt x (level + 1) fuel depth
      ((prettyItems level xs).toList ++ ((lineBreak level).toList ++ ']' :: tail)) hx hfx
      (stopsNumber_prettyItems level xs _) (by omega)
    rw [← readValue_lineBreak fuel depth (level + 1)] at hx'
    rw [readItems_next hv,
      readItems_prettyItems xs level fuel depth _ tail _ hx' hxs hfxs (by omega)]
    rfl

/-- Once a member was stored, the others are stored up to the end of the object. -/
theorem readMembers_prettyMembers : ∀ (ms : List (String × Json)) (level fuel depth : Nat)
    (cs tail : List Char) (key : String) (v : Json) (acc : Members), readValue fuel depth cs
      = some (v, (prettyMembers level ms).toList ++ ((lineBreak level).toList ++ '\x7d' :: tail)) →
    (∀ m ∈ ms, Fits depth m.2) → (∀ x ∈ memberFloats ms, x.ReadsBack) →
    (prettyMembers level ms).toList.length ≤ fuel →
    readMembers (fuel + 1) depth acc ((stringLiteral key).toList ++ ':' :: ' ' :: cs)
      = some (rereadMembers (insertMember key v acc) ms, tail)
  | [], level, fuel, depth, cs, tail, key, v, acc => fun hv _ _ _ => readMembers_last acc hv
  | (k, w) :: ms, level, 0, depth, cs, tail, key, v, acc => fun _ _ _ hfuel => by
    rw [prettyMembers_cons, List.length_cons] at hfuel
    omega
  | (k, w) :: ms, level, fuel + 1, depth, cs, tail, key, v, acc => by
    intro hv hfits hfloats hfuel
    obtain ⟨hx, hxs⟩ := List.forall_mem_cons.1 hfits
    obtain ⟨hfx, hfxs⟩ := List.forall_mem_append.1 hfloats
    rw [prettyMembers_cons] at hv hfuel
    simp only [List.length_cons, List.length_append] at hfuel
    simp only [List.cons_append, List.append_assoc] at hv
    have hw := readValue_prettyAt w (level + 1) fuel depth
      ((prettyMembers level ms).toList ++ ((lineBreak level).toList ++ '\x7d' :: tail)) hx hfx
      (stopsNumber_prettyMembers level ms _) (by omega)
    rw [readMembers_next acc hv, readMembers_lineBreak]
    exact readMembers_prettyMembers ms level fuel depth _ tail k _ _ hw hxs hfxs (by omega)

end

theorem read?_pretty {j : Json} (hfits : Fits maxDepth j) (hfloats : ∀ x ∈ j.floats, x.ReadsBack) :
    read? j.pretty = some j.reread := by
  have hread := readValue_prettyAt j 0 (2 * (prettyAt 0 j).toList.length + 2) maxDepth [] hfits
    hfloats stopsNumber_nil (by omega)
  rw [List.append_nil] at hread
  unfold read? pretty
  dsimp only
  rw [hread]
  rfl

end MeshWatch.Json
