import Mathlib.Algebra.Ring.Nat
import MeshWatch.Mesh.Channel
import MeshWatch.NodeId
import MeshWatch.NodeRole
import MeshWatch.Proofs.JsonText

/-!
# Values that survive being stored

What is written into a document is found there again, if the floats in it are read back
from their digits. A record is kept if each of its fields is, and then no field has to
fall back on what stands in for a missing one.

- `Kept`: a value is what is read from the text that is written for it.
- `kept_record`, `Stored.required`, `Stored.defaulted`, `Stored.optional`: a record and
  its fields, `kept_list`: a list.
- `NodeId.ofText?_text`: ids are read back from their text.
- `Fits`, with the lemmas about it: nothing is nested too deeply to be read.
-/

namespace MeshWatch

namespace Json

/-! ## Members -/

theorem get?_rereadMembers_of_notMem {k : String} (ms : List (String × Json)) : ∀ acc : Members,
    k ∉ ms.map Prod.fst → (rereadMembers acc ms).get? k = acc.get? k := by
  induction ms with
  | nil => exact fun _ _ => rfl
  | cons m ms ih =>
    intro acc hk
    obtain ⟨k', v⟩ := m
    have hne : k ≠ k' := fun he => hk (he ▸ List.mem_cons_self ..)
    have hms : k ∉ ms.map Prod.fst := fun hm => hk (List.mem_cons_of_mem _ hm)
    show (rereadMembers (insertMember k' v.reread acc) ms).get? k = acc.get? k
    rw [ih _ hms, lookup_insertMember, if_neg hne]

/-- Members of different names are all read back. -/
theorem get?_rereadMembers {k : String} {v : Json} (ms : List (String × Json)) : ∀ acc : Members,
    (ms.map Prod.fst).Nodup → (k, v) ∈ ms → (rereadMembers acc ms).get? k = some v.reread := by
  induction ms with
  | nil => exact fun _ _ h => absurd h List.not_mem_nil
  | cons m ms ih =>
    intro acc hnodup hmem
    obtain ⟨hm, hms⟩ := List.nodup_cons.1 hnodup
    rcases List.mem_cons.1 hmem with rfl | hmem
    · show (rereadMembers (insertMember k v.reread acc) ms).get? k = some v.reread
      rw [get?_rereadMembers_of_notMem ms _ hm, lookup_insertMember, if_pos rfl]
    · exact ih _ hms hmem

theorem floats_subset_memberFloats {k : String} {v : Json} {ms : List (String × Json)}
    (h : (k, v) ∈ ms) : v.floats ⊆ memberFloats ms := by
  induction ms with
  | nil => cases h
  | cons m ms ih =>
    rcases List.mem_cons.1 h with rfl | h
    · exact List.subset_append_left ..
    · exact List.Subset.trans (ih h) (List.subset_append_right ..)

variable {α : Type} {write : α → Json} {read : Json → Option α} {a : α}

/-- A value is what is read from the text that is written for it, if the floats in that text
are read back. -/
def Kept (write : α → Json) (read : Json → Option α) (a : α) : Prop :=
  (∀ x ∈ (write a).floats, x.ReadsBack) → read (write a).reread = some a

/-- Members as they are found in a record that was read again. -/
structure Stored (ms rs : Members) : Prop where
  get : ∀ k v, (k, v) ∈ ms → rs.get? k = some v.reread
  floats : ∀ x ∈ memberFloats ms, x.ReadsBack

theorem stored_rereadMembers {ms : Members} (hnodup : (ms.map Prod.fst).Nodup)
    (hfloats : ∀ x ∈ memberFloats ms, x.ReadsBack) : Stored ms (rereadMembers [] ms) :=
  ⟨fun _ _ hmem => get?_rereadMembers ms [] hnodup hmem, hfloats⟩

theorem kept_record {ms : Members} {names : List String} (hw : write a = .object ms)
    (hnames : ms.map Prod.fst = names) (hnodup : names.Nodup)
    (h : ∀ rs, Stored ms rs → read (.object rs) = some a) : Kept write read a := by
  intro hfloats
  rw [hw] at hfloats ⊢
  exact h _ (stored_rereadMembers (hnames ▸ hnodup) hfloats)

namespace Stored

variable {ms rs : Members} {key : String}

theorem kept (h : Stored ms rs) (hmem : (key, write a) ∈ ms) (hk : Kept write read a) :
    read (write a).reread = some a :=
  hk fun x hx => h.floats x (floats_subset_memberFloats hmem hx)

theorem required (h : Stored ms rs) (hmem : (key, write a) ∈ ms) (hk : Kept write read a) :
    Json.required rs key read = some a := by
  rw [Json.required, h.get key _ hmem]
  exact h.kept hmem hk

theorem defaulted (h : Stored ms rs) (hmem : (key, write a) ∈ ms) (hk : Kept write read a)
    (standIn : α) : Json.defaulted rs key standIn read = some a := by
  rw [Json.defaulted, h.get key _ hmem]
  exact h.kept hmem hk

theorem optional {o : Option α} (h : Stored ms rs) (hmem : (key, Json.option write o) ∈ ms)
    (hk : ∀ a ∈ o, Kept write read a) (hnull : read .null = none) :
    Json.optional rs key read = some o := by
  rw [Json.optional, h.get key _ hmem]
  cases o with
  | none => rfl
  | some a =>
    have hmem' : (key, write a) ∈ ms := hmem
    have hread := h.kept hmem' (hk a rfl)
    dsimp only [Json.option, Option.elim_some]
    split
    · next heq => cases heq
    · next heq =>
      -- what is read from null is not what was written
      rw [Option.some.inj heq, hnull] at hread
      cases hread
    · next heq =>
      rw [← Option.some.inj heq, hread]
      rfl

end Stored

theorem kept_list {xs : List α} (h : ∀ a ∈ xs, Kept write read a) :
    Kept (Json.list write) (readList read) xs := by
  intro hfloats
  show (rereadItems (xs.map write)).mapM read = some xs
  change ∀ x ∈ itemFloats (xs.map write), x.ReadsBack at hfloats
  induction xs with
  | nil => rfl
  | cons a xs ih =>
    obtain ⟨ha, hxs⟩ := List.forall_mem_cons.1 h
    obtain ⟨hfa, hfxs⟩ := List.forall_mem_append.1 hfloats
    show ((write a).reread :: rereadItems (xs.map write)).mapM read = some (a :: xs)
    rw [List.mapM_cons, ha hfa, ih hxs hfxs]
    rfl

/-! ## Nesting -/

theorem fits_object {d : Nat} {ms : Members} :
    Fits (d + 1) (.object ms) ↔ ∀ m ∈ ms, Fits d m.2 := Iff.rfl

@[simp] theorem fits_option {d : Nat} {o : Option α} (h : ∀ a ∈ o, Fits d (write a)) :
    Fits d (Json.option write o) := by
  cases o with
  | none => cases d <;> trivial
  | some a => exact h a rfl

@[simp] theorem fits_list {d : Nat} {xs : List α} (h : ∀ a ∈ xs, Fits d (write a)) :
    Fits (d + 1) (Json.list write xs) := by
  intro x hx
  obtain ⟨a, ha, rfl⟩ := List.mem_map.1 hx
  exact h a ha

/-! ## Scalars -/

@[simp] theorem fits_string {d : Nat} (s : String) : Fits d (.string s) := by cases d <;> trivial

@[simp] theorem fits_bool {d : Nat} (b : Bool) : Fits d (.bool b) := by cases d <;> trivial

@[simp] theorem fits_single {d : Nat} (x : Float32) : Fits d (ofSingle x) := by
  unfold ofSingle
  split <;> cases d <;> trivial

@[simp] theorem fits_double {d : Nat} (x : Float) : Fits d (ofDouble x) := by
  unfold ofDouble
  split <;> cases d <;> trivial

theorem fits_nat {d n : Nat} (h : n < UInt64.size) : Fits d (nat n) := by
  have hsize : (UInt64.size : Int) = wordBound := rfl
  rw [nat, fits_int]
  omega

@[simp] theorem fits_uint8 {d : Nat} (n : UInt8) : Fits d (ofUInt8 n) :=
  fits_nat (n.toNat_lt.trans (by decide))

@[simp] theorem fits_uint32 {d : Nat} (n : UInt32) : Fits d (ofUInt32 n) :=
  fits_nat (n.toNat_lt.trans (by decide))

@[simp] theorem fits_int32 {d : Nat} (n : Int32) : Fits d (ofInt32 n) := by
  have hlow := Int32.le_toInt n
  have hhigh := Int32.toInt_lt n
  have hsize : (wordBound : Int) = 2 ^ 64 := rfl
  rw [ofInt32, fits_int]
  omega

theorem kept_string (s : String) : Kept Json.string asString? s := fun _ => rfl

theorem kept_bool (b : Bool) : Kept Json.bool asBool? b := fun _ => rfl

theorem readNat_int {n bound : Nat} (h : n < bound) : readNat bound (.int n) = some n := by
  have hrange : (0 : Int) ≤ n ∧ (n : Int) < bound := ⟨by omega, by omega⟩
  rw [readNat, if_pos hrange, Int.toNat_natCast]

theorem kept_nat {n bound : Nat} (h : n < bound) : Kept Json.nat (readNat bound) n :=
  fun _ => readNat_int h

theorem kept_uint8 (n : UInt8) : Kept ofUInt8 readUInt8 n := by
  intro _
  show (readNat UInt8.size (.int n.toNat)).map UInt8.ofNat = some n
  rw [readNat_int n.toNat_lt, Option.map_some, UInt8.ofNat_toNat]

theorem kept_uint32 (n : UInt32) : Kept ofUInt32 readUInt32 n := by
  intro _
  show (readNat UInt32.size (.int n.toNat)).map UInt32.ofNat = some n
  rw [readNat_int n.toNat_lt, Option.map_some, UInt32.ofNat_toNat]

theorem kept_int32 (n : Int32) : Kept ofInt32 readInt32 n := by
  intro _
  have hlow := Int32.le_toInt n
  have hhigh := Int32.toInt_lt n
  show (if -0x80000000 ≤ n.toInt ∧ n.toInt < 0x80000000 then some (Int32.ofInt n.toInt) else none)
    = some n
  rw [if_pos ⟨by omega, by omega⟩, Int32.ofInt_toInt]

theorem kept_single {x : Float32} (h : x.isFinite = true) : Kept ofSingle readSingle x := by
  intro hfloats
  rw [ofSingle, if_pos h] at hfloats ⊢
  have hx : (read? (scalarText (.single x))).bind readSingle = some x :=
    hfloats _ (List.mem_singleton_self _)
  obtain ⟨j, hj, hread⟩ := Option.bind_eq_some_iff.1 hx
  rw [reread, hj]
  exact hread

theorem kept_double {x : Float} (h : x.isFinite = true) : Kept ofDouble readDouble x := by
  intro hfloats
  rw [ofDouble, if_pos h] at hfloats ⊢
  have hx : (read? (scalarText (.double x))).bind readDouble = some x :=
    hfloats _ (List.mem_singleton_self _)
  obtain ⟨j, hj, hread⟩ := Option.bind_eq_some_iff.1 hx
  rw [reread, hj]
  exact hread

end Json

/-- A moment is read back from its text. -/
def Moment.ReadsBack (t : Moment) : Prop := Time.read? t.text = some t

instance (t : Moment) : Decidable t.ReadsBack := inferInstanceAs (Decidable (_ = _))

theorem Json.kept_moment {t : Moment} (h : t.ReadsBack) : Kept ofMoment readMoment t := by
  intro _
  have hwritten : (ofMoment t).reread = .string t.text := rfl
  unfold Moment.ReadsBack at h
  rw [hwritten, readMoment, asString?, Option.bind_some, h]

theorem Json.kept_moments {o : Option Moment} (h : ∀ t ∈ o.toList, t.ReadsBack) :
    ∀ t ∈ o, Kept ofMoment readMoment t :=
  fun t ht => kept_moment (h t (Option.mem_toList.2 ht))

/-! ## Ids -/

theorem Text.digitBelow?_digit (v : Nat) (h : v < 16) : digitBelow? 16 (Hex.digit v) = some v := by
  rw [digitBelow?, Hex.value?_digit ⟨v, h⟩]
  exact if_pos h

theorem Text.digitsFrom?_append {base : Nat} (cs ds : List Char) : ∀ acc : Nat,
    digitsFrom? base acc (cs ++ ds) = (digitsFrom? base acc cs).bind (digitsFrom? base · ds) := by
  induction cs with
  | nil => exact fun _ => rfl
  | cons c cs ih =>
    intro acc
    rw [List.cons_append, digitsFrom?, digitsFrom?]
    cases digitBelow? base c with
    | none => rfl
    | some v => exact ih _

theorem Text.digitsFrom?_fixed (width : Nat) : ∀ n acc : Nat,
    digitsFrom? 16 acc (Hex.fixed width n) = some (acc * 16 ^ width + n % 16 ^ width) := by
  induction width with
  | zero =>
    intro n acc
    simp [Hex.fixed, digitsFrom?, Nat.mod_one]
  | succ width ih =>
    intro n acc
    have hlast : ∀ acc, digitsFrom? 16 acc [Hex.digit (n % 16)] = some (acc * 16 + n % 16) := by
      intro acc
      rw [digitsFrom?, digitBelow?_digit _ (Nat.mod_lt _ (by decide))]
      rfl
    rw [Hex.fixed, digitsFrom?_append, ih, Option.bind_some, hlast]
    have hmod : n % 16 ^ (width + 1) = n / 16 % 16 ^ width * 16 + n % 16 := by
      rw [Nat.pow_succ, Nat.mul_comm (16 ^ width), Nat.mod_mul, Nat.mul_comm, Nat.add_comm]
    rw [hmod, Nat.add_mul, Nat.pow_succ, Nat.mul_assoc, Nat.add_assoc]

theorem Hex.exists_digit_of_mem_fixed {c : Char} (width : Nat) : ∀ n : Nat,
    c ∈ fixed width n → ∃ v : Fin 16, c = digit v := by
  induction width with
  | zero => exact fun _ h => absurd h List.not_mem_nil
  | succ width ih =>
    intro n h
    rcases List.mem_append.1 h with h | h
    · exact ih _ h
    · exact ⟨⟨n % 16, Nat.mod_lt _ (by decide)⟩, List.mem_singleton.1 h⟩

theorem Text.trimmed_of_no_blanks {cs : List Char} (h : ∀ c ∈ cs, isBlank c = false) :
    trimmed cs = cs := by
  have hdrop : ∀ cs : List Char, (∀ c ∈ cs, isBlank c = false) → cs.dropWhile isBlank = cs := by
    intro cs hcs
    cases cs with
    | nil => rfl
    | cons c cs => rw [List.dropWhile_cons_of_neg (by simp [hcs c (List.mem_cons_self ..)])]
  rw [trimmed, hdrop cs h, hdrop _ fun c hc => h c (List.mem_reverse.1 hc), List.reverse_reverse]

theorem Text.readWord?_fixed (w : UInt32) : readWord? 16 (Hex.fixed 8 w.toNat) = some w := by
  have hlt : w.toNat < 16 ^ 8 := w.toNat_lt
  have hplus : ∀ v : Fin 16, Hex.digit v ≠ '+' := by decide
  have hdigits := digitsFrom?_fixed 8 w.toNat 0
  rw [Nat.zero_mul, Nat.zero_add, Nat.mod_eq_of_lt hlt] at hdigits
  cases hcs : Hex.fixed 8 w.toNat with
  | nil => simpa [hcs] using Hex.length_fixed 8 w.toNat
  | cons c cs =>
    have hmem : c ∈ Hex.fixed 8 w.toNat := hcs ▸ List.mem_cons_self ..
    obtain ⟨v, rfl⟩ := Hex.exists_digit_of_mem_fixed 8 _ hmem
    have hunsigned : unsigned (Hex.digit v :: cs) = Hex.digit v :: cs := by
      unfold unsigned
      split
      · next he => exact absurd (List.cons.inj he).1 (hplus v)
      · rfl
    rw [hcs] at hdigits
    have hread : readBelow? 16 UInt32.size (Hex.digit v :: cs) = some w.toNat := by
      rw [readBelow?, hunsigned, digits?, hdigits]
      · exact if_pos w.toNat_lt
      · exact nofun
    rw [readWord?, hread, Option.map_some, UInt32.ofNat_toNat]

namespace NodeId

/-- An id is read back from its text. -/
theorem ofText?_text (id : NodeId) : ofText? id.text = some id := by
  have hdigit : ∀ v : Fin 16, Text.isBlank (Hex.digit v) = false := by decide
  have hblank : ∀ c ∈ id.chars, Text.isBlank c = false := by
    intro c hc
    rcases List.mem_cons.1 hc with rfl | hc
    · rfl
    · obtain ⟨v, rfl⟩ := Hex.exists_digit_of_mem_fixed 8 _ hc
      exact hdigit v
  have htext : id.text.toList = id.chars := String.toList_ofList
  have hall : id.text ≠ broadcastText := by
    intro h
    have hlength := congrArg (fun s => s.toList.length) h
    rw [htext, length_chars] at hlength
    exact absurd hlength (by decide)
  rw [ofText?, htext]
  rw [Text.trimmed_of_no_blanks hblank, ← text, if_neg hall, chars, ofChars?,
    Text.readWord?_fixed]
  rfl

end NodeId

/-! ## Labels -/

theorem NodeRole.ofExactName?_name (r : NodeRole) : ofExactName? r.name = some r := by
  cases r <;> rfl

theorem ChannelRole.ofName?_name (r : ChannelRole) : ofName? r.name = some r := by
  cases r <;> rfl

namespace Json

theorem kept_id (id : NodeId) : Kept NodeId.toJson NodeId.ofJson? id := by
  intro _
  have hwritten : id.toJson.reread = .string id.text := rfl
  have hread := id.ofText?_text
  rw [hwritten, NodeId.ofJson?, asString?, Option.bind_some, hread]

theorem kept_role (r : NodeRole) : Kept NodeRole.toJson NodeRole.ofJson? r :=
  fun _ => r.ofExactName?_name

theorem kept_channelRole (r : ChannelRole) :
    Kept (fun r => .string r.name) ChannelRole.ofJson? r := fun _ => r.ofName?_name

@[simp] theorem fits_id {d : Nat} (id : NodeId) : Fits d id.toJson := fits_string _

@[simp] theorem fits_role {d : Nat} (r : NodeRole) : Fits d r.toJson := fits_string _

@[simp] theorem fits_moment {d : Nat} (t : Moment) : Fits d (ofMoment t) := fits_string _

end Json

end MeshWatch
