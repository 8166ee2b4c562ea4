import MeshWatch.Proofs.TopicRoundTrip

/-!
# Names keep to their levels

A root and a channel come out of a configuration, and what is built of them is subscribed to.
The checks look at single characters and at separators; what they must rule out is a filter
that is wider than the levels it was built of.

- `levels_eq_iff`: to split a text is to find the levels that it was joined of.
- `isPath_iff`: a text that is read level by level is a path.
- `checkNames_ok_iff`: the checks let paths and single levels through, and nothing else.
- `levels_under`: what is built below a root has the levels that it was built of.
- `built_topics_stay_narrow`: both for filters and for the topic of a publication.
-/

namespace MeshWatch

/-! ## Splitting and joining -/

theorem Text.notMem_of_mem_segments {sep : Char} {cs seg : List Char}
    (h : seg ∈ segments sep cs) : sep ∉ seg ∧ seg ⊆ cs := by
  induction cs generalizing seg with
  | nil =>
    rw [segments, List.mem_singleton] at h
    subst h
    exact ⟨List.not_mem_nil, List.Subset.refl _⟩
  | cons c cs ih =>
    rw [segments] at h
    split at h
    · rcases List.mem_cons.1 h with rfl | h
      · exact ⟨List.not_mem_nil, List.nil_subset _⟩
      · obtain ⟨hsep, hsub⟩ := ih h
        exact ⟨hsep, List.Subset.trans hsub (List.subset_cons_self ..)⟩
    · next hc =>
      cases hcs : segments sep cs with
      | nil => exact absurd hcs (segments_ne_nil sep cs)
      | cons s ss =>
        rw [hcs] at h ih
        rcases List.mem_cons.1 h with rfl | h
        · obtain ⟨hsep, hsub⟩ := ih (List.mem_cons_self ..)
          refine ⟨?_, List.cons_subset_cons c hsub⟩
          rw [List.mem_cons, not_or]
          exact ⟨Ne.symm hc, hsep⟩
        · obtain ⟨hsep, hsub⟩ := ih (List.mem_cons_of_mem _ h)
          exact ⟨hsep, List.Subset.trans hsub (List.subset_cons_self ..)⟩

theorem Text.exists_segment_of_mem {sep c : Char} {cs : List Char} (h : c ∈ cs) :
    c = sep ∨ ∃ seg ∈ segments sep cs, c ∈ seg := by
  induction cs with
  | nil => exact absurd h List.not_mem_nil
  | cons d cs ih =>
    rw [segments]
    split
    · next hd =>
      rcases List.mem_cons.1 h with rfl | h
      · exact Or.inl hd
      · rcases ih h with hc | ⟨seg, hseg, hc⟩
        · exact Or.inl hc
        · exact Or.inr ⟨seg, List.mem_cons_of_mem _ hseg, hc⟩
    · cases hcs : segments sep cs with
      | nil => exact absurd hcs (segments_ne_nil sep cs)
      | cons s ss =>
        rw [hcs] at ih
        rcases List.mem_cons.1 h with rfl | h
        · exact Or.inr ⟨c :: s, List.mem_cons_self .., List.mem_cons_self ..⟩
        · rcases ih h with hc | ⟨seg, hseg, hc⟩
          · exact Or.inl hc
          · rcases List.mem_cons.1 hseg with rfl | hseg
            · exact Or.inr ⟨d :: seg, List.mem_cons_self .., List.mem_cons_of_mem _ hc⟩
            · exact Or.inr ⟨seg, List.mem_cons_of_mem _ hseg, hc⟩

theorem Text.intercalate_segments (sep : Char) (cs : List Char) :
    [sep].intercalate (segments sep cs) = cs := by
  induction cs with
  | nil => rfl
  | cons c cs ih =>
    rw [segments]
    cases hcs : segments sep cs with
    | nil => exact absurd hcs (segments_ne_nil sep cs)
    | cons s ss =>
      rw [hcs] at ih
      split
      · next hc => rw [List.intercalate_cons_cons, ih, hc, List.nil_append, List.singleton_append]
      · cases ss with
        | nil =>
          rw [List.intercalate_singleton] at ih ⊢
          rw [ih]
        | cons t ts =>
          rw [List.intercalate_cons_cons] at ih ⊢
          rw [← ih, List.cons_append, List.cons_append]

namespace Topic

theorem chars_of_mem_levels {s l : String} (h : l ∈ levels s) :
    '/' ∉ l.toList ∧ l.toList ⊆ s.toList := by
  rw [levels] at h
  obtain ⟨seg, hseg, rfl⟩ := List.mem_map.1 h
  rw [String.toList_ofList]
  exact Text.notMem_of_mem_segments hseg

theorem exists_level_of_mem {s : String} {c : Char} (h : c ∈ s.toList) :
    c = '/' ∨ ∃ l ∈ levels s, c ∈ l.toList := by
  rcases Text.exists_segment_of_mem h with hc | ⟨seg, hseg, hc⟩
  · exact Or.inl hc
  · exact Or.inr ⟨String.ofList seg, List.mem_map_of_mem hseg, by rwa [String.toList_ofList]⟩

theorem intercalate_levels (s : String) : "/".intercalate (levels s) = s := by
  refine String.toList_inj.1 ?_
  have hchars : (levels s).map String.toList = Text.segments '/' s.toList := by
    rw [levels, List.map_map]
    exact List.map_id'' (fun cs => String.toList_ofList) _
  rw [String.toList_intercalate, hchars]
  exact Text.intercalate_segments '/' s.toList

/-- **Splitting is the inverse of joining.** -/
theorem levels_eq_iff {s : String} {ls : List String} :
    levels s = ls ↔ ls ≠ [] ∧ (∀ l ∈ ls, '/' ∉ l.toList) ∧ s = "/".intercalate ls := by
  constructor
  · rintro rfl
    exact ⟨levels_ne_nil s, fun l hl => (chars_of_mem_levels hl).1, (intercalate_levels s).symm⟩
  · rintro ⟨hne, hsingle, rfl⟩
    induction ls with
    | nil => exact absurd rfl hne
    | cons l ls ih =>
      have hl := hsingle l (List.mem_cons_self ..)
      cases ls with
      | nil => rw [String.intercalate_singleton, levels_of_notMem hl]
      | cons m ms =>
        have hms := ih (List.cons_ne_nil m ms) fun k hk => hsingle k (List.mem_cons_of_mem _ hk)
        rw [String.intercalate_cons_cons, levels_append, levels_of_notMem hl, hms]
        rfl

/-! ## Levels and paths -/

/-- One level: something that neither ends there nor stands for anything but itself. -/
structure IsLevel (l : String) : Prop where
  filled : l ≠ ""
  plain : ∀ c ∈ l.toList, PlainChar c
  single : '/' ∉ l.toList

/-- Levels, at least one, with a separator between each and the next. -/
def IsPath (s : String) : Prop :=
  ∃ ls, ls ≠ [] ∧ (∀ l ∈ ls, IsLevel l) ∧ s = "/".intercalate ls

/-- Wild about what comes below its levels, and about nothing else. -/
structure IsFilter (f : String) : Prop where
  last : (levels f).getLast? = some "#"
  others : ∀ l ∈ (levels f).dropLast, IsLevel l

theorem IsLevel.readable {l : String} (h : IsLevel l) : Readable l where
  plain := h.plain
  filled m hm := by
    rw [levels_of_notMem h.single, List.mem_singleton] at hm
    exact hm ▸ h.filled

theorem Readable.isLevel {s l : String} (h : Readable s) (hl : l ∈ levels s) : IsLevel l := by
  obtain ⟨hsingle, hsub⟩ := chars_of_mem_levels hl
  exact ⟨h.filled l hl, fun c hc => h.plain c (hsub hc), hsingle⟩

theorem readable_iff_isLevel {s : String} : Readable s ∧ '/' ∉ s.toList ↔ IsLevel s := by
  constructor
  · rintro ⟨h, hsingle⟩
    refine h.isLevel ?_
    rw [levels_of_notMem hsingle]
    exact List.mem_singleton_self s
  · exact fun h => ⟨h.readable, h.single⟩

/-- A text is read level by level exactly if it is a path. -/
theorem isPath_iff {s : String} : Readable s ↔ IsPath s := by
  constructor
  · exact fun h =>
      ⟨levels s, levels_ne_nil s, fun l hl => h.isLevel hl, (intercalate_levels s).symm⟩
  · rintro ⟨ls, hne, hls, hs⟩
    have hlevels : levels s = ls := levels_eq_iff.2 ⟨hne, fun l hl => (hls l hl).single, hs⟩
    refine ⟨fun c hc => ?_, fun l hl => (hls l (hlevels ▸ hl)).filled⟩
    rcases exists_level_of_mem hc with rfl | ⟨l, hl, hc⟩
    · decide
    · exact (hls l (hlevels ▸ hl)).plain c hc

/-! ## What is built -/

theorem checkNames_ok_iff {root channel : String} :
    checkNames root channel = .ok () ↔ IsPath root ∧ IsLevel channel := by
  have hroot : checkComponent root true = .ok () ↔ IsPath root := by
    rw [checkComponent_ok_iff, ← isPath_iff]
    exact and_iff_left nofun
  have hchannel : checkComponent channel false = .ok () ↔ IsLevel channel := by
    rw [checkComponent_ok_iff, ← readable_iff_isLevel]
    exact and_congr_right fun _ => forall_prop_of_true rfl
  rw [← hroot, ← hchannel]
  constructor
  · intro h
    rw [checkNames] at h
    split at h
    · cases h
    · next hr =>
      split at h
      · cases h
      · next hc => exact ⟨hr, hc⟩
  · rintro ⟨hr, hc⟩
    exact checkNames_ok hr hc

/-- What is built of accepted names. -/
theorem map_checkNames_ok_iff {α : Type} {root channel : String} {built answer : α} :
    (checkNames root channel).map (fun () => built) = .ok answer ↔
      (IsPath root ∧ IsLevel channel) ∧ answer = built := by
  rw [← checkNames_ok_iff]
  cases checkNames root channel with
  | error fault => exact iff_of_false nofun fun h => nomatch h.1
  | ok =>
    constructor
    · intro h
      cases h
      exact ⟨rfl, rfl⟩
    · rintro ⟨-, rfl⟩
      rfl

/-- The topic below a root that some levels lead to. -/
def under (root : String) (ls : List String) : String := ls.foldl (fun t l => t ++ "/" ++ l) root

theorem levels_under {ls : List String} (h : ∀ l ∈ ls, '/' ∉ l.toList) : ∀ root : String,
    levels (under root ls) = levels root ++ ls := by
  induction ls with
  | nil => exact fun root => (List.append_nil _).symm
  | cons l ls ih =>
    intro root
    have hl := levels_of_notMem (h l (List.mem_cons_self ..))
    have hls := ih (fun m hm => h m (List.mem_cons_of_mem _ hm)) (root ++ "/" ++ l)
    rw [under, List.foldl_cons, ← under, hls, levels_append, hl, List.append_assoc,
      List.singleton_append]

theorem subscriptions_ok_iff {root channel : String} {filters : List String} :
    subscriptions root channel = .ok filters ↔ (IsPath root ∧ IsLevel channel) ∧
      filters = [under root ["2", "e", channel, "#"], under root ["2", "json", channel, "#"],
        under root ["2", "stat", "#"]] := by
  have hbuilt : [root ++ "/" ++ versionLevel ++ "/e/" ++ channel ++ "/#",
      root ++ "/" ++ versionLevel ++ "/json/" ++ channel ++ "/#",
      root ++ "/" ++ versionLevel ++ "/stat/#"] =
      [under root ["2", "e", channel, "#"], under root ["2", "json", channel, "#"],
        under root ["2", "stat", "#"]] := by
    simp [under, versionLevel, ← String.toList_inj]
  rw [subscriptions, hbuilt, map_checkNames_ok_iff]

theorem publication_ok_iff {root channel topic : String} {id : NodeId} :
    publication root channel id = .ok topic ↔ (IsPath root ∧ IsLevel channel) ∧
      topic = under root ["2", "json", channel, id.text] := by
  have hbuilt : root ++ "/" ++ versionLevel ++ "/json/" ++ channel ++ "/" ++ id.text =
      under root ["2", "json", channel, id.text] := by
    simp [under, versionLevel, ← String.toList_inj]
  rw [publication, hbuilt, map_checkNames_ok_iff]

/-- The levels that are the same in all topics. -/
theorem isLevel_fixed : ∀ l ∈ ["2", "e", "json", "stat"], IsLevel l := by
  intro l h
  have hplain : ∀ l ∈ ["2", "e", "json", "stat"], l.toList.all (PlainChar ·) := by decide
  have hfilled : ∀ l ∈ ["2", "e", "json", "stat"], ∀ m ∈ levels l, m ≠ "" := by decide
  have hsingle : ∀ l ∈ ["2", "e", "json", "stat"], '/' ∉ l.toList := by decide
  exact readable_iff_isLevel.1 ⟨readable_of_all (hplain l h) (hfilled l h), hsingle l h⟩

theorem isLevel_below {kind channel : String} (hkind : kind = "e" ∨ kind = "json")
    (hchannel : IsLevel channel) : ∀ l ∈ ["2", kind, channel], IsLevel l := by
  intro l hl
  simp only [List.mem_cons, List.not_mem_nil, or_false] at hl
  rcases hl with rfl | rfl | rfl
  · exact isLevel_fixed _ (by decide)
  · rcases hkind with rfl | rfl
    · exact isLevel_fixed _ (by decide)
    · exact isLevel_fixed _ (by decide)
  · exact hchannel

theorem isLevel_id (id : NodeId) : IsLevel id.text :=
  (readable_id id).isLevel (levels_id id ▸ List.mem_singleton_self _)

section Below

variable {root : String} (hroot : IsPath root) {ls : List String} (hls : ∀ l ∈ ls, IsLevel l)
include hroot hls

theorem isLevel_of_mem_under : ∀ l ∈ levels root ++ ls, IsLevel l := by
  intro l hl
  rcases List.mem_append.1 hl with hl | hl
  · exact (isPath_iff.2 hroot).isLevel hl
  · exact hls l hl

/-- A filter for all that comes below a path and some levels. -/
theorem isFilter_under :
    levels (under root (ls ++ ["#"])) = levels root ++ (ls ++ ["#"]) ∧
      IsFilter (under root (ls ++ ["#"])) := by
  have hsingle : ∀ l ∈ ls ++ ["#"], '/' ∉ l.toList := by
    intro l hl
    rcases List.mem_append.1 hl with hl | hl
    · exact (hls l hl).single
    · rw [List.mem_singleton.1 hl]
      decide
  have hlevels := levels_under hsingle root
  refine ⟨hlevels, ⟨?_, ?_⟩⟩
  · rw [hlevels, ← List.append_assoc, List.getLast?_concat]
  · rw [hlevels, ← List.append_assoc, List.dropLast_concat]
    exact isLevel_of_mem_under hroot hls

end Below

/-- **Names keep to their levels.** For every root and channel, filters and topic are built
exactly if the root is a path and the channel a level. Each filter then has the levels of the
root and those that were built below it, of which only the last stands for others, and the
topic of a publication has none that does. -/
theorem built_topics_stay_narrow (root channel : String) (id : NodeId) :
    ((∃ filters, subscriptions root channel = .ok filters) ↔ IsPath root ∧ IsLevel channel) ∧
    ((∃ topic, publication root channel id = .ok topic) ↔ IsPath root ∧ IsLevel channel) ∧
    (∀ filters, subscriptions root channel = .ok filters →
      filters.map levels = [levels root ++ ["2", "e", channel, "#"],
        levels root ++ ["2", "json", channel, "#"], levels root ++ ["2", "stat", "#"]] ∧
      ∀ f ∈ filters, IsFilter f) ∧
    ∀ topic, publication root channel id = .ok topic →
      levels topic = levels root ++ ["2", "json", channel, id.text] ∧
      ∀ l ∈ levels topic, IsLevel l := by
  refine ⟨?_, ?_, fun filters hfilters => ?_, fun topic htopic => ?_⟩
  · simp only [subscriptions_ok_iff, exists_and_left, exists_eq, and_true]
  · simp only [publication_ok_iff, exists_and_left, exists_eq, and_true]
  · obtain ⟨⟨hroot, hchannel⟩, rfl⟩ := subscriptions_ok_iff.1 hfilters
    have hfixed : ["2", "stat"] ⊆ ["2", "e", "json", "stat"] := by decide
    have hbinary := isFilter_under hroot (isLevel_below (.inl rfl) hchannel)
    have hjson := isFilter_under hroot (isLevel_below (.inr rfl) hchannel)
    have hstatus := isFilter_under hroot fun l hl => isLevel_fixed l (hfixed hl)
    refine ⟨by simpa using ⟨hbinary.1, hjson.1, hstatus.1⟩, ?_⟩
    simp only [List.forall_mem_cons]
    exact ⟨hbinary.2, hjson.2, hstatus.2, fun _ hf => absurd hf List.not_mem_nil⟩
  · obtain ⟨⟨hroot, hchannel⟩, rfl⟩ := publication_ok_iff.1 htopic
    have hls : ∀ l ∈ ["2", "json", channel, id.text], IsLevel l := by
      intro l hl
      rcases List.mem_append.1 (show l ∈ ["2", "json", channel] ++ [id.text] from hl) with hl | hl
      · exact isLevel_below (.inr rfl) hchannel l hl
      · exact List.mem_singleton.1 hl ▸ isLevel_id id
    have hlevels := levels_under (fun l hl => (hls l hl).single) root
    refine ⟨hlevels, ?_⟩
    rw [hlevels]
    exact isLevel_of_mem_under hroot hls

/-- A path of three levels and a level that looks like the marker. -/
theorem built_topics_of_three_levels :
    ∃ filters topic, subscriptions "msh/EU_868/Łódź" "2" = .ok filters ∧
      publication "msh/EU_868/Łódź" "2" ⟨0x1234abcd⟩ = .ok topic ∧
      filters.map levels = [["msh", "EU_868", "Łódź", "2", "e", "2", "#"],
        ["msh", "EU_868", "Łódź", "2", "json", "2", "#"],
        ["msh", "EU_868", "Łódź", "2", "stat", "#"]] ∧
      levels topic = ["msh", "EU_868", "Łódź", "2", "json", "2", "!1234abcd"] := by
  have hroot : levels "msh/EU_868/Łódź" = ["msh", "EU_868", "Łódź"] := by decide
  obtain ⟨-, -, hfilters, htopic⟩ := built_topics_stay_narrow "msh/EU_868/Łódź" "2" ⟨0x1234abcd⟩
  obtain ⟨filters, hf⟩ : ∃ filters, subscriptions "msh/EU_868/Łódź" "2" = .ok filters := ⟨_, rfl⟩
  obtain ⟨topic, ht⟩ : ∃ topic, publication "msh/EU_868/Łódź" "2" ⟨0x1234abcd⟩ = .ok topic :=
    ⟨_, rfl⟩
  refine ⟨filters, topic, hf, ht, ?_, ?_⟩
  · rw [(hfilters filters hf).1, hroot]
    rfl
  · rw [(htopic topic ht).1, hroot]
    rfl

end Topic

end MeshWatch
