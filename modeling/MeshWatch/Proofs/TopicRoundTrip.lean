import MeshWatch.Topic
import MeshWatch.Proofs.StoredValues

/-!
# Topics are read again

A session publishes under a root, the version marker, a kind, a channel and its own
id, and its filters match the topics that gateways build in the same way. `decode`
is not told the root: it takes the first level that is the marker. Whether it finds
the parts again hangs on the root alone.

- `hasEmptyLevel_eq`: separators at the ends and next to each other tell of empty levels.
- `checkComponent_ok_iff`: an accepted part is `Readable`, and one level where no
  slash is allowed.
- `decode_ofGateway`: below a root without the marker among its levels, every
  accepted channel and every id are found again.
- `not_readAs_of_mem`: below a root with the marker, none of them ever is.
- `built_topics_read`: both, for what is published and for what is subscribed to.
-/

namespace MeshWatch

/-! ## Levels -/

theorem Text.segments_append_sep (sep : Char) (cs ds : List Char) :
    segments sep (cs ++ sep :: ds) = segments sep cs ++ segments sep ds := by
  induction cs with
  | nil => simp [segments]
  | cons c cs ih =>
    rw [List.cons_append, segments, segments, ih]
    split
    · rfl
    · cases hcs : segments sep cs with
      | nil => exact absurd hcs (segments_ne_nil sep cs)
      | cons s ss => rfl

theorem Text.segments_of_notMem {sep : Char} {cs : List Char} (h : sep ∉ cs) :
    segments sep cs = [cs] := by
  induction cs with
  | nil => rfl
  | cons c cs ih =>
    obtain ⟨hc, hcs⟩ := not_or.1 (mt List.mem_cons.2 h)
    rw [segments, if_neg (Ne.symm hc), ih hcs]

/-- A segment is empty if nothing stands before the first separator, or a later one is. -/
theorem Text.nil_mem_segments_iff (sep : Char) (cs : List Char) :
    [] ∈ segments sep cs ↔ cs = [] ∨ cs.head? = some sep ∨ [] ∈ (segments sep cs).tail := by
  cases cs with
  | nil => simp [segments]
  | cons c cs =>
    rw [segments]
    split
    · next h => simp [h]
    · next h =>
      cases hcs : segments sep cs with
      | nil => exact absurd hcs (segments_ne_nil sep cs)
      | cons s ss => simp [h]

/-- A character that is no separator goes to the first segment. -/
theorem Text.tail_segments_cons {sep c : Char} (h : c ≠ sep) (cs : List Char) :
    (segments sep (c :: cs)).tail = (segments sep cs).tail := by
  rw [segments, if_neg h]
  cases hcs : segments sep cs with
  | nil => exact absurd hcs (segments_ne_nil sep cs)
  | cons s ss => rfl

/-- A later segment is empty if nothing stands behind a separator: the text ends there, or the
next one follows. -/
theorem Text.nil_mem_tail_segments_iff (sep : Char) (cs : List Char) :
    [] ∈ (segments sep cs).tail ↔ cs.getLast? = some sep ∨ (sep, sep) ∈ cs.zip cs.tail := by
  induction cs with
  | nil => simp [segments]
  | cons c cs ih =>
    by_cases h : c = sep
    · subst h
      rw [segments, if_pos rfl, List.tail_cons, List.tail_cons, nil_mem_segments_iff, ih]
      cases cs with
      | nil => simp
      | cons d ds => simp [List.getLast?_cons_cons, or_left_comm, eq_comm]
    · rw [tail_segments_cons h, List.tail_cons, ih]
      cases cs with
      | nil => simp [h]
      | cons d ds => simp [List.getLast?_cons_cons, Ne.symm h]

namespace Topic

theorem levels_ne_nil (s : String) : levels s ≠ [] := by
  rw [levels, Ne, List.map_eq_nil_iff]
  exact Text.segments_ne_nil _ _

theorem levels_append (a b : String) : levels (a ++ "/" ++ b) = levels a ++ levels b := by
  have hchars : (a ++ "/" ++ b).toList = a.toList ++ '/' :: b.toList := by simp
  rw [levels, hchars, Text.segments_append_sep, List.map_append, levels, levels]

theorem levels_of_notMem {s : String} (h : '/' ∉ s.toList) : levels s = [s] := by
  rw [levels, Text.segments_of_notMem h, List.map_singleton, String.ofList_toList]

theorem mark_or_digit_of_mem_id {id : NodeId} {c : Char} (h : c ∈ id.text.toList) :
    c = '!' ∨ ∃ v : Fin 16, c = Hex.digit v := by
  rw [NodeId.text, String.toList_ofList] at h
  exact (List.mem_cons.1 h).imp_right (Hex.exists_digit_of_mem_fixed 8 _)

theorem notMem_id {c : Char} (hmark : c ≠ '!') (hdigit : ∀ v : Fin 16, c ≠ Hex.digit v)
    (id : NodeId) : c ∉ id.text.toList := by
  intro hmem
  rcases mark_or_digit_of_mem_id hmem with he | ⟨v, he⟩
  · exact hmark he
  · exact hdigit v he

theorem levels_id (id : NodeId) : levels id.text = [id.text] :=
  levels_of_notMem (notMem_id (by decide) (by decide) id)

/-! ## Parts of a topic -/

/-- A character that neither garbles a topic nor widens a filter. -/
def PlainChar (c : Char) : Prop := Text.isControl c = false ∧ c ≠ '#' ∧ c ≠ '+'

instance : DecidablePred PlainChar := fun _ => inferInstanceAs (Decidable (_ ∧ _))

/-- A text that `decode` takes apart into levels. -/
structure Readable (s : String) : Prop where
  plain : ∀ c ∈ s.toList, PlainChar c
  filled : ∀ l ∈ levels s, l ≠ ""

theorem Readable.append {a b : String} (ha : Readable a) (hb : Readable b) :
    Readable (a ++ "/" ++ b) where
  plain c hc := by
    have hmem : c ∈ a.toList ∨ c = '/' ∨ c ∈ b.toList := by simpa [or_assoc] using hc
    rcases hmem with hc | rfl | hc
    · exact ha.plain c hc
    · decide
    · exact hb.plain c hc
  filled l hl := by
    rw [levels_append, List.mem_append] at hl
    exact hl.elim (ha.filled l) (hb.filled l)

theorem readable_id (id : NodeId) : Readable id.text where
  plain c hc := by
    have hdigit : ∀ v : Fin 16, PlainChar (Hex.digit v) := by decide
    rcases mark_or_digit_of_mem_id hc with rfl | ⟨v, rfl⟩
    · decide
    · exact hdigit v
  filled l hl := by
    rw [levels_id, List.mem_singleton] at hl
    subst hl
    intro he
    have hlength := congrArg (fun s => s.toList.length) he
    rw [NodeId.text, String.toList_ofList, NodeId.length_chars] at hlength
    exact absurd hlength (by decide)

/-- For fixed texts: both conditions can be computed. -/
theorem readable_of_all {s : String} (hplain : s.toList.all (PlainChar ·))
    (hfilled : ∀ l ∈ levels s, l ≠ "") : Readable s :=
  ⟨fun c hc => of_decide_eq_true (List.all_eq_true.1 hplain c hc), hfilled⟩

theorem readable_versionLevel : Readable versionLevel := readable_of_all (by decide) (by decide)

namespace Readable

variable {s : String} (h : Readable s)
include h

theorem ne_nil : s.toList ≠ [] := by
  intro he
  exact h.filled "" (by simp [levels, he, Text.segments]) rfl

theorem no_wildcard : '#' ∉ s.toList ∧ '+' ∉ s.toList :=
  ⟨fun hc => (h.plain _ hc).2.1 rfl, fun hc => (h.plain _ hc).2.2 rfl⟩

theorem no_empty : (levels s).any String.isEmpty = false := by
  simpa [String.isEmpty_iff] using h.filled

end Readable

/-- Separators at the ends and next to each other tell of every empty level. -/
theorem hasEmptyLevel_eq {s : String} (h : s.toList ≠ []) :
    hasEmptyLevel s.toList = (levels s).any String.isEmpty := by
  have hlevels : (levels s).any String.isEmpty = true ↔ [] ∈ Text.segments '/' s.toList := by
    simp [levels, List.any_map, String.isEmpty_iff]
  rw [Bool.eq_iff_iff, hlevels, Text.nil_mem_segments_iff, Text.nil_mem_tail_segments_iff]
  simp [hasEmptyLevel, h, or_assoc]

/-- What an accepted part is made of. -/
theorem checkComponent_ok_iff {value : String} {allowSlash : Bool} :
    checkComponent value allowSlash = .ok () ↔
      Readable value ∧ (allowSlash = false → '/' ∉ value.toList) := by
  by_cases hempty : value.toList = []
  · have hrefused : checkComponent value allowSlash ≠ .ok () := fun h =>
      checkComponent_ok_ne_empty h hempty
    exact iff_of_false hrefused fun h => h.1.ne_nil hempty
  simp only [checkComponent, hasEmptyLevel_eq hempty]
  constructor
  · intro h
    split at h
    · cases h
    split at h
    · cases h
    next hcontrol =>
    split at h
    · cases h
    next hwild =>
    split at h
    · cases h
    next hfilled =>
    split at h
    · cases h
    next hlevel =>
    refine ⟨⟨fun c hc => ?_, fun l hl he => hfilled ?_⟩, fun ha hmem => hlevel ?_⟩
    · refine ⟨by simpa using List.find?_eq_none.1 hcontrol c hc, ?_, ?_⟩ <;>
        rintro rfl <;> simp [hc] at hwild
    · exact List.any_eq_true.2 ⟨l, hl, by simp [he]⟩
    · simp [ha, hmem]
  · rintro ⟨h, hlevel⟩
    have hcontrol : value.toList.find? Text.isControl = none :=
      List.find?_eq_none.2 fun c hc => by simp [(h.plain c hc).1]
    simpa [h.ne_nil, hcontrol, h.no_wildcard, h.no_empty] using hlevel

theorem decode_of_readable {topic : String} (h : Readable topic)
    (hlength : 3 ≤ (levels topic).length) : decode topic = ofLevels topic (levels topic) := by
  have hcontrol : topic.toList.any Text.isControl = false :=
    List.any_eq_false.2 fun c hc => by simp [(h.plain c hc).1]
  have hwild : (topic.toList.any fun c => c == '#' || c == '+') = false :=
    List.any_eq_false.2 fun c hc => by simpa using (h.plain c hc).2
  simp [decode, h.ne_nil, hcontrol, hwild, h.no_empty, Nat.not_lt.2 hlength]

/-! ## Topics of gateways -/

/-- The topic on which a gateway sends what it hears on a channel. -/
def ofGateway (root level channel : String) (id : NodeId) : String :=
  root ++ "/" ++ versionLevel ++ "/" ++ level ++ "/" ++ channel ++ "/" ++ id.text

/-- `topic` is read as one of the kind, the channel and the gateway, with nothing after it. -/
def ReadAs (kind : TopicKind) (channel : String) (id : NodeId) (topic : String) : Prop :=
  ∃ t, decode topic = .ok t ∧
    t.kind = kind ∧ t.channel = some channel ∧ t.gateway = some id ∧ t.extra = []

theorem readable_of_ofLevel? {level : String} {kind : TopicKind}
    (h : TopicKind.ofLevel? level = some kind) : Readable level ∧ '/' ∉ level.toList := by
  simp only [TopicKind.ofLevel?] at h
  split at h
  · next hlevel =>
    rcases hlevel with rfl | rfl <;>
      exact ⟨readable_of_all (by decide) (by decide), by decide⟩
  split at h
  · next hlevel => subst hlevel; exact ⟨readable_of_all (by decide) (by decide), by decide⟩
  split at h
  · next hlevel => subst hlevel; exact ⟨readable_of_all (by decide) (by decide), by decide⟩
  split at h
  · next hlevel => subst hlevel; exact ⟨readable_of_all (by decide) (by decide), by decide⟩
  · cases h

theorem gatewayOf?_text (id : NodeId) : gatewayOf? (some id.text) = some id := by
  have hmark : id.text.toList.head? = some '!' := by rw [NodeId.text, String.toList_ofList]; rfl
  rw [gatewayOf?, if_pos hmark, NodeId.ofText?_text]

/-- Without the marker a topic is one of status or of the older layout. -/
theorem kind_ofLegacy {topic : String} {ls : List String} {t : Topic}
    (h : ofLegacy topic ls = .ok t) : t.kind = .status ∨ t.kind = .legacy := by
  unfold ofLegacy at h
  split at h
  · split at h
    · split at h <;> cases h
      · exact .inl rfl
      · exact .inr rfl
    · cases h
  · cases h

theorem kind_ofMarker {topic : String} {ls : List String} {v : Nat} {kind : TopicKind} {t : Topic}
    (h : ofMarker topic ls v kind = .ok t) : t.kind = kind := by
  simp only [ofMarker] at h
  generalize (if 2 ≤ v then ls[v - 1]? else none) = region at h
  split at h
  · cases h; rfl
  · cases h; rfl
  · split at h <;> cases h
    rfl

/-- The current layout of packets: channel, gateway, and whatever comes after them. -/
theorem ofMarker_packets {topic : String} {ls : List String} {v : Nat} {kind : TopicKind}
    (hkind : kind = .json ∨ kind = .protobuf) :
    ofMarker topic ls v kind =
      match ls[v + 2]? with
      | some channel => .ok ⟨ls.headD "", if 2 ≤ v then ls[v - 1]? else none, kind, some channel,
          gatewayOf? ls[v + 3]?, ls.drop (v + 4)⟩
      | none => .error (.topic topic .missingChannel) := by
  rcases hkind with rfl | rfl <;> cases hchannel : ls[v + 2]? <;>
    simp only [ofMarker, List.getElem?_drop, List.drop_drop, Nat.add_zero, Nat.add_assoc,
      Nat.reduceAdd, hchannel]

section Gateway

variable {root channel level : String} {kind : TopicKind} {id : NodeId}
  (hlevel : TopicKind.ofLevel? level = some kind) (hkind : kind = .json ∨ kind = .protobuf)
  (hroot : checkComponent root true = .ok ()) (hchannel : checkComponent channel false = .ok ())
include hlevel hchannel

theorem levels_ofGateway :
    levels (ofGateway root level channel id) =
      levels root ++ [versionLevel, level, channel, id.text] := by
  have hslash := (checkComponent_ok_iff.1 hchannel).2 rfl
  rw [ofGateway, levels_append, levels_append, levels_append, levels_append, levels_id,
    levels_of_notMem hslash, levels_of_notMem (readable_of_ofLevel? hlevel).2,
    levels_of_notMem (by decide : '/' ∉ versionLevel.toList)]
  simp only [List.append_assoc, List.cons_append, List.nil_append]

include hroot

theorem decode_ofGateway_eq :
    decode (ofGateway root level channel id) =
      ofLevels (ofGateway root level channel id)
        (levels root ++ [versionLevel, level, channel, id.text]) := by
  have hreadable : Readable (ofGateway root level channel id) :=
    ((((checkComponent_ok_iff.1 hroot).1.append readable_versionLevel).append
      (readable_of_ofLevel? hlevel).1).append (checkComponent_ok_iff.1 hchannel).1).append
      (readable_id id)
  have hlevels : levels (ofGateway root level channel id) = _ := levels_ofGateway hlevel hchannel
  rw [decode_of_readable hreadable (by simp [hlevels]), hlevels]

include hkind

/-- Below a root without the marker everything is found again: the first level of the
root, the last one as region if there is another, and all that comes after the root. -/
theorem decode_ofGateway (hmarker : versionLevel ∉ levels root) :
    decode (ofGateway root level channel id) = .ok
      ⟨(levels root).headD "",
        if 2 ≤ (levels root).length then (levels root).getLast? else none,
        kind, some channel, some id, []⟩ := by
  have hne : levels root ≠ [] := levels_ne_nil root
  have hfirst : (levels root ++ [versionLevel, level, channel, id.text]).idxOf versionLevel =
      (levels root).length := by
    rw [List.idxOf_append, if_neg hmarker, List.idxOf_cons_self, Nat.zero_add]
  have hlength : 1 ≤ (levels root).length := List.length_pos_iff.2 hne
  have hregion : (if 2 ≤ (levels root).length then
      (levels root ++ [versionLevel, level, channel, id.text])[(levels root).length - 1]?
      else none) = if 2 ≤ (levels root).length then (levels root).getLast? else none := by
    rw [List.getElem?_append_left (by omega), List.getLast?_eq_getElem?]
  have hhead : (levels root ++ [versionLevel, level, channel, id.text]).headD "" =
      (levels root).headD "" := by
    cases hls : levels root with
    | nil => exact absurd hls hne
    | cons l ls => rfl
  rw [decode_ofGateway_eq hlevel hroot hchannel, ofLevels, hfirst]
  simp only [List.getElem?_append_right, Nat.le_add_right, Nat.add_sub_cancel_left]
  simp only [List.getElem?_cons_succ, List.getElem?_cons_zero, Option.bind_some, hlevel]
  rw [if_pos hlength, ofMarker_packets hkind, hregion, hhead]
  simp [gatewayOf?_text]

/-- Below a root with the marker among its levels no such topic is read as what it is:
the marker of the root comes first, so that more than one level is left after channel
and gateway, unless the topic is taken for one of another kind. -/
theorem not_readAs_of_mem (hmarker : versionLevel ∈ levels root) :
    ¬ ReadAs kind channel id (ofGateway root level channel id) := by
  rintro ⟨t, ht, hk, -, -, hextra⟩
  have hbefore : (levels root ++ [versionLevel, level, channel, id.text]).idxOf versionLevel <
      (levels root).length := by
    rw [List.idxOf_append, if_pos hmarker]
    exact List.idxOf_lt_length_iff.2 hmarker
  have hlegacy : ∀ {topic ls}, ofLegacy topic ls ≠ .ok t := by
    intro topic ls h
    rcases hkind with rfl | rfl <;> rcases kind_ofLegacy h with h | h <;> rw [h] at hk <;> cases hk
  rw [decode_ofGateway_eq hlevel hroot hchannel, ofLevels] at ht
  -- either the level after the first marker names a kind, and levels are left over after channel
  -- and gateway, or the topic counts as one of the older layout
  split at ht
  · next found _ =>
    split at ht
    · obtain rfl : found = kind := (kind_ofMarker ht).symm.trans hk
      rw [ofMarker_packets hkind] at ht
      split at ht <;> cases ht
      have hlength := congrArg List.length hextra
      simp only [List.length_drop, List.length_append, List.length_cons, List.length_nil] at hlength
      omega
    · exact hlegacy ht
  · exact hlegacy ht

theorem readAs_ofGateway_iff :
    ReadAs kind channel id (ofGateway root level channel id) ↔ versionLevel ∉ levels root :=
  ⟨fun h hmarker => not_readAs_of_mem hlevel hkind hroot hchannel hmarker h,
    fun hmarker => ⟨_, decode_ofGateway hlevel hkind hroot hchannel hmarker, rfl, rfl, rfl, rfl⟩⟩

end Gateway

section Built

variable {root channel : String} (hroot : checkComponent root true = .ok ())
  (hchannel : checkComponent channel false = .ok ())
include hroot hchannel

theorem checkNames_ok : checkNames root channel = .ok () := by
  rw [checkNames, hroot]
  simp only [hchannel]

theorem publication_eq (id : NodeId) :
    publication root channel id = .ok (ofGateway root "json" channel id) := by
  rw [publication, checkNames_ok hroot hchannel]
  refine congrArg Except.ok (String.toList_inj.1 ?_)
  simp [ofGateway]

/-- The first filter is for packets under `e`: what gateways send there, with the id
in place of the wildcard. -/
theorem subscriptions_head (id : NodeId) : ∃ stem filters,
    subscriptions root channel = .ok ((stem ++ "#") :: filters) ∧
      ofGateway root "e" channel id = stem ++ id.text := by
  refine ⟨root ++ "/" ++ versionLevel ++ "/e/" ++ channel ++ "/",
    [root ++ "/" ++ versionLevel ++ "/json/" ++ channel ++ "/#",
     root ++ "/" ++ versionLevel ++ "/stat/#"], ?_, String.toList_inj.1 ?_⟩
  · rw [subscriptions, checkNames_ok hroot hchannel]
    refine congrArg Except.ok (congrArg (· :: _) (String.toList_inj.1 ?_))
    simp
  · simp [ofGateway]

end Built

/-- What a session publishes, and what its first filter lets through from any gateway,
is read as what it was built from exactly if no level of the root is the marker. -/
theorem built_topics_read (root channel : String) (id : NodeId)
    (hroot : checkComponent root true = .ok ())
    (hchannel : checkComponent channel false = .ok ()) :
    (∃ topic, publication root channel id = .ok topic ∧
      (ReadAs .json channel id topic ↔ versionLevel ∉ levels root)) ∧
    ∃ stem filters, subscriptions root channel = .ok ((stem ++ "#") :: filters) ∧
      (ReadAs .protobuf channel id (stem ++ id.text) ↔ versionLevel ∉ levels root) := by
  obtain ⟨stem, filters, hfilters, hstem⟩ := subscriptions_head hroot hchannel id
  refine ⟨⟨_, publication_eq hroot hchannel id, ?_⟩, stem, filters, hfilters, ?_⟩
  · exact readAs_ofGateway_iff rfl (.inl rfl) hroot hchannel
  · rw [← hstem]
    exact readAs_ofGateway_iff rfl (.inr rfl) hroot hchannel

theorem built_topics_read_two_regions :
    checkComponent "msh/EU_868/DE" true = .ok () ∧ checkComponent "2" false = .ok () ∧
    (∃ topic, publication "msh/EU_868/DE" "2" ⟨0x1234abcd⟩ = .ok topic ∧
      (ReadAs .json "2" ⟨0x1234abcd⟩ topic ↔ versionLevel ∉ levels "msh/EU_868/DE")) ∧
    ∃ stem filters, subscriptions "msh/EU_868/DE" "2" = .ok ((stem ++ "#") :: filters) ∧
      (ReadAs .protobuf "2" ⟨0x1234abcd⟩ (stem ++ (⟨0x1234abcd⟩ : NodeId).text) ↔
        versionLevel ∉ levels "msh/EU_868/DE") :=
  ⟨by decide, by decide,
    built_topics_read "msh/EU_868/DE" "2" ⟨0x1234abcd⟩ (by decide) (by decide)⟩

/-- A root may end in a level that is the marker. What is published under it is no
topic that can be read. -/
theorem publication_under_marker :
    checkComponent "msh/2" true = .ok () ∧ checkComponent "LongFast" false = .ok () ∧
      publication "msh/2" "LongFast" ⟨0x1234abcd⟩ = .ok "msh/2/2/json/LongFast/!1234abcd" ∧
      decode "msh/2/2/json/LongFast/!1234abcd" =
        .error (.topic "msh/2/2/json/LongFast/!1234abcd" .unrecognised) := by
  refine ⟨by decide, by decide, by decide, by decide⟩

end Topic

end MeshWatch
