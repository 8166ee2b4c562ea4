import MeshWatch.Payload.Object

/-!
# Two spellings of one field

Firmware and gateways write the fields of a payload in snake case or in camel case. Every
reader of a field lists the two spellings side by side, so that a body reads the same in
either. The lists that guess the port of a body without a type were written apart from
the readers, and three fields stand there in one spelling only.

- `Respelled`: one field of a document, at any depth, is written in its other spelling.
- `Respelled.bind_field?`, `Respelled.map_group?`: a reader that lists both sees no difference.
- `respelled_ofMembers`: on a known port the body is the same.
- `respelled_portOf?`: the port is the same, but for the three fields.
- `respelled_payload`: when the spelling of a field does not matter.
-/

namespace MeshWatch

open Json (Members field? hasAny nested)

namespace Spelling

/-- The fields that are guessed from in both spellings or in none. -/
def even : List (String × String) :=
  [("latitude_i", "latitudeI"), ("longitude_i", "longitudeI"),
   ("precision_bits", "precisionBits"), ("ground_speed", "groundSpeed"),
   ("sats_in_view", "satsInView"), ("device_metrics", "deviceMetrics"),
   ("battery_level", "batteryLevel"), ("channel_utilization", "channelUtilization"),
   ("air_util_tx", "airUtilTx"), ("uptime_seconds", "uptimeSeconds"),
   ("relative_humidity", "relativeHumidity"), ("barometric_pressure", "barometricPressure"),
   ("gas_resistance", "gasResistance"), ("long_name", "longName"), ("hw_model", "hwModel"),
   ("route_back", "routeBack"), ("snr_back", "snrBack"), ("node_id", "nodeId"),
   ("node_broadcast_interval_secs", "nodeBroadcastIntervalSecs"),
   ("request_id", "requestId"), ("error_reason", "errorReason"), ("port_num", "portNum")]

/-- The fields that are guessed from in one spelling only. -/
def uneven : List (String × String) :=
  [("environment_metrics", "environmentMetrics"), ("short_name", "shortName"),
   ("snr_towards", "snrTowards")]

/-- The fields that are read in snake case and in camel case. -/
def both : List (String × String) := even ++ uneven

/-- Whether the first of two names in a list is `a` with `b` right after it, or neither
stands there. -/
def beside (a b : String) : List String → Bool
  | [] => true
  | k :: keys => if k = a then keys.head? = some b else k ≠ b && beside a b keys

/-- Names that a reader tries in turn, with the spellings of a field side by side. -/
def Paired (keys : List String) : Prop := ∀ p ∈ both, beside p.1 p.2 keys = true

instance (keys : List String) : Decidable (Paired keys) :=
  inferInstanceAs (Decidable (∀ p ∈ both, _))

/-- Names of which one is looked for, with both spellings of a field or none. -/
def Balanced (pairs : List (String × String)) (keys : List String) : Prop :=
  ∀ p ∈ pairs, p.1 ∈ keys ↔ p.2 ∈ keys

instance (pairs : List (String × String)) (keys : List String) :
    Decidable (Balanced pairs keys) :=
  inferInstanceAs (Decidable (∀ p ∈ pairs, _))

end Spelling

open Spelling

/-- The members of an object before and after a field is written under its other key. -/
structure Rekeyed (old new : String) (ms ms' : Members) : Prop where
  present : (ms.get? old).isSome = true
  vacant : ms.get? new = none
  moved : ms'.get? new = ms.get? old
  left : ms'.get? old = none
  others : ∀ k, k ≠ old → k ≠ new → ms'.get? k = ms.get? k

/-- One field of a document is written in its other spelling. -/
inductive Respelled : Json → Json → Prop
  | toCamel {ms ms' : Members} {p : String × String} (hp : p ∈ both)
      (h : Rekeyed p.1 p.2 ms ms') : Respelled (.object ms) (.object ms')
  | toSnake {ms ms' : Members} {p : String × String} (hp : p ∈ both)
      (h : Rekeyed p.2 p.1 ms ms') : Respelled (.object ms) (.object ms')
  | member {ms ms' : Members} {key : String} {v v' : Json} (hv : ms.get? key = some v)
      (hv' : ms'.get? key = some v') (hothers : ∀ k, k ≠ key → ms'.get? k = ms.get? k)
      (h : Respelled v v') : Respelled (.object ms) (.object ms')
  | item {xs ys : List Json} {v v' : Json} (h : Respelled v v') :
      Respelled (.array (xs ++ v :: ys)) (.array (xs ++ v' :: ys))

variable {ms ms' : Members} {keys : List String} {α : Type}

namespace Rekeyed

variable {old new : String}

theorem symm (h : Rekeyed old new ms ms') : Rekeyed new old ms' ms where
  present := h.moved ▸ h.present
  vacant := h.left
  moved := h.moved.symm
  left := h.vacant
  others k hnew hold := (h.others k hold hnew).symm

/-- The first member is written under another key, which no other member has. -/
theorem head {v : Json} {rest : Members} (hne : old ≠ new) (hold : Members.get? rest old = none)
    (hnew : Members.get? rest new = none) : Rekeyed old new ((old, v) :: rest) ((new, v) :: rest) where
  present := by rw [Members.get?_cons_self, Option.isSome_some]
  vacant := by rw [Members.get?_cons_of_ne hne.symm, hnew]
  moved := by rw [Members.get?_cons_self, Members.get?_cons_self]
  left := by rw [Members.get?_cons_of_ne hne, hold]
  others k hk hk' := by rw [Members.get?_cons_of_ne hk, Members.get?_cons_of_ne hk']

/-- A reader that tries the two keys one after the other finds the same value. -/
theorem field?_eq (h : Rekeyed old new ms ms') (hkeys : beside old new keys = true) :
    field? ms' keys = field? ms keys := by
  induction keys with
  | nil => rfl
  | cons k keys ih =>
    rw [beside] at hkeys
    split at hkeys
    · next hold =>
      subst hold
      obtain ⟨v, hv⟩ := Option.isSome_iff_exists.1 h.present
      obtain ⟨rest, rfl⟩ := List.head?_eq_some_iff.1 (of_decide_eq_true hkeys)
      simp [field?, h.left, h.moved, hv]
    · next hold =>
      obtain ⟨hnew, hrest⟩ := Bool.and_eq_true_iff.1 hkeys
      simp only [field?, List.findSome?_cons, h.others k hold (of_decide_eq_true hnew)]
      split
      · rfl
      · exact ih hrest

theorem hasAny_imp (h : Rekeyed old new ms ms') (hkeys : old ∈ keys → new ∈ keys)
    (hany : hasAny ms keys = true) : hasAny ms' keys = true := by
  obtain ⟨k, hk, hsome⟩ := List.any_eq_true.1 hany
  refine List.any_eq_true.2 ?_
  by_cases hold : k = old
  · subst hold
    exact ⟨new, hkeys hk, h.moved ▸ hsome⟩
  · by_cases hnew : k = new
    · rw [hnew, h.vacant] at hsome
      cases hsome
    · exact ⟨k, hk, h.others k hold hnew ▸ hsome⟩

/-- Of names with both keys or none among them, one is there before if and only if one is
there after. -/
theorem hasAny_eq (h : Rekeyed old new ms ms') (hkeys : old ∈ keys ↔ new ∈ keys) :
    hasAny ms' keys = hasAny ms keys :=
  Bool.eq_iff_iff.2 ⟨h.symm.hasAny_imp hkeys.2, h.hasAny_imp hkeys.1⟩

end Rekeyed

/-- A reader that reads the same in both spellings. -/
def Blind (f : Json → α) : Prop := ∀ ⦃v v' : Json⦄, Respelled v v' → f v' = f v

/-- A reader of members that reads the same in both spellings. -/
def BlindToMembers (f : Members → α) : Prop :=
  ∀ ⦃ms ms' : Members⦄, Respelled (.object ms) (.object ms') → f ms' = f ms

namespace Respelled

variable {v v' : Json}

theorem symm (h : Respelled v v') : Respelled v' v := by
  induction h with
  | toCamel hp h => exact .toSnake hp h.symm
  | toSnake hp h => exact .toCamel hp h.symm
  | member hv hv' hothers _ ih => exact .member hv' hv (fun k hk => (hothers k hk).symm) ih
  | item _ ih => exact .item ih

/-- Something inside the first member is written in its other spelling. -/
theorem head {key : String} {rest : Members} (h : Respelled v v') :
    Respelled (.object ((key, v) :: rest)) (.object ((key, v') :: rest)) :=
  .member (Members.get?_cons_self ..) (Members.get?_cons_self ..)
    (fun k hk => by rw [Members.get?_cons_of_ne hk, Members.get?_cons_of_ne hk]) h

/-- Only objects and arrays have anything to write in another spelling. -/
theorem containers (h : Respelled v v') :
    (∃ ms ms', v = .object ms ∧ v' = .object ms') ∨ ∃ xs ys, v = .array xs ∧ v' = .array ys := by
  cases h with
  | toCamel | toSnake | member => exact .inl ⟨_, _, rfl, rfl⟩
  | item => exact .inr ⟨_, _, rfl, rfl⟩

/-- A reader that lists both spellings finds the same value, or one with a field inside it
in its other spelling. -/
theorem field? (h : Respelled (.object ms) (.object ms')) (hkeys : Paired keys) :
    field? ms' keys = field? ms keys ∨
    ∃ v v', Json.field? ms keys = some v ∧ Json.field? ms' keys = some v' ∧ Respelled v v' := by
  cases h with
  | toCamel hp h => exact .inl (h.field?_eq (hkeys _ hp))
  | toSnake hp h => exact .inl (h.symm.field?_eq (hkeys _ hp)).symm
  | @member _ _ key v v' hv hv' hothers h =>
    clear hkeys
    induction keys with
    | nil => exact .inl rfl
    | cons k keys ih =>
      by_cases hk : k = key
      · subst hk
        exact .inr ⟨v, v', by simp [Json.field?, hv], by simp [Json.field?, hv'], h⟩
      · simp only [Json.field?, List.findSome?_cons, hothers k hk] at ih ⊢
        split
        · exact .inl rfl
        · exact ih

theorem bind_field? {f : Json → Option α} (h : Respelled (.object ms) (.object ms'))
    (hkeys : Paired keys) (hf : Blind f) :
    (Json.field? ms' keys).bind f = (Json.field? ms keys).bind f := by
  rcases h.field? hkeys with he | ⟨v, v', hv, hv', hin⟩
  · rw [he]
  · rw [hv, hv']
    exact hf hin

/-- Which names are there does not depend on what lies under them. -/
theorem hasAny_of_member {key : String} (hv : ms.get? key = some v) (hv' : ms'.get? key = some v')
    (hothers : ∀ k, k ≠ key → ms'.get? k = ms.get? k) : hasAny ms' keys = hasAny ms keys := by
  refine congrArg (keys.any ·) (funext fun k => ?_)
  by_cases hk : k = key
  · rw [hk, hv, hv']
    rfl
  · rw [hothers k hk]

theorem hasAny_eq (h : Respelled (.object ms) (.object ms')) (hkeys : Balanced both keys) :
    hasAny ms' keys = hasAny ms keys := by
  cases h with
  | toCamel hp h => exact h.hasAny_eq (hkeys _ hp)
  | toSnake hp h => exact (h.symm.hasAny_eq (hkeys _ hp)).symm
  | member hv hv' hothers _ => exact hasAny_of_member hv hv' hothers

/-- A group of members, read from under its name or from the object itself. -/
theorem nested_blind {f : Members → α} (h : Respelled (.object ms) (.object ms'))
    (hkeys : Paired keys) (hf : BlindToMembers f) : f (nested ms' keys) = f (nested ms keys) := by
  unfold nested
  rcases h.field? hkeys with he | ⟨v, v', hv, hv', hin⟩
  · rw [he]
    cases (Json.field? ms keys).bind Json.asObject? with
    | none => exact hf h
    | some g => rfl
  · rw [hv, hv']
    rcases hin.containers with ⟨g, g', rfl, rfl⟩ | ⟨xs, ys, rfl, rfl⟩
    · exact hf hin
    · exact hf h

end Respelled

/-- A reader of values that have no members takes no notice of spellings. -/
theorem Blind.of_flat {f : Json → Option α} (hobject : ∀ ms, f (.object ms) = none)
    (harray : ∀ xs, f (.array xs) = none) : Blind f := by
  intro v v' h
  rcases h.containers with ⟨ms, ms', rfl, rfl⟩ | ⟨xs, ys, rfl, rfl⟩
  · rw [hobject, hobject]
  · rw [harray, harray]

namespace Respelled

/-- A field whose value has no members reads the same. -/
theorem bind_flat {f : Json → Option α} (h : Respelled (.object ms) (.object ms'))
    (hkeys : Paired keys) (hobject : ∀ ms, f (.object ms) = none)
    (harray : ∀ xs, f (.array xs) = none) :
    (Json.field? ms' keys).bind f = (Json.field? ms keys).bind f :=
  h.bind_field? hkeys (.of_flat hobject harray)

theorem word?_eq (h : Respelled (.object ms) (.object ms')) (hkeys : Paired keys) :
    (Json.field? ms' keys).bind Json.word? = (Json.field? ms keys).bind Json.word? :=
  h.bind_flat hkeys (fun _ => rfl) fun _ => rfl

theorem rounded?_eq (h : Respelled (.object ms) (.object ms')) (hkeys : Paired keys) :
    (Json.field? ms' keys).bind Json.rounded? = (Json.field? ms keys).bind Json.rounded? :=
  h.bind_flat hkeys (fun _ => rfl) fun _ => rfl

theorem nodeId?_eq (h : Respelled (.object ms) (.object ms')) (hkeys : Paired keys) :
    (Json.field? ms' keys).bind Json.nodeId? = (Json.field? ms keys).bind Json.nodeId? :=
  h.bind_flat hkeys (fun _ => rfl) fun _ => rfl

/-- A list is read item by item. -/
theorem items_eq {f : Json → Option α} (h : Respelled (.object ms) (.object ms'))
    (hkeys : Paired keys) (hf : Blind f) :
    (((Json.field? ms' keys).bind Json.asArray?).getD []).filterMap f =
      (((Json.field? ms keys).bind Json.asArray?).getD []).filterMap f := by
  rcases h.field? hkeys with he | ⟨v, v', hv, hv', hin⟩
  · rw [he]
  · rw [hv, hv']
    cases hin with
    | toCamel | toSnake | member => rfl
    | item hitem =>
      simp only [Option.bind_some, Json.asArray?, Option.getD_some, List.filterMap_append,
        List.filterMap_cons, hf hitem]

/-- A group of metrics, read from under its name or from the report itself. -/
theorem map_group? {names metrics : List String} {f : Members → α}
    (h : Respelled (.object ms) (.object ms')) (hnames : Paired names)
    (hmetrics : Balanced both metrics) (hf : BlindToMembers f) :
    (TelemetryReport.group? ms' names metrics).map f =
      (TelemetryReport.group? ms names metrics).map f := by
  have hown : (if hasAny ms' metrics then some ms' else none).map f =
      (if hasAny ms metrics then some ms else none).map f := by
    rw [h.hasAny_eq hmetrics]
    split
    · exact congrArg some (hf h)
    · rfl
  unfold TelemetryReport.group?
  rcases h.field? hnames with he | ⟨v, v', hv, hv', hin⟩
  · rw [he]
    cases (Json.field? ms names).bind Json.asObject? with
    | none => exact hown
    | some g => rfl
  · rw [hv, hv']
    rcases hin.containers with ⟨g, g', rfl, rfl⟩ | ⟨xs, ys, rfl, rfl⟩
    · exact congrArg some (hf hin)
    · exact hown

end Respelled

/-! ## Bodies -/

theorem PositionReport.ofMembers_blind : BlindToMembers PositionReport.ofMembers := by
  intro ms ms' h
  have hsigned {keys} (hkeys : Paired keys) :=
    h.bind_flat (f := Json.signed?) hkeys (fun _ => rfl) fun _ => rfl
  have hdouble {keys} (hkeys : Paired keys) :=
    h.bind_flat (f := Json.asDouble?) hkeys (fun _ => rfl) fun _ => rfl
  simp (disch := decide) only [ofMembers, coordinate?, h.word?_eq, hsigned, hdouble]

theorem DeviceMetrics.ofMembers_blind : BlindToMembers DeviceMetrics.ofMembers := by
  intro ms ms' h
  simp (disch := decide) only [ofMembers, h.word?_eq, h.rounded?_eq]

theorem EnvironmentMetrics.ofMembers_blind : BlindToMembers EnvironmentMetrics.ofMembers := by
  intro ms ms' h
  simp (disch := decide) only [ofMembers, h.rounded?_eq]

theorem TelemetryReport.ofMembers_blind : BlindToMembers TelemetryReport.ofMembers := by
  intro ms ms' h
  have hdevice : BlindToMembers fun d => (DeviceMetrics.ofMembers d).sanitized :=
    fun _ _ hin => congrArg DeviceMetrics.sanitized (DeviceMetrics.ofMembers_blind hin)
  have henvironment : BlindToMembers fun e => (EnvironmentMetrics.ofMembers e).sanitized :=
    fun _ _ hin => congrArg EnvironmentMetrics.sanitized (EnvironmentMetrics.ofMembers_blind hin)
  have hdevices {names metrics} (hnames : Paired names) (hmetrics : Balanced both metrics) :=
    h.map_group? hnames hmetrics hdevice
  have henvironments {names metrics} (hnames : Paired names) (hmetrics : Balanced both metrics) :=
    h.map_group? hnames hmetrics henvironment
  simp (disch := decide) only [ofMembers, h.word?_eq, hdevices, henvironments]

theorem UserInfo.ofMembers_blind : BlindToMembers UserInfo.ofMembers := by
  intro ms ms' h
  have htext {keys} (hkeys : Paired keys) :=
    h.bind_flat (f := Json.fullText?) hkeys (fun _ => rfl) fun _ => rfl
  have hhardware {keys} (hkeys : Paired keys) :=
    h.bind_flat (f := hardware?) hkeys (fun _ => rfl) fun _ => rfl
  have hrole {keys} (hkeys : Paired keys) :=
    h.bind_flat (f := role?) hkeys (fun _ => rfl) fun _ => rfl
  simp (disch := decide) only [ofMembers, htext, hhardware, hrole]

theorem RouteDiscovery.ofMembers_blind : BlindToMembers RouteDiscovery.ofMembers := by
  intro ms ms' h
  have hids {keys} (hkeys : Paired keys) : ids ms' keys = ids ms keys :=
    h.items_eq hkeys (.of_flat (fun _ => rfl) fun _ => rfl)
  have hratios {keys} (hkeys : Paired keys) : ratios ms' keys = ratios ms keys :=
    h.items_eq hkeys (.of_flat (fun _ => rfl) fun _ => rfl)
  simp (disch := decide) only [ofMembers, hids, hratios]

namespace NeighborReport

/-- An entry is an object, which may be written in other spellings itself. -/
theorem entry?_blind : Blind entry? := by
  intro v v' h
  rcases h.containers with ⟨ms, ms', rfl, rfl⟩ | ⟨xs, ys, rfl, rfl⟩
  · simp (disch := decide) only [ entry?, Json.asObject?, Option.bind_eq_bind,
      Option.bind_some, h.nodeId?_eq, h.rounded?_eq]
  · rfl

theorem ofMembers_blind : BlindToMembers ofMembers := by
  intro ms ms' h
  have hentries {keys} (hkeys : Paired keys) := h.items_eq hkeys entry?_blind
  simp (disch := decide) only [ofMembers, h.nodeId?_eq, h.word?_eq, hentries]

end NeighborReport

theorem RoutingReport.ofMembers_blind (requestId : UInt32) :
    BlindToMembers (RoutingReport.ofMembers · requestId) := by
  intro ms ms' h
  have hreason {keys} (hkeys : Paired keys) :=
    h.bind_flat (f := errorReason?) hkeys (fun _ => rfl) fun _ => rfl
  simp (disch := decide) only [ofMembers, h.word?_eq, hreason]

namespace Payload

/-- Whether a body was read as one of the known types. -/
def typed : Except DecodeFault Payload → Bool
  | .ok (.unknown ..) => false
  | .ok _ => true
  | .error _ => false

/-- On one port the body reads the same, unless no type fits it. -/
theorem respelled_ofMembers {port requestId : UInt32} {whole whole' : Json}
    (h : Respelled (.object ms) (.object ms'))
    (htyped : typed (ofMembers port whole ms requestId) = true) :
    ofMembers port whole' ms' requestId = ofMembers port whole ms requestId := by
  have htext : textOf? ms' = textOf? ms :=
    h.bind_flat (by decide) (fun _ => rfl) fun _ => rfl
  have hrouting : RoutingReport.ofMembers ms' requestId = RoutingReport.ofMembers ms requestId :=
    RoutingReport.ofMembers_blind requestId h
  unfold ofMembers at htyped ⊢
  split at htyped
  · rw [htext]
  · rw [h.nested_blind (by decide) PositionReport.ofMembers_blind]
  · rw [h.nested_blind (by decide) TelemetryReport.ofMembers_blind]
  · rw [h.nested_blind (by decide) UserInfo.ofMembers_blind]
  · rw [h.nested_blind (by decide) RouteDiscovery.ofMembers_blind]
  · rw [h.nested_blind (by decide) NeighborReport.ofMembers_blind]
  · rw [hrouting]
  · cases htyped

/-! ## Ports -/

theorem respelled_statedPort? (h : Respelled (.object ms) (.object ms')) :
    statedPort? ms' = statedPort? ms := by
  have hkeys : Paired ["portnum", "port_num", "portNum"] := by decide
  unfold statedPort?
  rcases h.field? hkeys with he | ⟨v, v', hv, hv', hin⟩
  · rw [he]
  · rw [hv, hv']
    rcases hin.containers with ⟨g, g', rfl, rfl⟩ | ⟨xs, ys, rfl, rfl⟩ <;> rfl

theorem guessedPort?_congr (h : ∀ {keys}, Balanced even keys → hasAny ms' keys = hasAny ms keys) :
    guessedPort? ms' = guessedPort? ms := by
  simp (disch := decide) only [guessedPort?, h]

/-- The guess is another one only if one of the three fields was written under its other
key in the object itself. -/
theorem respelled_guessedPort? (h : Respelled (.object ms) (.object ms')) :
    guessedPort? ms' = guessedPort? ms ∨
      ∃ p ∈ uneven, Rekeyed p.1 p.2 ms ms' ∨ Rekeyed p.2 p.1 ms ms' := by
  cases h with
  | toCamel hp h =>
    rcases List.mem_append.1 hp with heven | huneven
    · exact .inl (guessedPort?_congr fun hkeys => h.hasAny_eq (hkeys _ heven))
    · exact .inr ⟨_, huneven, .inl h⟩
  | toSnake hp h =>
    rcases List.mem_append.1 hp with heven | huneven
    · exact .inl (guessedPort?_congr fun hkeys => h.hasAny_eq (hkeys _ heven).symm)
    · exact .inr ⟨_, huneven, .inr h⟩
  | member hv hv' hothers _ =>
    exact .inl (guessedPort?_congr fun _ => Respelled.hasAny_of_member hv hv' hothers)

/-- The port is another one only if it has to be guessed. -/
theorem respelled_portOf? (messageType : Option String)
    (h : Respelled (.object ms) (.object ms')) :
    portOf? messageType ms' = portOf? messageType ms ∨
      statedPort? ms = none ∧ messageType.bind portOfType? = none ∧
        ∃ p ∈ uneven, Rekeyed p.1 p.2 ms ms' ∨ Rekeyed p.2 p.1 ms ms' := by
  have hstated := respelled_statedPort? h
  rcases respelled_guessedPort? h with hguess | huneven
  · left
    rw [portOf?, portOf?, hstated, hguess]
  · cases hs : statedPort? ms with
    | some n => exact .inl (by rw [portOf?, portOf?, hstated, hs]; rfl)
    | none =>
      cases ht : messageType.bind portOfType? with
      | some port => exact .inl (by rw [portOf?, portOf?, hstated, hs, ht]; rfl)
      | none => exact .inr ⟨rfl, rfl, huneven⟩

theorem port_ofMembers {port requestId : UInt32} {whole : Json} {p : Payload}
    (h : ofMembers port whole ms requestId = .ok p) : p.port = port := by
  unfold ofMembers at h
  split at h
  · next hport =>
    split at h
    · cases h
      exact Port.ofNumber?_eq_some hport
    · cases h
  all_goals cases h
  case h_8 => rfl
  all_goals exact Port.ofNumber?_eq_some ‹_›

/-- A typed body was read on its own port. -/
theorem portOf?_of_typed {messageType : Option String} {requestId : UInt32}
    (h : typed (ofObject messageType (.object ms) requestId) = true) :
    ∃ p, ofObject messageType (.object ms) requestId = .ok p ∧
      portOf? messageType ms = some p.port := by
  rw [ofObject, ofFields] at h ⊢
  cases hport : portOf? messageType ms with
  | none =>
    rw [hport] at h
    cases h
  | some port =>
    rw [hport] at h
    cases hp : ofMembers port (.object ms) ms requestId with
    | ok p => exact ⟨p, hp, congrArg some (port_ofMembers hp).symm⟩
    | error fault =>
      simp only [hp] at h
      cases h

/-- With the same port, a typed body stays what it is. -/
theorem respelled_ofObject {messageType : Option String} {requestId : UInt32}
    (h : Respelled (.object ms) (.object ms'))
    (htyped : typed (ofObject messageType (.object ms) requestId) = true)
    (hport : portOf? messageType ms' = portOf? messageType ms) :
    ofObject messageType (.object ms') requestId = ofObject messageType (.object ms) requestId := by
  simp only [ofObject, ofFields, hport] at htyped ⊢
  cases hp : portOf? messageType ms with
  | none =>
    rw [hp] at htyped
    cases htyped
  | some port =>
    rw [hp] at htyped
    exact respelled_ofMembers h htyped

/-- **Spellings.** A field of an object, at any depth, is written in its other spelling.
When the body is of a known type in one of the two, it is the same in both if and only if
both have the same port; and a port that is stated, or known from the type of the message,
or that is guessed from any but three fields, is the same. -/
theorem respelled_payload (messageType : Option String) (requestId : UInt32)
    (h : Respelled (.object ms) (.object ms'))
    (htyped : typed (ofObject messageType (.object ms) requestId) = true ∨
      typed (ofObject messageType (.object ms') requestId) = true) :
    (ofObject messageType (.object ms') requestId = ofObject messageType (.object ms) requestId ↔
      portOf? messageType ms' = portOf? messageType ms) ∧
    (portOf? messageType ms' = portOf? messageType ms ∨
      statedPort? ms = none ∧ messageType.bind portOfType? = none ∧
        ∃ p ∈ uneven, Rekeyed p.1 p.2 ms ms' ∨ Rekeyed p.2 p.1 ms ms') := by
  refine ⟨⟨fun heq => ?_, fun hport => ?_⟩, respelled_portOf? messageType h⟩
  · have hboth : typed (ofObject messageType (.object ms) requestId) = true := by
      rcases htyped with ht | ht
      · exact ht
      · rwa [heq] at ht
    obtain ⟨p, hp, hport⟩ := portOf?_of_typed hboth
    obtain ⟨p', hp', hport'⟩ := portOf?_of_typed (heq.symm ▸ hboth)
    rw [hp, hp', Except.ok.injEq] at heq
    rw [hport, hport', heq]
  · rcases htyped with ht | ht
    · exact respelled_ofObject h ht hport
    · exact (respelled_ofObject h.symm ht hport.symm).symm

/-- A position inside an object without a type, the latitude in its other spelling. -/
theorem respelled_latitude :
    let position (latitude : String) : Json := .object [("position", .object
      [(latitude, .int 455000000), ("longitude_i", .int (-1226000000))])]
    Respelled (position "latitude_i") (position "latitudeI") ∧
    typed (ofObject none (position "latitude_i") 0) = true ∧
    ofObject none (position "latitudeI") 0 = ofObject none (position "latitude_i") 0 := by
  intro position
  have h : Respelled (position "latitude_i") (position "latitudeI") :=
    .head (.toCamel (p := ("latitude_i", "latitudeI")) (by decide)
      (.head (by decide) rfl rfl))
  have htyped : typed (ofObject none (position "latitude_i") 0) = true := by decide
  have hport : portOf? none [("position", .object
      [("latitudeI", .int 455000000), ("longitude_i", .int (-1226000000))])] =
    portOf? none [("position", .object
      [("latitude_i", .int 455000000), ("longitude_i", .int (-1226000000))])] := by decide
  exact ⟨h, htyped, (respelled_payload none 0 h (.inl htyped)).1.2 hport⟩

/-- Each of the three fields alone tells the type of a body in one spelling only. -/
theorem guess_misses_spelling :
    let read (key : String) (v : Json) : Bool := typed (ofObject none (.object [(key, v)]) 0)
    let name : Json := .string "AB"
    let metrics : Json := .object [("temperature", .int 20)]
    let ratios : Json := .array [.int 26]
    (Respelled (.object [("short_name", name)]) (.object [("shortName", name)]) ∧
      read "short_name" name = false ∧ read "shortName" name = true) ∧
    (Respelled (.object [("environment_metrics", metrics)])
        (.object [("environmentMetrics", metrics)]) ∧
      read "environment_metrics" metrics = false ∧ read "environmentMetrics" metrics = true) ∧
    Respelled (.object [("snr_towards", ratios)]) (.object [("snrTowards", ratios)]) ∧
      read "snr_towards" ratios = true ∧ read "snrTowards" ratios = false := by
  intro read name metrics ratios
  have hpair {p : String × String} {v : Json} (hp : p ∈ both) (hne : p.1 ≠ p.2) :
      Respelled (.object [(p.1, v)]) (.object [(p.2, v)]) := .toCamel hp (.head hne rfl rfl)
  refine ⟨⟨?_, by decide⟩, ⟨?_, by decide +kernel⟩, ?_, by decide +kernel⟩
  · exact hpair (p := ("short_name", "shortName")) (by decide) (by decide)
  · exact hpair (p := ("environment_metrics", "environmentMetrics")) (by decide) (by decide)
  · exact hpair (p := ("snr_towards", "snrTowards")) (by decide) (by decide)

end Payload

end MeshWatch
