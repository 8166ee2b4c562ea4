import MeshWatch.Proofs.OneNode
import MeshWatch.Proofs.Plausibility
import MeshWatch.Proofs.TrafficSteps

/-!
# Names of nodes

A node tells its names itself, and whatever else happens leaves them alone. What it tells is
cleaned before it is stored. Both formats leave empty names out, but they do so before the
cleaning, and a name of which nothing is left then is stored all the same. So a node that is
known by a name loses it if and only if it tells one that is there and yet blank as far as it
is looked at. The models of hardware that are told by number have names that can be seen, so
that only an object can take that name away.

- `cleanName_eq_empty_iff`: which names nothing is left of.
- `UserInfo.IsTold`: the names that a reader lets through, with `Receiver.isTold_packetOf`.
- `Mesh.nameOf_perform`: what a step does to a name.
- `Monitor.known_names_and_blank_ones`: one step of any traffic, `Monitor.names_outlast_traffic`
  a whole run.
-/

namespace MeshWatch

/-! ## Three names -/

/-- The names of a node. -/
inductive NameKind where
  | short
  | long
  | hardware
deriving DecidableEq, Repr

/-- How many characters of a name are stored at most. -/
def NameKind.limit : NameKind → Nat
  | short => Node.shortNameLength
  | long => Node.longNameLength
  | hardware => Node.longNameLength

/-- The name that is stored. -/
def Node.nameOf (n : Node) : NameKind → String
  | .short => n.shortName
  | .long => n.longName
  | .hardware => n.hardwareModel

/-- The name that an update brings. -/
def NodeUpdate.nameOf? (u : NodeUpdate) : NameKind → Option String
  | .short => u.shortName
  | .long => u.longName
  | .hardware => u.hardwareModel

/-- The name that a node tells. -/
def UserInfo.nameOf? (u : UserInfo) : NameKind → Option String
  | .short => u.shortName
  | .long => u.longName
  | .hardware => u.hardwareModel

theorem Packet.nameOf?_nodeUpdate (p : Packet) (k : NameKind) (raw : String) :
    p.nodeUpdate.nameOf? k = some raw ↔ ∃ u, p.payload = .nodeInfo u ∧ u.nameOf? k = some raw := by
  unfold nodeUpdate
  cases p.payload with
  | nodeInfo u => cases k <;> simp [NodeUpdate.nameOf?, UserInfo.nameOf?]
  | _ => cases k <;> simp [NodeUpdate.nameOf?]

/-! ## Cleaning -/

/-- Nothing can be seen of a name as far as it is looked at. -/
def IsBlankName (limit : Nat) (raw : String) : Prop :=
  ∀ c ∈ (raw.toList.filter fun c => !Text.isControl c).take limit, Text.isBlank c = true

instance (limit : Nat) (raw : String) : Decidable (IsBlankName limit raw) :=
  List.decidableBAll (fun c => Text.isBlank c = true) _

theorem Text.trimmed_eq_nil_iff (cs : List Char) :
    trimmed cs = [] ↔ ∀ c ∈ cs, isBlank c = true := by
  rw [trimmed, List.reverse_eq_nil_iff, List.dropWhile_eq_nil_iff]
  constructor
  · intro h
    rw [← List.dropWhile_eq_nil_iff]
    by_contra hne
    -- the first character that is left of the front is seen from the back as well
    have hhead : isBlank ((cs.dropWhile isBlank).head hne) = true :=
      h _ (List.mem_reverse.2 (List.head_mem hne))
    rw [List.head_dropWhile_not isBlank hne] at hhead
    cases hhead
  · exact fun h c hc => h c ((List.dropWhile_sublist _).subset (List.mem_reverse.1 hc))

/-- **Nothing is left** of a blank name. -/
theorem cleanName_eq_empty_iff (limit : Nat) (raw : String) :
    cleanName limit raw = "" ↔ IsBlankName limit raw := by
  rw [cleanName, String.ofList_eq_empty_iff, Text.trimmed_eq_nil_iff]
  rfl

/-- A control character takes no place, and a blank does. -/
example : IsBlankName 4 "\x07    AB" ∧ ¬ IsBlankName 4 "\x07   AB" := by decide

/-- A name after one was told, if one was. -/
def renamed (limit : Nat) (told : Option String) (known : String) : String :=
  (told.map (cleanName limit)).getD known

theorem renamed_renamed (limit : Nat) (told : Option String) (known : String) :
    renamed limit told (renamed limit told known) = renamed limit told known := by
  cases told <;> rfl

namespace Node

theorem nameOf_update (n : Node) (u : NodeUpdate) (now : Moment) (k : NameKind) :
    (n.update u now).nameOf k = renamed k.limit (u.nameOf? k) (n.nameOf k) := by
  cases k <;> rfl

theorem nameOf_takeHeader (n : Node) (p : Packet) (now : Moment) (k : NameKind) :
    (n.takeHeader p now).nameOf k = n.nameOf k := by
  refine takeHeader_keeps (Q := fun n' => n'.nameOf k = n.nameOf k) rfl ?_ ?_ ?_
  · exact fun _ _ h => (by cases k <;> exact h)
  · exact fun _ _ _ h => (by cases k <;> exact h)
  · exact fun _ _ _ h => (by cases k <;> exact h)

end Node

/-! ## Names that are read -/

/-- What the readers make sure of: a name that is there is not empty, and of a model that is
told by its number something can be seen. -/
structure UserInfo.IsTold (format : BodyFormat) (u : UserInfo) : Prop where
  ne_empty : ∀ k raw, u.nameOf? k = some raw → raw ≠ ""
  hardware : format = .binary → ∀ raw, u.nameOf? .hardware = some raw →
    ¬ IsBlankName NameKind.hardware.limit raw

/-- A name whose first character can be seen is not blank. -/
theorem not_isBlankName {limit : Nat} (hlimit : limit ≠ 0) {raw : String} {c : Char} {cs : List Char}
    (hraw : raw.toList = c :: cs) (hcontrol : Text.isControl c = false)
    (hblank : Text.isBlank c = false) : ¬ IsBlankName limit raw := by
  obtain ⟨l, rfl⟩ := Nat.exists_eq_succ_of_ne_zero hlimit
  intro h
  unfold IsBlankName at h
  rw [hraw, List.filter_cons_of_pos (by rw [hcontrol]; rfl), List.take_succ_cons] at h
  exact Bool.false_ne_true (hblank.symm.trans (h c (List.mem_cons_self ..)))

/-- The name of a model can be seen. -/
theorem Hardware.not_isBlankName_nameOf (model : UInt32) :
    ¬ IsBlankName NameKind.hardware.limit (nameOf model) := by
  have hlimit : NameKind.hardware.limit ≠ 0 := by decide
  unfold nameOf
  cases h : names.lookup model.toNat with
  | none => exact not_isBlankName hlimit (String.toList_append ..) rfl rfl
  | some name =>
    have htable : ∀ entry ∈ names, entry.2.toList.head?.any
        (fun c => !Text.isControl c && !Text.isBlank c) = true := by decide
    obtain ⟨before, later, hnames, -⟩ := List.lookup_eq_some_iff.1 h
    have hseen := htable (model.toNat, name) (hnames ▸ List.mem_append_right _ (.head _))
    cases hname : name.toList with
    | nil => simp [hname] at hseen
    | cons c cs =>
      simp only [hname, List.head?_cons, Option.any_some, Bool.and_eq_true,
        Bool.not_eq_true'] at hseen
      exact not_isBlankName hlimit hname hseen.1 hseen.2

theorem ne_empty_of_nonEmpty? {s raw : String} (h : nonEmpty? s = some raw) : raw ≠ "" := by
  unfold nonEmpty? at h
  split at h
  · cases h
  · next hs =>
    cases h
    exact fun he => hs (by rw [he]; rfl)

theorem Json.ne_empty_of_fullText? {j : Json} {raw : String} (h : j.fullText? = some raw) :
    raw ≠ "" := by
  have hfull := (Option.filter_eq_some_iff.1 h).2
  rintro rfl
  cases hfull

/-- An empty name is a blank one. -/
theorem ne_empty_of_not_isBlankName {limit : Nat} {raw : String} (h : ¬ IsBlankName limit raw) :
    raw ≠ "" := by
  rintro rfl
  refine h fun c hc => ?_
  simp at hc

namespace UserInfo

variable {format : BodyFormat}

theorem isTold_ofWire (m : Wire.User) : (ofWire m).IsTold format where
  ne_empty k raw h := by
    cases k with
    | short => exact ne_empty_of_nonEmpty? h
    | long => exact ne_empty_of_nonEmpty? h
    | hardware =>
      obtain rfl := Option.some.inj h
      exact ne_empty_of_not_isBlankName (Hardware.not_isBlankName_nameOf _)
  hardware _ raw h := by
    obtain rfl := Option.some.inj h
    exact Hardware.not_isBlankName_nameOf _

theorem ne_empty_of_hardware? {j : Json} {raw : String} (h : hardware? j = some raw) :
    raw ≠ "" := by
  unfold hardware? at h
  split at h
  · split at h
    · cases h
    · next hs =>
      cases h
      exact fun he => hs (by rw [he]; rfl)
  · obtain ⟨model, -, rfl⟩ := Option.map_eq_some_iff.1 h
    exact ne_empty_of_not_isBlankName (Hardware.not_isBlankName_nameOf model)

/-- An object may hold any text for its model. -/
theorem isTold_ofMembers (ms : Json.Members) : (ofMembers ms).IsTold .json where
  ne_empty k raw h := by
    cases k with
    | short =>
      obtain ⟨j, -, hj⟩ := Option.bind_eq_some_iff.1 h
      exact Json.ne_empty_of_fullText? hj
    | long =>
      obtain ⟨j, -, hj⟩ := Option.bind_eq_some_iff.1 h
      exact Json.ne_empty_of_fullText? hj
    | hardware =>
      obtain ⟨j, -, hj⟩ := Option.bind_eq_some_iff.1 h
      exact ne_empty_of_hardware? hj
  hardware h := BodyFormat.noConfusion h

end UserInfo

namespace Payload

/-- Only a description of a node holds names. -/
def IsTold (format : BodyFormat) : Payload → Prop
  | nodeInfo u => u.IsTold format
  | _ => True

variable {format : BodyFormat} {requestId : UInt32} {p : Payload}

theorem isTold_ofBinary {port : UInt32} {body : Bytes}
    (h : ofBinary port body requestId = .ok p) : p.IsTold format := by
  unfold ofBinary at h
  split at h
  case h_1 =>
    obtain ⟨t, rfl⟩ := exists_of_ofText_ok h
    trivial
  case h_3 =>
    obtain ⟨m, rfl⟩ := exists_of_ofWire_ok h
    exact UserInfo.isTold_ofWire m
  case h_8 =>
    cases h
    trivial
  all_goals
    obtain ⟨m, rfl⟩ := exists_of_ofWire_ok h
    trivial

theorem isTold_ofFields {messageType : Option String} {whole : Json} {ms : Json.Members}
    (h : ofFields messageType whole ms requestId = .ok p) : p.IsTold .json := by
  unfold ofFields at h
  split at h
  · unfold ofMembers at h
    split at h
    case h_1 =>
      split at h
      · cases h
        trivial
      · cases h
    case h_4 =>
      cases h
      exact UserInfo.isTold_ofMembers _
    all_goals
      cases h
      trivial
  · cases h
    trivial

theorem isTold_ofObject {messageType : Option String} {payload : Json}
    (h : ofObject messageType payload requestId = .ok p) : p.IsTold .json := by
  unfold ofObject at h
  split at h
  · cases h
    trivial
  · exact isTold_ofFields h
  · exact isTold_ofFields h
  · cases h

end Payload

/-- **Whatever message** a packet is read from, the names in it are as the readers of its format
let them through. -/
theorem Receiver.isTold_packetOf {r : Receiver} {topic : String} {body : Bytes} {p : Packet}
    (h : (r.packetOf topic body).toOption = some p) :
    ∃ t, Topic.decode topic = .ok t ∧ p.payload.IsTold (t.format body) := by
  obtain ⟨t, e, payload, ht, he, hpayload, rfl⟩ := exists_of_packetOf (ok_of_toOption h)
  refine ⟨t, ht, payloadOf_keeps Payload.isTold_ofBinary trivial (fun q hq => ?_) hpayload⟩
  obtain ⟨hformat, _, _, _, hobject⟩ := Envelope.exists_of_decoded he hq
  rw [hformat]
  exact Payload.isTold_ofObject hobject

/-! ## One step on a mesh -/

namespace Mesh

variable {m : Mesh} {x : NodeId} {n n' : Node}

theorem name_takes (k : NameKind) :
    Takes (fun n => n.nameOf k) fun u name => renamed k.limit (u.nameOf? k) name where
  link _ _ _ _ _ := by cases k <;> rfl
  forgetRoute _ _ := by cases k <;> rfl
  rememberRoute _ _ := by cases k <;> rfl
  hears _ _ := by cases k <;> simp only [Node.hears, Node.nameOf]
  isHeardBy _ _ := by cases k <;> simp only [Node.isHeardBy, Node.nameOf]
  again u name := renamed_renamed k.limit (u.nameOf? k) name
  nothing _ := by cases k <;> rfl
  update n u now := n.nameOf_update u now k
  takeHeader n p now := n.nameOf_takeHeader p now k
  heardAt _ _ := by cases k <;> rfl

/-- **One operation.** A node that is there before and after it has the name that was told of
it, and its own one otherwise. -/
theorem nameOf_perform (k : NameKind) {s : Step} (hs : s.operation.isRestoration = false)
    (hn : m.nodes[x]? = some n) (hn' : (m.perform s).1.nodes[x]? = some n') :
    n'.nameOf k = if x ∈ m.heard s then
        renamed k.limit ((s.operation.updateFor x).nameOf? k) (n.nameOf k)
      else n.nameOf k := by
  have hshown := ((name_takes k).perform m s hs x).shown
  simp only [shown, hn, hn', Option.map_some, Option.getD_some] at hshown
  by_cases hx : x ∈ m.heard s
  · rw [if_pos hx] at hshown ⊢
    exact Option.some.inj hshown
  · rw [if_neg hx] at hshown ⊢
    split at hshown
    · cases hshown
    · exact Option.some.inj hshown

end Mesh

/-! ## One step of the traffic -/

namespace Monitor

variable {m : Monitor} {s : Step} {x : NodeId} {k : NameKind} {raw : String} {n n' : Node}

/-- A step brings a packet that is applied, and in it its sender tells a name. -/
def Tells (m : Monitor) (s : Step) (x : NodeId) (k : NameKind) (raw : String) : Prop :=
  ∃ p u, s.operation? m.receiver = some ⟨.packet p, s.now⟩ ∧
    x ∈ m.mesh.heard ⟨.packet p, s.now⟩ ∧ p.sender = x ∧ p.payload = .nodeInfo u ∧
    u.nameOf? k = some raw

/-- The input is a message whose body is read as JSON. -/
def Step.IsObject (s : Step) : Prop :=
  ∃ topic body tick t, s.input = .message topic body tick ∧ Topic.decode topic = .ok t ∧
    t.format body = .json

theorem Tells.ne_empty (h : m.Tells s x k raw) : raw ≠ "" := by
  obtain ⟨p, u, hop, -, -, hu, hraw⟩ := h
  obtain ⟨topic, body, tick, -, hp⟩ := exists_message_of_packet hop
  obtain ⟨t, -, htold⟩ := Receiver.isTold_packetOf hp
  rw [hu] at htold
  exact htold.ne_empty k raw hraw

/-- Only an object can tell a model of which nothing can be seen. -/
theorem Tells.isObject (h : m.Tells s x .hardware raw)
    (hblank : IsBlankName NameKind.hardware.limit raw) : s.IsObject := by
  obtain ⟨p, u, hop, -, -, hu, hraw⟩ := h
  obtain ⟨topic, body, tick, hinput, hp⟩ := exists_message_of_packet hop
  obtain ⟨t, ht, htold⟩ := Receiver.isTold_packetOf hp
  rw [hu] at htold
  cases hformat : t.format body with
  | json => exact ⟨topic, body, tick, t, hinput, ht, hformat⟩
  | binary => exact absurd hblank (htold.hardware hformat raw hraw)

theorem tells_iff {op : Mesh.Step} (hop : s.operation? m.receiver = some op) :
    m.Tells s x k raw ↔
      x ∈ m.mesh.heard op ∧ (op.operation.updateFor x).nameOf? k = some raw := by
  have hnothing : NodeUpdate.nameOf? {} k = none := by cases k <;> rfl
  constructor
  · rintro ⟨p, u, hp, hx, rfl, hu, hraw⟩
    obtain rfl := Option.some.inj (hop.symm.trans hp)
    have htold : (Mesh.Operation.packet p).updateFor p.sender = p.nodeUpdate := if_pos rfl
    exact ⟨hx, htold ▸ (p.nameOf?_nodeUpdate k raw).2 ⟨u, hu, hraw⟩⟩
  · rintro ⟨hx, hraw⟩
    rcases operation?_cases hop with ⟨p, rfl⟩ | ⟨id, rfl⟩ | rfl
    · by_cases hsender : p.sender = x
      · have htold : (Mesh.Operation.packet p).updateFor x = p.nodeUpdate := if_pos hsender
        rw [htold] at hraw
        obtain ⟨u, hu, hname⟩ := (p.nameOf?_nodeUpdate k raw).1 hraw
        exact ⟨p, u, hop, hx, hsender, hu, hname⟩
      · have htold : (Mesh.Operation.packet p).updateFor x = {} := if_neg hsender
        rw [htold, hnothing] at hraw
        cases hraw
    · have htold : (Mesh.Operation.update id {}).updateFor x = {} := ite_self _
      rw [htold, hnothing] at hraw
      cases hraw
    · exact absurd (hnothing.symm.trans hraw) nofun

/-- **One step.** A node that is there before and after it is named as it told, or as before. -/
theorem nameOf_perform (k : NameKind) (hn : m.mesh.nodes[x]? = some n)
    (hn' : (m.perform s).1.mesh.nodes[x]? = some n') :
    (∀ raw, m.Tells s x k raw → n'.nameOf k = cleanName k.limit raw) ∧
    ((∀ raw, ¬ m.Tells s x k raw) → n'.nameOf k = n.nameOf k) := by
  have hdoes := m.does_perform s
  cases hop : s.operation? m.receiver with
  | none =>
    rw [hop] at hdoes
    rw [hdoes.1, hn] at hn'
    obtain rfl := Option.some.inj hn'
    refine ⟨fun raw htold => ?_, fun _ => rfl⟩
    obtain ⟨p, u, hp, -⟩ := htold
    rw [hop] at hp
    cases hp
  | some op =>
    rw [hop] at hdoes
    rw [hdoes.1] at hn'
    have hs : op.operation.isRestoration = false := by
      rcases operation?_cases hop with ⟨p, rfl⟩ | ⟨id, rfl⟩ | rfl <;> rfl
    have hname := Mesh.nameOf_perform k hs hn hn'
    refine ⟨fun raw htold => ?_, fun hnone => ?_⟩
    · obtain ⟨hx, hraw⟩ := (tells_iff hop).1 htold
      rw [hname, if_pos hx, hraw]
      rfl
    · split at hname
      · next hx =>
        cases hraw : (op.operation.updateFor x).nameOf? k with
        | none =>
          rw [hname, hraw]
          rfl
        | some raw => exact absurd ((tells_iff hop).2 ⟨hx, hraw⟩) (hnone raw)
      · exact hname

theorem name_lost_iff (k : NameKind) (hn : m.mesh.nodes[x]? = some n)
    (hn' : (m.perform s).1.mesh.nodes[x]? = some n') (hknown : n.nameOf k ≠ "") :
    n'.nameOf k = "" ↔ ∃ raw, m.Tells s x k raw ∧ raw ≠ "" ∧ IsBlankName k.limit raw := by
  obtain ⟨htold, hsame⟩ := nameOf_perform k hn hn'
  constructor
  · intro hempty
    by_contra hnone
    -- a name that was told would be blank, and without one the node keeps its own
    refine hknown ((hsame fun raw hraw => hnone ⟨raw, hraw, hraw.ne_empty, ?_⟩).symm.trans hempty)
    rw [← cleanName_eq_empty_iff, ← htold raw hraw]
    exact hempty
  · rintro ⟨raw, hraw, -, hblank⟩
    rw [htold raw hraw, cleanName_eq_empty_iff]
    exact hblank

/-- **Known names and blank ones.** Whatever a step brings, a node that is there before and
after it is named as it told itself, cleaned, and as before if it told nothing. So a name that
is known gets lost if and only if the node tells one that is there, and of which nothing is left
when it is cleaned; that of its hardware, only if it does so in JSON. -/
theorem known_names_and_blank_ones (m : Monitor) (s : Step) (k : NameKind)
    (hn : m.mesh.nodes[x]? = some n) (hn' : (m.perform s).1.mesh.nodes[x]? = some n') :
    (∀ raw, m.Tells s x k raw → n'.nameOf k = cleanName k.limit raw) ∧
    ((∀ raw, ¬ m.Tells s x k raw) → n'.nameOf k = n.nameOf k) ∧
    (n.nameOf k ≠ "" → (n'.nameOf k = "" ↔
      ∃ raw, m.Tells s x k raw ∧ raw ≠ "" ∧ IsBlankName k.limit raw)) ∧
    (n.nameOf k ≠ "" → n'.nameOf k = "" → k = .hardware → s.IsObject) := by
  obtain ⟨htold, hsame⟩ := nameOf_perform k hn hn'
  refine ⟨htold, hsame, name_lost_iff k hn hn', ?_⟩
  rintro hknown hempty rfl
  obtain ⟨raw, hraw, -, hblank⟩ := (name_lost_iff .hardware hn hn' hknown).1 hempty
  exact hraw.isObject hblank

/-- A description of a node that has nothing but its short name. -/
def introduction (packetId : Nat) (name : String) : Bytes :=
  Bytes.ofText ("\x7b\"from\":4097,\"id\":" ++ toString packetId
    ++ ",\"type\":\"nodeinfo\",\"payload\":\x7b\"short_name\":\"" ++ name ++ "\"\x7d\x7d")

/-- The first character that can be seen comes after those that are kept. -/
theorem name_seen_too_late :
    let start : Monitor := ⟨Mesh.new {} "" {}, {}, {}, .standard⟩
    let topic := "msh/2/json/LongFast"
    let known := start.after [⟨.message topic (introduction 1 "AB") 0, .ofSecs 10⟩]
    let s : Step := ⟨.message topic (introduction 2 "    C") 0, .ofSecs 20⟩
    ∃ n n', known.mesh.nodes[(⟨4097⟩ : NodeId)]? = some n ∧ n.nameOf .short = "AB" ∧
      (known.perform s).1.mesh.nodes[(⟨4097⟩ : NodeId)]? = some n' ∧ n'.nameOf .short = "" ∧
      ∃ raw, known.Tells s ⟨4097⟩ .short raw ∧ raw ≠ "" ∧ IsBlankName 4 raw := by
  intro start topic known s
  have hbefore : (known.mesh.nodes[(⟨4097⟩ : NodeId)]?).map (·.nameOf .short) = some "AB" := by
    decide +kernel
  have hafter : ((known.perform s).1.mesh.nodes[(⟨4097⟩ : NodeId)]?).map (·.nameOf .short)
      = some "" := by decide +kernel
  obtain ⟨n, hn, hknown⟩ := Option.map_eq_some_iff.1 hbefore
  obtain ⟨n', hn', hempty⟩ := Option.map_eq_some_iff.1 hafter
  obtain ⟨-, -, hlost, -⟩ := known_names_and_blank_ones known s .short hn hn'
  have hne : n.nameOf .short ≠ "" := by
    rw [hknown]
    decide
  exact ⟨n, n', hn, hknown, hn', hempty, (hlost hne).1 hempty⟩

/-- A name of one space is taken for a name. -/
theorem space_erases_known_name :
    let start : Monitor := ⟨Mesh.new {} "" {}, {}, {}, .standard⟩
    let topic := "msh/2/json/LongFast"
    let known := start.after [⟨.message topic (introduction 1 "AB") 0, .ofSecs 10⟩]
    let s : Step := ⟨.message topic (introduction 2 " ") 0, .ofSecs 20⟩
    (known.mesh.nodes[(⟨4097⟩ : NodeId)]?).map Node.shortName = some "AB" ∧
    ((known.receiver.packetOf topic (introduction 2 " ")).toOption.map Packet.payload)
      = some (.nodeInfo { shortName := some " " }) ∧
    ((known.perform s).1.mesh.nodes[(⟨4097⟩ : NodeId)]?).map Node.shortName = some "" := by
  refine ⟨?_, ?_, ?_⟩ <;> decide +kernel

/-! ## Runs -/

/-- A node is not known by a name, be it for want of the node. -/
def Unnamed (x : NodeId) (k : NameKind) (m : Monitor) : Prop :=
  ∀ n, m.mesh.nodes[x]? = some n → n.nameOf k = ""

theorem not_unnamed_iff :
    ¬ Unnamed x k m ↔ ∃ n, m.mesh.nodes[x]? = some n ∧ n.nameOf k ≠ "" := by
  simp only [Unnamed, not_forall, exists_prop]

/-- **A run.** A name that was known at the start of a run and is missing at its end was lost
on the way: the node was removed, or it told a blank name. -/
theorem names_outlast_traffic {steps : List Step} (hstart : ¬ Unnamed x k m)
    (hend : Unnamed x k (m.after steps)) :
    ∃ before s later, steps = before ++ s :: later ∧
      (((m.after before).perform s).1.mesh.nodes[x]? = none ∨
        ∃ raw, (m.after before).Tells s x k raw ∧ raw ≠ "" ∧ IsBlankName k.limit raw) := by
  obtain ⟨before, s, later, rfl, hbefore, hafter⟩ := exists_step_of_after hstart hend
  refine ⟨before, s, later, rfl, ?_⟩
  obtain ⟨n, hn, hknown⟩ := not_unnamed_iff.1 hbefore
  cases hn' : ((m.after before).perform s).1.mesh.nodes[x]? with
  | none => exact Or.inl rfl
  | some n' => exact Or.inr ((name_lost_iff k hn hn' hknown).1 (hafter n' hn'))

end Monitor

end MeshWatch
