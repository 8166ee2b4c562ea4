import MeshWatch.Proofs.Lasting

/-!
# The stored state stays clean

What a monitor keeps of its nodes is within bounds, whatever it was sent: names are
short and printable, metrics and positions can be true, and the lists of neighbors and
relays hold no node twice, and none that cannot be there.

Every edit of a node by a plausible packet leaves it clean.

- `Node.Clean`: all that holds of a stored node.
- `Node.Clean.update`, `Node.Clean.takeHeader`, `NeighborSet.Clean.insert`: the edits.
- `Mesh.lasting_clean`: so being clean is something that lasts.
- `nodes_stay_clean`: every node after any traffic.
-/

namespace MeshWatch

/-- Which of two values is taken, it was one of them. -/
theorem mem_or_mem_of_mem_orElse {α : Type} {a b : Option α} {x : α} (h : x ∈ (a <|> b)) :
    x ∈ a ∨ x ∈ b := by
  cases a with
  | none => exact Or.inr h
  | some y => exact Or.inl h

/-! ## Sets of ids -/

/-- At most two hundred nodes other than the owner, none of them twice. -/
structure NeighborSet.Clean (owner : NodeId) (s : NeighborSet) : Prop where
  nodup : s.ids.Nodup
  length_le : s.ids.length ≤ 200
  others : ∀ id ∈ s.ids, id.IsNode ∧ id ≠ owner

theorem NeighborSet.clean_empty (owner : NodeId) : NeighborSet.Clean owner {} := by
  constructor
  · exact List.nodup_nil
  · exact Nat.zero_le _
  · intro id hid
    cases hid

theorem NeighborSet.Clean.insert {owner id : NodeId} {s : NeighborSet} (h : s.Clean owner)
    (hid : id.IsNode) (hne : id ≠ owner) : (s.insert id).Clean owner := by
  constructor
  · exact nodup_insert h.nodup id
  · exact length_insert_le s id
  · intro i hi
    rcases mem_of_mem_insert hi with rfl | hi
    · exact ⟨hid, hne⟩
    · exact h.others i hi

/-! ## Parts of a node -/

/-- At most so many characters, none of them a control character. -/
def IsLabel (limit : Nat) (s : String) : Prop :=
  s.toList.length ≤ limit ∧ ∀ c ∈ s.toList, Text.isControl c = false

theorem isLabel_empty (limit : Nat) : IsLabel limit "" :=
  ⟨Nat.zero_le _, fun _ h => by cases h⟩

theorem isLabel_cleanName (limit : Nat) (raw : String) : IsLabel limit (cleanName limit raw) :=
  ⟨length_cleanName_le limit raw, fun _ => not_isControl_of_mem_cleanName⟩

theorem IsLabel.renamed {limit : Nat} {old : String} (h : IsLabel limit old)
    (new : Option String) : IsLabel limit ((new.map (cleanName limit)).getD old) := by
  cases new with
  | none => exact h
  | some raw => exact isLabel_cleanName limit raw

theorem DeviceMetrics.Plausible.merge {m new : DeviceMetrics} (h : m.Plausible)
    (hnew : new.Plausible) : (m.merge new).Plausible := by
  constructor
  · intro l hl
    exact (mem_or_mem_of_mem_orElse hl).elim (hnew.batteryLevel l) (h.batteryLevel l)
  · intro v hv
    exact (mem_or_mem_of_mem_orElse hv).elim (hnew.voltage v) (h.voltage v)
  · intro u hu
    exact (mem_or_mem_of_mem_orElse hu).elim (hnew.channelUtilization u) (h.channelUtilization u)
  · intro u hu
    exact (mem_or_mem_of_mem_orElse hu).elim (hnew.airUtilTx u) (h.airUtilTx u)

theorem EnvironmentMetrics.Plausible.merge {m new : EnvironmentMetrics} (h : m.Plausible)
    (hnew : new.Plausible) : (m.merge new).Plausible := by
  constructor
  · intro t ht
    exact (mem_or_mem_of_mem_orElse ht).elim (hnew.temperature t) (h.temperature t)
  · intro x hx
    exact (mem_or_mem_of_mem_orElse hx).elim (hnew.relativeHumidity x) (h.relativeHumidity x)
  · intro p hp
    exact (mem_or_mem_of_mem_orElse hp).elim (hnew.barometricPressure p) (h.barometricPressure p)
  · intro r hr
    exact (mem_or_mem_of_mem_orElse hr).elim (hnew.gasResistance r) (h.gasResistance r)

/-- The metrics that are kept of a node are within their ranges. -/
structure NodeTelemetry.Clean (t : NodeTelemetry) : Prop where
  device : t.device.Plausible
  environment : t.environment.Plausible

theorem NodeTelemetry.clean_empty : NodeTelemetry.Clean {} := by
  constructor
  · constructor <;> (intro _ h; cases h)
  · constructor <;> (intro _ h; cases h)

theorem NodeTelemetry.Clean.merge {t : NodeTelemetry} {r : TelemetryReport} (h : t.Clean)
    (hr : r.Plausible) (now : Moment) : (t.merge r now).Clean := by
  unfold NodeTelemetry.merge
  constructor
  · dsimp only
    split
    · next d hd => exact h.device.merge (hr.device d hd)
    · exact h.device
  · dsimp only
    split
    · next e he => exact h.environment.merge (hr.environment e he)
    · exact h.environment

/-- On the globe. -/
def Position.Clean (p : Position) : Prop :=
  isLatitude p.latitude = true ∧ isLongitude p.longitude = true

theorem Position.clean_ofReport? {r : PositionReport} {now : Moment} {p : Position}
    (h : ofReport? r now = some p) : p.Clean := by
  obtain ⟨⟨lat, lon⟩, hc, rfl⟩ := Option.map_eq_some_iff.1 h
  unfold PositionReport.coordinates at hc
  split at hc
  · split at hc
    · next hvalid =>
      cases hc
      exact Bool.and_eq_true_iff.1 hvalid
    · cases hc
  · cases hc

theorem LinkQuality.isStrength_update {q : LinkQuality} {rssi : Option Int32}
    (h : ∀ r ∈ q.rssi, IsStrength r) (hnew : ∀ r ∈ rssi, IsStrength r) (snr : Float32)
    (hops : Option UInt8) (now : Moment) :
    ∀ r ∈ (q.update snr rssi hops now).rssi, IsStrength r := by
  intro r hr
  unfold LinkQuality.update at hr
  split at hr
  · rcases mem_or_mem_of_mem_orElse hr with hr | hr
    · exact hnew r (Option.mem_filter_iff.1 hr).1
    · exact h r hr
  · exact h r hr

/-- At most eight hints, none of them twice and none of them zero. -/
structure CleanHints (hints : List UInt8) : Prop where
  nodup : hints.Nodup
  length_le : hints.length ≤ 8
  ne_zero : 0 ∉ hints

theorem CleanHints.touch {hints : List UInt8} {b : UInt8} (h : CleanHints hints) (hb : b ≠ 0) :
    CleanHints (Recent.touch Node.relayHintBound b hints) := by
  constructor
  · exact Recent.nodup_touch h.nodup ..
  · exact Recent.length_touch_le ..
  · intro h0
    rcases Recent.mem_of_mem_touch h0 with he | h0
    · exact hb he.symm
    · exact h.ne_zero h0

/-! ## Nodes -/

/-- What holds of every node that is stored under an id. -/
structure Node.Clean (id : NodeId) (n : Node) : Prop where
  isNode : id.IsNode
  id_eq : n.id = id
  shortName : IsLabel 4 n.shortName
  longName : IsLabel 40 n.longName
  hardwareModel : IsLabel 40 n.hardwareModel
  position : ∀ p ∈ n.position, p.Clean
  telemetry : n.telemetry.Clean
  rssi : ∀ r ∈ n.linkQuality.rssi, IsStrength r
  neighbors : n.neighbors.Clean id
  heardBy : n.heardBy.Clean id
  relayHints : CleanHints n.relayHints

namespace Node

variable {id i : NodeId} {n : Node}

theorem clean_new (h : id.IsNode) (now : Moment) : Clean id (Node.new id now) where
  isNode := h
  id_eq := rfl
  shortName := isLabel_empty 4
  longName := isLabel_empty 40
  hardwareModel := isLabel_empty 40
  position := fun _ hp => by cases hp
  telemetry := NodeTelemetry.clean_empty
  rssi := fun _ hr => by cases hr
  neighbors := NeighborSet.clean_empty id
  heardBy := NeighborSet.clean_empty id
  relayHints := ⟨List.nodup_nil, Nat.zero_le _, fun h => by cases h⟩

theorem Clean.heardAt (h : Clean id n) (now : Moment) : Clean id (n.heardAt now) := { h with }

theorem Clean.rememberRoute (h : Clean id n) (routeId : String) :
    Clean id (n.rememberRoute routeId) := { h with }

theorem Clean.forgetRoute (h : Clean id n) (routeId : String) :
    Clean id (n.forgetRoute routeId) := { h with }

theorem Clean.withRelayHints (h : Clean id n) {hints : List UInt8} (hh : CleanHints hints) :
    Clean id { n with relayHints := hints } := { h with relayHints := hh }

theorem Clean.withNeighbors (h : Clean id n) {s : NeighborSet} (hs : s.Clean id) :
    Clean id { n with neighbors := s } := { h with neighbors := hs }

theorem Clean.withHeardBy (h : Clean id n) {s : NeighborSet} (hs : s.Clean id) :
    Clean id { n with heardBy := s } := { h with heardBy := hs }

theorem Clean.rememberRelayHint (h : Clean id n) {b : UInt8} (hb : b ≠ 0) :
    Clean id (n.rememberRelayHint b) := h.withRelayHints (h.relayHints.touch hb)

theorem Clean.hears (h : Clean id n) (hi : i.IsNode) (hne : i ≠ id) : Clean id (n.hears i) :=
  h.withNeighbors (h.neighbors.insert hi hne)

theorem Clean.isHeardBy (h : Clean id n) (hi : i.IsNode) (hne : i ≠ id) :
    Clean id (n.isHeardBy i) :=
  h.withHeardBy (h.heardBy.insert hi hne)

/-- What a plausible update tells leaves a node clean. -/
theorem Clean.update (h : Clean id n) {u : NodeUpdate} (hu : ∀ r ∈ u.telemetry, r.Plausible)
    (now : Moment) : Clean id (n.update u now) where
  isNode := h.isNode
  id_eq := h.id_eq
  shortName := h.shortName.renamed u.shortName
  longName := h.longName.renamed u.longName
  hardwareModel := h.hardwareModel.renamed u.hardwareModel
  position := by
    intro p hp
    rcases mem_or_mem_of_mem_orElse hp with hp | hp
    · obtain ⟨r, -, hr⟩ := Option.bind_eq_some_iff.1 hp
      exact Position.clean_ofReport? hr
    · exact h.position p hp
  telemetry := by
    unfold Node.update
    cases hr : u.telemetry with
    | none => exact h.telemetry
    | some r => exact h.telemetry.merge (hu r hr) now
  rssi := h.rssi
  neighbors := h.neighbors
  heardBy := h.heardBy
  relayHints := h.relayHints

theorem Clean.withLink (h : Clean id n) {rssi : Option Int32} (hr : ∀ r ∈ rssi, IsStrength r)
    (snr : Float32) (hops : Option UInt8) (now : Moment) :
    Clean id (n.updateLink snr rssi hops now).withLinkTelemetry :=
  { h with
    telemetry := ⟨h.telemetry.device, h.telemetry.environment⟩
    rssi := LinkQuality.isStrength_update h.rssi hr snr hops now }

/-- The header of a plausible packet leaves a node clean. -/
theorem Clean.takeHeader (h : Clean id n) {p : Packet} (hp : p.Plausible) (now : Moment) :
    Clean id (n.takeHeader p now) := by
  refine takeHeader_keeps h ?_ ?_ ?_
  · intro n gw hn
    exact { hn with }
  · intro n snr _ hn
    exact hn.withLink hp.rxRssi ..
  · intro n hint hhint hn
    exact hn.rememberRelayHint (hp.relay hint hhint)

end Node

/-! ## Traffic -/

/-- Every edit by a plausible packet leaves a node clean. -/
theorem Mesh.lasting_clean : Mesh.Lasting Node.Clean where
  new := Node.clean_new
  heardAt := fun now h => h.heardAt now
  update := fun hu now h => h.update hu now
  takeHeader := fun hp now h => h.takeHeader hp now
  forgetRoute := fun routeId h => h.forgetRoute routeId
  rememberRoute := fun routeId h => h.rememberRoute routeId
  hears := fun hi hne h => h.hears hi hne
  isHeardBy := fun hi hne h => h.isHeardBy hi hne

namespace Monitor

open Mesh (EveryNode)

theorem clean_after (steps : List Step) : ∀ m : Monitor, EveryNode Node.Clean m.mesh →
    EveryNode Node.Clean (m.after steps).mesh :=
  lasting_after Mesh.lasting_clean steps

/-- **The stored state stays clean.** Whatever messages came on whatever topics, and
whenever the mesh was swept in between, every node that is stored is clean. -/
theorem nodes_stay_clean (limits : Limits) (primary : String) (orders : HashOrders)
    (receiver : Receiver) (stats : Stats) (rejections : RejectionWindow) (steps : List Step) :
    EveryNode Node.Clean
      (after ⟨Mesh.new limits primary orders, receiver, stats, rejections⟩ steps).mesh :=
  clean_after steps _ (Mesh.everyNode_new _ limits primary orders)

end Monitor

end MeshWatch
