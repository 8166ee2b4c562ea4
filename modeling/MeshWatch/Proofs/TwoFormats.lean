import MeshWatch.Mesh.Apply
import MeshWatch.Payload.Object
import MeshWatch.Proofs.BodyRoundTrip
import MeshWatch.Proofs.Widening

/-!
# One body in two formats

A gateway publishes the body of a packet as a wire message, as an object, or as both. The
object has the fields that count as present in the wire message, under their names in
snake case. Either is read to a payload of its own, and the two differ in one way only: a
group of metrics without a metric in it is a group on the wire, and none in an object. A
mesh makes no difference between these.

- `Json.Members.get?_ofFields`: the values of an object whose fields may be missing.
- `PositionReport.ofMembers_named` and the like: objects are read to what the wire says.
- `NodeTelemetry.merge_pruned`, `Mesh.apply_pruned`: a group without a metric is as good as
  none.
- `Wire.Body.formats_agree`: the effect of a body does not depend on its format.
-/

namespace MeshWatch

open Json (Members field? hasAny nested)

namespace Json

variable {ms : Members}

namespace Members

/-- The object of fields of which some may be missing. -/
def ofFields (fs : List (String × Option Json)) : Members :=
  fs.filterMap fun f => f.2.map (f.1, ·)

/-- A name that no field has. -/
theorem get?_ofFields_of_notMem {fs : List (String × Option Json)} {k : String}
    (h : k ∉ fs.map Prod.fst) : (ofFields fs).get? k = none := by
  refine List.lookup_eq_none_iff.2 fun m hm => bne_iff_ne.2 fun he => h ?_
  obtain ⟨f, hf, hm⟩ := List.mem_filterMap.1 hm
  obtain ⟨v, -, rfl⟩ := Option.map_eq_some_iff.1 hm
  exact List.mem_map.2 ⟨f, hf, he.symm⟩

theorem get?_ofFields (fs : List (String × Option Json)) (h : (fs.map Prod.fst).Nodup)
    (k : String) : (ofFields fs).get? k = (List.lookup k fs).join := by
  induction fs with
  | nil => rfl
  | cons f fs ih =>
    obtain ⟨key, v⟩ := f
    obtain ⟨hnew, hrest⟩ := List.nodup_cons.1 h
    by_cases hk : k = key
    · subst hk
      rw [List.lookup_cons_self]
      cases v with
      | none =>
        have hnone : (ofFields fs).get? k = none := get?_ofFields_of_notMem hnew
        exact hnone
      | some j => exact get?_cons_self k j (ofFields fs)
    · rw [List.lookup_cons, beq_eq_false_iff_ne.2 hk]
      cases v with
      | none => exact ih hrest
      | some j => exact (get?_cons_of_ne hk j (ofFields fs)).trans (ih hrest)

end Members

theorem field?_nil : field? ms [] = none := rfl

theorem field?_cons (key : String) (keys : List String) :
    field? ms (key :: keys) = (ms.get? key).or (field? ms keys) := by
  rw [field?, List.findSome?_cons]
  cases ms.get? key <;> rfl

/-! ## Numbers -/

theorem word?_ofUInt32 (n : UInt32) : (ofUInt32 n).word? = some n := by
  have hlt : (n.toNat : Int) < UInt32.size := by exact_mod_cast n.toNat_lt
  rw [ofUInt32, word?, if_pos ⟨Int.natCast_nonneg _, hlt⟩, Int.toNat_natCast, UInt32.ofNat_toNat]

theorem nodeId?_ofUInt32 (n : UInt32) : (ofUInt32 n).nodeId? = some ⟨n⟩ := by
  have hlt : (n.toNat : Int) < UInt32.size := by exact_mod_cast n.toNat_lt
  rw [ofUInt32, nodeId?, if_pos ⟨Int.natCast_nonneg _, hlt⟩, Int.toNat_natCast, UInt32.ofNat_toNat]

theorem asSigned?_ofInt32 (n : Int32) : (ofInt32 n).asSigned? = some n.toInt := by
  have hlow := n.le_toInt
  have hhigh := n.toInt_lt
  rw [ofInt32, asSigned?, if_pos (by omega)]

theorem signed?_ofInt32 (n : Int32) : (ofInt32 n).signed? = some n := by
  have hlow := n.le_toInt
  have hhigh := n.toInt_lt
  rw [signed?, asSigned?_ofInt32]
  show (if _ then _ else _) = _
  rw [if_pos (by omega), Int32.ofInt_toInt]

/-- A number that is not negative is read as what the wire cuts off at zero. -/
theorem word?_ofInt32 {n : Int32} (h : 0 ≤ n) : (ofInt32 n).word? = some (clampedWord n) := by
  have hlow : 0 ≤ n.toInt := Int32.le_iff_toInt_le.1 h
  have hhigh := n.toInt_lt
  have hsize : UInt32.size = 4294967296 := rfl
  rw [ofInt32, word?, if_pos (by omega)]
  rfl

theorem hasAny_ofFields {fs : List (String × Option Json)} {keys : List String}
    (h : ∀ k ∈ keys, k ∉ fs.map Prod.fst) : hasAny (Members.ofFields fs) keys = false := by
  refine List.any_eq_false.2 fun k hk => ?_
  rw [Members.get?_ofFields_of_notMem (h k hk)]
  exact Bool.false_ne_true

theorem field?_ofFields_of_missing {fs : List (String × Option Json)} {keys : List String}
    (h : ∀ k ∈ keys, k ∉ fs.map Prod.fst) : field? (Members.ofFields fs) keys = none :=
  List.findSome?_eq_none_iff.2 fun k hk => Members.get?_ofFields_of_notMem (h k hk)

theorem nested_ofFields {fs : List (String × Option Json)} {keys : List String}
    (h : ∀ k ∈ keys, k ∉ fs.map Prod.fst) :
    nested (Members.ofFields fs) keys = Members.ofFields fs := by
  rw [nested, field?_ofFields_of_missing h]
  rfl

/-! ## Values that may be missing -/

theorem bind_map {α β : Type} {f : α → Json} {g : Json → Option β} {h : α → β} {v : Option α}
    (hread : ∀ a ∈ v, g (f a) = some (h a)) : (v.map f).bind g = v.map h := by
  cases v with
  | none => rfl
  | some a => exact hread a rfl

theorem filterMap_map {α β : Type} {f : α → Json} {g : Json → Option β} {h : α → β}
    (hread : ∀ a, g (f a) = some (h a)) (xs : List α) : (xs.map f).filterMap g = xs.map h := by
  have hcomp : g ∘ f = some ∘ h := funext hread
  rw [List.filterMap_map, hcomp, List.filterMap_eq_map]

theorem bind_word? (v : Option UInt32) : (v.map ofUInt32).bind word? = v :=
  (bind_map fun n _ => word?_ofUInt32 n).trans Option.map_id'

theorem bind_nodeId? (v : Option UInt32) : (v.map ofUInt32).bind nodeId? = v.map NodeId.mk :=
  bind_map fun n _ => nodeId?_ofUInt32 n

theorem bind_signed? (v : Option Int32) : (v.map ofInt32).bind signed? = v :=
  (bind_map fun n _ => signed?_ofInt32 n).trans Option.map_id'

theorem bind_scaled (v : Option Int32) :
    ((v.map ofInt32).bind asDouble?).map (· / 1e7) = v.map scaledDegrees := by
  cases v <;> rfl

theorem bind_fullText? (s : String) :
    ((nonEmpty? s).map Json.string).bind fullText? = nonEmpty? s := by
  unfold nonEmpty?
  split
  · rfl
  · next hs => simp [fullText?, asString?, hs]

/-- A list, unless there is nothing in it. -/
def list? {α : Type} (f : α → Json) (xs : List α) : Option Json :=
  if xs.isEmpty then none else some (list f xs)

theorem asArray?_list? {α : Type} (f : α → Json) (xs : List α) :
    ((list? f xs).bind asArray?).getD [] = xs.map f := by
  cases xs <;> rfl

end Json

/-! ## Fields by name -/

namespace Wire

variable (num : Single → Json)

/-- The fields of a position that are there. -/
def Position.named (p : Position) : List (String × Option Json) :=
  [("altitude", p.altitude.map Json.ofInt32),
   ("ground_speed", p.groundSpeed.map Json.ofUInt32),
   ("latitude_i", p.latitudeI.map Json.ofInt32),
   ("longitude_i", p.longitudeI.map Json.ofInt32),
   ("precision_bits", (nonzero? p.precisionBits).map Json.ofUInt32),
   ("sats_in_view", (nonzero? p.satsInView).map Json.ofUInt32),
   ("time", (nonzero? p.time).map Json.ofUInt32)]

/-- What a node says about itself; the model and the role are always there. -/
def User.named (u : User) : List (String × Option Json) :=
  [("hw_model", some (Json.ofInt32 u.hwModel)),
   ("id", (nonEmpty? u.id).map Json.string),
   ("long_name", (nonEmpty? u.longName).map Json.string),
   ("role", some (Json.ofInt32 u.role)),
   ("short_name", (nonEmpty? u.shortName).map Json.string)]

def DeviceMetrics.named (d : DeviceMetrics) : List (String × Option Json) :=
  [("air_util_tx", d.airUtilTx.map num),
   ("battery_level", d.batteryLevel.map Json.ofUInt32),
   ("channel_utilization", d.channelUtilization.map num),
   ("uptime_seconds", d.uptimeSeconds.map Json.ofUInt32),
   ("voltage", d.voltage.map num)]

def EnvironmentMetrics.named (e : EnvironmentMetrics) : List (String × Option Json) :=
  [("barometric_pressure", e.barometricPressure.map num),
   ("gas_resistance", e.gasResistance.map num),
   ("relative_humidity", e.relativeHumidity.map num),
   ("temperature", e.temperature.map num)]

/-- A telemetry body; its variant is there even without a metric. -/
def Telemetry.named (t : Telemetry) : List (String × Option Json) :=
  [("device_metrics", match t.variant with
     | some (.device d) => some (.object (Members.ofFields (d.named num)))
     | _ => none),
   ("environment_metrics", match t.variant with
     | some (.environment e) => some (.object (Members.ofFields (e.named num)))
     | _ => none),
   ("time", (nonzero? t.time).map Json.ofUInt32)]

def Routing.named (r : Routing) : List (String × Option Json) :=
  [("error_reason", match r.variant with
     | some (.errorReason code) => some (Json.ofInt32 code)
     | _ => none)]

def RouteDiscovery.named (r : RouteDiscovery) : List (String × Option Json) :=
  [("route", Json.list? Json.ofUInt32 r.route),
   ("route_back", Json.list? Json.ofUInt32 r.routeBack),
   ("snr_back", Json.list? Json.ofInt32 r.snrBack),
   ("snr_towards", Json.list? Json.ofInt32 r.snrTowards)]

def Neighbor.named (n : Neighbor) : List (String × Option Json) :=
  [("node_id", (nonzero? n.nodeId).map Json.ofUInt32),
   ("snr", if n.snr.isZero then none else some (num n.snr))]

def NeighborInfo.named (r : NeighborInfo) : List (String × Option Json) :=
  [("neighbors", Json.list? (fun n => .object (Members.ofFields (n.named num))) r.neighbors),
   ("node_broadcast_interval_secs", (nonzero? r.nodeBroadcastIntervalSecs).map Json.ofUInt32),
   ("node_id", (nonzero? r.nodeId).map Json.ofUInt32)]

end Wire

/-! ## What a body has to meet -/

namespace Wire

/-- Finite floats are written as numbers that are exactly theirs in the wider width. -/
def WritesExactly (num : Single → Json) : Prop :=
  ∀ x : Single, x.toFloat.isFinite = true → (num x).asDouble? = some (Ieee.widen x.toFloat)

/-- The floats of device metrics. -/
def DeviceMetrics.floats (d : DeviceMetrics) : List Single :=
  d.voltage.toList ++ d.channelUtilization.toList ++ d.airUtilTx.toList

/-- The floats of sensor readings. -/
def EnvironmentMetrics.floats (e : EnvironmentMetrics) : List Single :=
  e.temperature.toList ++ e.relativeHumidity.toList ++ e.barometricPressure.toList
    ++ e.gasResistance.toList

/-- The floats of a telemetry body. -/
def Telemetry.floats (t : Telemetry) : List Single :=
  match t.variant with
  | some (.device d) => d.floats
  | some (.environment e) => e.floats
  | none => []

end Wire

/-- A telemetry report without the groups that have no metric. -/
def TelemetryReport.pruned (r : TelemetryReport) : TelemetryReport :=
  { r with
    device := r.device.filter fun d => !d.isEmpty
    environment := r.environment.filter fun e => !e.isEmpty }

theorem TelemetryReport.group?_of_missing {ms : Members} {names metrics : List String}
    (h : hasAny ms metrics = false) :
    group? ms names metrics = (field? ms names).bind Json.asObject? := by
  rw [group?, h]
  cases (field? ms names).bind Json.asObject? <;> rfl

/-! ## Objects are read to what the wire says -/

section Readers

variable {num : Wire.Single → Json}

theorem PositionReport.ofMembers_named (p : Wire.Position) :
    ofMembers (Members.ofFields p.named) = ofWire p := by
  have hget := Json.Members.get?_ofFields p.named (by simp [Wire.Position.named])
  simp only [ofMembers, coordinate?, Json.field?_cons, Json.field?_nil, hget]
  simp only [Wire.Position.named, List.lookup_cons, List.lookup_nil, String.reduceBEq,
    Option.join_none, Option.join_some, Option.or_none, Option.bind_none]
  simp only [Json.bind_scaled, Json.bind_signed?, Json.bind_word?, Option.orElse_eq_orElse,
    Option.orElse_eq_or, Option.or_none]
  rfl

theorem UserInfo.ofMembers_named {u : Wire.User} (hmodel : 0 ≤ u.hwModel) (hrole : 0 ≤ u.role) :
    ofMembers (Members.ofFields u.named) = ofWire u := by
  have hget := Json.Members.get?_ofFields u.named (by simp [Wire.User.named])
  have hhardware : hardware? (Json.ofInt32 u.hwModel)
      = some (Hardware.nameOf (clampedWord u.hwModel)) :=
    congrArg (Option.map Hardware.nameOf) (Json.word?_ofInt32 hmodel)
  have hrole : role? (Json.ofInt32 u.role) = some (NodeRole.ofNumber (clampedWord u.role)) :=
    congrArg (Option.map NodeRole.ofNumber) (Json.word?_ofInt32 hrole)
  simp only [ofMembers, Json.field?_cons, Json.field?_nil, hget]
  simp only [Wire.User.named, List.lookup_cons, List.lookup_nil, String.reduceBEq,
    Option.join_none, Option.join_some, Option.or_none, Option.bind_some]
  simp only [Json.bind_fullText?, hhardware, hrole]
  rfl

theorem RoutingReport.ofMembers_named {r : Wire.Routing}
    (hreason : ∀ code, r.variant = some (.errorReason code) → 0 ≤ code) (requestId : UInt32) :
    ofMembers (Members.ofFields r.named) requestId = ofWire r requestId := by
  have hget := Json.Members.get?_ofFields r.named (by simp [Wire.Routing.named])
  simp only [ofMembers, Json.field?_cons, Json.field?_nil, hget]
  simp only [Wire.Routing.named, List.lookup_cons, List.lookup_nil, String.reduceBEq,
    Option.join_none, Option.join_some, Option.or_none, Option.bind_none]
  obtain ⟨variant⟩ := r
  cases variant with
  | none => rfl
  | some v =>
    cases v with
    | routeRequest => rfl
    | routeReply => rfl
    | errorReason code =>
      have hword : errorReason? (Json.ofInt32 code) = some (clampedWord code) :=
        Json.word?_ofInt32 (hreason code rfl)
      simp only [Option.bind_some, hword]
      rfl

theorem RouteDiscovery.ofMembers_named (r : Wire.RouteDiscovery) :
    ofMembers (Members.ofFields r.named) = ofWire r := by
  have hget := Json.Members.get?_ofFields r.named (by simp [Wire.RouteDiscovery.named])
  have hids : ∀ ws : List UInt32, (ws.map Json.ofUInt32).filterMap Json.nodeId?
      = ws.map NodeId.mk := Json.filterMap_map Json.nodeId?_ofUInt32
  have hratios : ∀ ns : List Int32, (ns.map Json.ofInt32).filterMap
      (fun j => j.asSigned?.map fun n => quarterDecibels (Int32.ofInt n))
        = ns.map quarterDecibels :=
    Json.filterMap_map fun n => by rw [Json.asSigned?_ofInt32, Option.map_some, Int32.ofInt_toInt]
  simp only [ofMembers, ids, ratios, Json.field?_cons, Json.field?_nil, hget]
  simp only [Wire.RouteDiscovery.named, List.lookup_cons, List.lookup_nil, String.reduceBEq,
    Option.join_none, Option.join_some, Option.or_none, Json.asArray?_list?, hids, hratios]
  rfl

variable (hnum : Wire.WritesExactly num)

include hnum

/-- A finite float is read as it was sent. -/
theorem Json.rounded?_num {x : Wire.Single} (h : x.toFloat.isFinite = true) :
    (num x).rounded? = some x.toFloat := by
  rw [Json.rounded?, hnum x h, Option.map_some, Ieee.narrow_widen h]

theorem Json.bind_rounded? {v : Option Wire.Single} (h : ∀ x ∈ v, x.toFloat.isFinite = true) :
    (v.map num).bind Json.rounded? = v.map Wire.Single.toFloat :=
  Json.bind_map fun x hx => rounded?_num hnum (h x hx)

theorem DeviceMetrics.ofMembers_named {d : Wire.DeviceMetrics}
    (h : ∀ x ∈ d.floats, x.toFloat.isFinite = true) :
    ofMembers (Members.ofFields (d.named num)) = ofWire d := by
  have hget := Json.Members.get?_ofFields (d.named num) (by simp [Wire.DeviceMetrics.named])
  simp only [Wire.DeviceMetrics.floats, List.forall_mem_append, Option.mem_toList] at h
  obtain ⟨⟨hvoltage, hchannel⟩, hairtime⟩ := h
  simp only [ofMembers, Spelling.batteryLevel, Spelling.voltage, Spelling.channelUtilization,
    Spelling.airUtilTx, Spelling.uptimeSeconds, Json.field?_cons, Json.field?_nil, hget]
  simp only [Wire.DeviceMetrics.named, List.lookup_cons, List.lookup_nil, String.reduceBEq,
    Option.join_none, Option.join_some, Option.or_none, Json.bind_word?,
    Json.bind_rounded? hnum hvoltage, Json.bind_rounded? hnum hchannel,
    Json.bind_rounded? hnum hairtime]
  rfl

theorem EnvironmentMetrics.ofMembers_named {e : Wire.EnvironmentMetrics}
    (h : ∀ x ∈ e.floats, x.toFloat.isFinite = true) :
    ofMembers (Members.ofFields (e.named num)) = ofWire e := by
  have hget := Json.Members.get?_ofFields (e.named num)
    (by simp [Wire.EnvironmentMetrics.named])
  simp only [Wire.EnvironmentMetrics.floats, List.forall_mem_append, Option.mem_toList] at h
  obtain ⟨⟨⟨htemperature, hhumidity⟩, hpressure⟩, hgas⟩ := h
  simp only [ofMembers, Spelling.temperature, Spelling.relativeHumidity,
    Spelling.barometricPressure, Spelling.gasResistance, Json.field?_cons, Json.field?_nil, hget]
  simp only [Wire.EnvironmentMetrics.named, List.lookup_cons, List.lookup_nil, String.reduceBEq,
    Option.join_none, Option.join_some, Option.or_none, Json.bind_rounded? hnum htemperature,
    Json.bind_rounded? hnum hhumidity, Json.bind_rounded? hnum hpressure,
    Json.bind_rounded? hnum hgas]
  rfl

theorem TelemetryReport.ofMembers_named {t : Wire.Telemetry}
    (h : ∀ x ∈ t.floats, x.toFloat.isFinite = true) :
    ofMembers (Members.ofFields (t.named num)) = (ofWire t).pruned := by
  have hnames : (t.named num).map Prod.fst
      = ["device_metrics", "environment_metrics", "time"] := rfl
  have hget := Json.Members.get?_ofFields (t.named num) (by rw [hnames]; decide)
  have hdevice : ∀ keys, group? (Members.ofFields (t.named num)) keys Spelling.device
      = (field? (Members.ofFields (t.named num)) keys).bind Json.asObject? :=
    fun keys => group?_of_missing (Json.hasAny_ofFields (by rw [hnames]; decide))
  have henvironment : ∀ keys, group? (Members.ofFields (t.named num)) keys Spelling.environment
      = (field? (Members.ofFields (t.named num)) keys).bind Json.asObject? :=
    fun keys => group?_of_missing (Json.hasAny_ofFields (by rw [hnames]; decide))
  simp only [ofMembers, hdevice, henvironment, Json.field?_cons, Json.field?_nil, hget]
  simp only [Wire.Telemetry.named, List.lookup_cons, List.lookup_nil, String.reduceBEq,
    Option.join_none, Option.join_some, Option.or_none, Json.bind_word?]
  obtain ⟨time, variant⟩ := t
  cases variant with
  | none => rfl
  | some v =>
    cases v with
    | device d =>
      have hread := DeviceMetrics.ofMembers_named hnum (d := d) h
      simp only [Option.bind_some, Json.asObject?, Option.map_some, hread]
      rfl
    | environment e =>
      have hread := EnvironmentMetrics.ofMembers_named hnum (e := e) h
      simp only [Option.bind_some, Json.asObject?, Option.map_some, hread]
      rfl

/-- A ratio that is left out is zero. -/
theorem Json.getD_rounded? {x : Wire.Single} (h : x.toFloat.isFinite = true) :
    ((if x.isZero then none else some (num x)).bind Json.rounded?).getD 0 = x.settled.toFloat := by
  have hzero : (0 : Float32) = Float32.ofBits 0 := by decide +kernel
  unfold Wire.Single.settled
  cases x.isZero with
  | true => exact hzero
  | false => exact congrArg (Option.getD · 0) (rounded?_num hnum h)

namespace NeighborReport

/-- A neighbor is read unless its id is missing. -/
theorem entry?_named {n : Wire.Neighbor} (h : n.snr.toFloat.isFinite = true) :
    entry? (.object (Members.ofFields (n.named num)))
      = if n.nodeId != 0 then some ⟨⟨n.nodeId⟩, n.snr.settled.toFloat⟩ else none := by
  have hget := Json.Members.get?_ofFields (n.named num) (by simp [Wire.Neighbor.named])
  simp only [ entry?, Json.asObject?, Option.bind_eq_bind, Option.bind_some, Json.field?_cons,
    Json.field?_nil, hget]
  simp only [Wire.Neighbor.named, List.lookup_cons, List.lookup_nil, String.reduceBEq,
    Option.join_none, Option.join_some, Option.or_none, Json.bind_nodeId?,
    Json.getD_rounded? hnum h]
  by_cases hid : n.nodeId = 0
  · simp [hid, nonzero?]
  · have hknown : NodeId.isUnknown ⟨n.nodeId⟩ = false := by
      simpa [NodeId.isUnknown, NodeId.unknown] using hid
    simp [nonzero?, hid, hknown]

theorem neighbors_named {ns : List Wire.Neighbor} (h : ∀ n ∈ ns, n.snr.toFloat.isFinite = true) :
    (ns.map fun n => Json.object (Members.ofFields (n.named num))).filterMap entry?
      = ((ns.map Wire.Neighbor.settled).filter fun n => n.nodeId != 0).map
          fun n => ⟨⟨n.nodeId⟩, n.snr.toFloat⟩ := by
  induction ns with
  | nil => rfl
  | cons n ns ih =>
    obtain ⟨hn, hns⟩ := List.forall_mem_cons.1 h
    have hid : n.settled.nodeId = n.nodeId := rfl
    rw [List.map_cons, List.filterMap_cons, entry?_named hnum hn, List.map_cons, List.filter_cons,
      hid, ih hns]
    cases n.nodeId != 0 <;> rfl

theorem ofMembers_named {r : Wire.NeighborInfo}
    (h : ∀ n ∈ r.neighbors, n.snr.toFloat.isFinite = true) :
    ofMembers (Members.ofFields (r.named num)) = ofWire r.settled := by
  have hget := Json.Members.get?_ofFields (r.named num) (by simp [Wire.NeighborInfo.named])
  simp only [ofMembers, Json.field?_cons, Json.field?_nil, hget]
  simp only [Wire.NeighborInfo.named, List.lookup_cons, List.lookup_nil, String.reduceBEq,
    Option.join_none, Option.join_some, Option.or_none, Json.asArray?_list?, Json.bind_word?,
    Json.bind_nodeId?, neighbors_named hnum h]
  rfl

end NeighborReport

end Readers

/-! ## Bodies -/

namespace Wire

/-- The body of a packet on one of the ports that are read. -/
inductive Body where
  | text (t : String)
  | position (m : Position)
  | user (m : User)
  | telemetry (m : Telemetry)
  | routing (m : Routing)
  | routeDiscovery (m : RouteDiscovery)
  | neighborInfo (m : NeighborInfo)
deriving DecidableEq, Repr

namespace Body

/-- The port of a body. -/
def port : Body → Port
  | text _ => .textMessage
  | position _ => .position
  | user _ => .nodeInfo
  | telemetry _ => .telemetry
  | routing _ => .routing
  | routeDiscovery _ => .traceroute
  | neighborInfo _ => .neighborInfo

/-- The body as a gateway passes it on in binary. -/
def encode : Body → Bytes
  | text t => Bytes.ofText t
  | position m => Message.encode m
  | user m => Message.encode m
  | telemetry m => Message.encode m
  | routing m => Message.encode m
  | routeDiscovery m => Message.encode m
  | neighborInfo m => Message.encode m

/-- The fields of a body by name. -/
def named (num : Single → Json) : Body → List (String × Option Json)
  | text t => [("text", some (.string t))]
  | position m => m.named
  | user m => m.named
  | telemetry m => m.named num
  | routing m => m.named
  | routeDiscovery m => m.named
  | neighborInfo m => m.named num

/-- The body as an object; `num` writes a float as a number. -/
def object (num : Single → Json) (b : Body) : Members := .ofFields (b.named num)

/-- The floats of a body. -/
def floats : Body → List Single
  | telemetry m => m.floats
  | neighborInfo m => m.neighbors.map Neighbor.snr
  | _ => []

/-- The numbers of a body that stand for one of several names. -/
def codes : Body → List Int32
  | user m => [m.hwModel, m.role]
  | routing ⟨some (.errorReason code)⟩ => [code]
  | _ => []

/-- What a body says, as it is read from the wire. -/
def payload (requestId : UInt32) : Body → Payload
  | text t => .text t
  | position m => .position (.ofWire m)
  | user m => .nodeInfo (.ofWire m)
  | telemetry m => .telemetry (.ofWire m)
  | routing m => .routing (.ofWire m requestId)
  | routeDiscovery m => .traceroute (.ofWire m)
  | neighborInfo m => .neighborInfo (.ofWire m.settled)

end Body

end Wire

namespace Payload

/-- A payload without the groups of metrics that have none. -/
def pruned : Payload → Payload
  | telemetry r => .telemetry r.pruned
  | p => p

variable {num : Wire.Single → Json} {b : Wire.Body} {messageType : String}

theorem ofWire_of_decode? {α : Type} [Wire.Message α] {port : UInt32} {body : Bytes} {m : α}
    {f : α → Payload} (h : Wire.Message.decode? body = some m) :
    ofWire port body f = .ok (f m) := by
  rw [ofWire, h]

/-- A body is read from the wire. -/
theorem ofBinary_encode (hlen : b.encode.length < UInt64.size) (requestId : UInt32) :
    ofBinary b.port.number b.encode requestId = .ok (b.payload requestId) := by
  cases b with
  | text t => exact ofBinary_text _ requestId (Bytes.toText?_ofText t)
  | position m => exact ofWire_of_decode? (m.decode_encode hlen)
  | user m => exact ofWire_of_decode? (m.decode_encode hlen)
  | telemetry m => exact ofWire_of_decode? (m.decode_encode hlen)
  | routing m => exact ofWire_of_decode? (m.decode_encode hlen)
  | routeDiscovery m => exact ofWire_of_decode? (m.decode_encode hlen)
  | neighborInfo m => exact ofWire_of_decode? (m.decode_encode hlen)

/-- An object of a body leaves its port to the message type. -/
theorem statedPort?_object (num : Wire.Single → Json) (b : Wire.Body) :
    statedPort? (b.object num) = none := by
  have hmissing : ∀ k ∈ ["portnum", "port_num", "portNum"], k ∉ (b.named num).map Prod.fst := by
    cases b with
    | text t => simp [Wire.Body.named]
    | position m => simp [Wire.Body.named, Wire.Position.named]
    | user m => simp [Wire.Body.named, Wire.User.named]
    | telemetry m => simp [Wire.Body.named, Wire.Telemetry.named]
    | routing m => simp [Wire.Body.named, Wire.Routing.named]
    | routeDiscovery m => simp [Wire.Body.named, Wire.RouteDiscovery.named]
    | neighborInfo m => simp [Wire.Body.named, Wire.NeighborInfo.named]
  rw [statedPort?, Wire.Body.object, Json.field?_ofFields_of_missing hmissing]

/-- An object of a body is read on the port of the body. -/
theorem ofMembers_object (hnum : Wire.WritesExactly num)
    (hfloats : ∀ x ∈ b.floats, x.toFloat.isFinite = true) (hcodes : ∀ n ∈ b.codes, 0 ≤ n)
    (whole : Json) (requestId : UInt32) :
    ofMembers b.port.number whole (b.object num) requestId = .ok (b.payload requestId).pruned := by
  rw [ofMembers, Port.ofNumber?_number]
  cases b with
  | text t => rfl
  | position m =>
    have hnested : nested (Members.ofFields m.named) ["position"] = Members.ofFields m.named :=
      Json.nested_ofFields (by simp [Wire.Position.named])
    show Except.ok (position _) = _
    rw [Wire.Body.object, Wire.Body.named, hnested, PositionReport.ofMembers_named]
    rfl
  | user m =>
    have hnested : nested (Members.ofFields m.named) ["user"] = Members.ofFields m.named :=
      Json.nested_ofFields (by simp [Wire.User.named])
    obtain ⟨hmodel, hrole⟩ : 0 ≤ m.hwModel ∧ 0 ≤ m.role := by
      simpa [Wire.Body.codes] using hcodes
    show Except.ok (nodeInfo _) = _
    rw [Wire.Body.object, Wire.Body.named, hnested, UserInfo.ofMembers_named hmodel hrole]
    rfl
  | telemetry m =>
    have hnested : nested (Members.ofFields (m.named num)) ["telemetry"]
        = Members.ofFields (m.named num) := Json.nested_ofFields (by simp [Wire.Telemetry.named])
    show Except.ok (telemetry _) = _
    rw [Wire.Body.object, Wire.Body.named, hnested, TelemetryReport.ofMembers_named hnum hfloats]
    rfl
  | routing m =>
    have hreason : ∀ code, m.variant = some (.errorReason code) → 0 ≤ code := by
      intro code hcode
      obtain ⟨variant⟩ := m
      subst hcode
      exact hcodes code (List.mem_singleton_self code)
    show Except.ok (routing _) = _
    rw [Wire.Body.object, Wire.Body.named, RoutingReport.ofMembers_named hreason]
    rfl
  | routeDiscovery m =>
    have hnested : nested (Members.ofFields m.named) ["traceroute", "route_discovery"]
        = Members.ofFields m.named := Json.nested_ofFields (by simp [Wire.RouteDiscovery.named])
    show Except.ok (traceroute _) = _
    rw [Wire.Body.object, Wire.Body.named, hnested, RouteDiscovery.ofMembers_named]
    rfl
  | neighborInfo m =>
    have hnested : nested (Members.ofFields (m.named num)) ["neighborinfo"]
        = Members.ofFields (m.named num) := Json.nested_ofFields (by simp [Wire.NeighborInfo.named])
    have hratios : ∀ n ∈ m.neighbors, n.snr.toFloat.isFinite = true :=
      fun n hn => hfloats n.snr (List.mem_map_of_mem hn)
    show Except.ok (neighborInfo _) = _
    rw [Wire.Body.object, Wire.Body.named, hnested, NeighborReport.ofMembers_named hnum hratios]
    rfl

/-- A body is read from its object, under any of the message types of its port. -/
theorem ofObject_object (hnum : Wire.WritesExactly num)
    (hfloats : ∀ x ∈ b.floats, x.toFloat.isFinite = true) (hcodes : ∀ n ∈ b.codes, 0 ≤ n)
    (htype : portOfType? messageType = some b.port) (requestId : UInt32) :
    ofObject (some messageType) (.object (b.object num)) requestId
      = .ok (b.payload requestId).pruned := by
  have hport : portOf? (some messageType) (b.object num) = some b.port.number := by
    rw [portOf?, statedPort?_object, Option.bind_some, htype]
    rfl
  rw [ofObject, ofFields, hport]
  exact ofMembers_object hnum hfloats hcodes _ requestId

end Payload

/-! ## Groups without a metric -/

theorem NodeTelemetry.merge_eq (t : NodeTelemetry) (r : TelemetryReport) (now : Moment) :
    t.merge r now = { t with
      device := r.device.elim t.device t.device.merge
      environment := r.environment.elim t.environment t.environment.merge
      lastUpdated := some now } := by
  obtain ⟨time, device, environment⟩ := r
  cases device <;> cases environment <;> rfl

/-- A group without a metric leaves a node as it was, like a group that is missing. -/
theorem NodeTelemetry.merge_pruned (t : NodeTelemetry) (r : TelemetryReport) (now : Moment) :
    t.merge r.pruned now = t.merge r now := by
  have hdevice : ∀ d : DeviceMetrics,
      (if (!d.isEmpty) = true then t.device.merge d else t.device) = t.device.merge d := by
    intro d
    cases hd : d.isEmpty with
    | false => rfl
    | true =>
      rw [d.isEmpty_iff.1 hd]
      rfl
  have henvironment : ∀ e : EnvironmentMetrics,
      (if (!e.isEmpty) = true then t.environment.merge e else t.environment)
        = t.environment.merge e := by
    intro e
    cases he : e.isEmpty with
    | false => rfl
    | true =>
      rw [e.isEmpty_iff.1 he]
      rfl
  rw [merge_eq, merge_eq, TelemetryReport.pruned, Option.elim_filter, Option.elim_filter,
    funext hdevice, funext henvironment]

namespace Mesh

/-- Reports that every node merges alike update a node alike. -/
theorem applyUpdate_telemetry_congr {r r' : TelemetryReport} {now : Moment}
    (h : ∀ t : NodeTelemetry, t.merge r now = t.merge r' now) (m : Mesh) (id : NodeId)
    (u : NodeUpdate) :
    m.applyUpdate id { u with telemetry := some r } now
      = m.applyUpdate id { u with telemetry := some r' } now := by
  have hupdate : (fun n : Node => n.update { u with telemetry := some r } now)
      = fun n => n.update { u with telemetry := some r' } now := by
    funext n
    simp only [Node.update, Option.map_some, h]
  cases hn : m.nodes[id]? with
  | none => simp only [applyUpdate, hupdate, hn]
  | some n => simp only [applyUpdate, hupdate, hn, h]

theorem hearSender_telemetry_congr {r r' : TelemetryReport} {now : Moment}
    (h : ∀ t : NodeTelemetry, t.merge r now = t.merge r' now) (m : Mesh) (p : Packet) :
    m.hearSender { p with payload := .telemetry r } now
      = m.hearSender { p with payload := .telemetry r' } now := by
  have hupdate := applyUpdate_telemetry_congr h (m.ensure p.sender now p.named).1 p.sender
    { hopsAway := p.hopsAway }
  exact congrArg (fun x : Mesh × Journal => (x.1.modifyNode p.sender (·.takeHeader p now),
    (m.ensure p.sender now p.named).2 ++ x.2)) hupdate

theorem apply_telemetry_congr {r r' : TelemetryReport} {now : Moment}
    (h : ∀ t : NodeTelemetry, t.merge r now = t.merge r' now) (m : Mesh) (p : Packet) :
    m.apply { p with payload := .telemetry r } now
      = m.apply { p with payload := .telemetry r' } now := by
  have hnew : ∀ m : Mesh, m.applyNew { p with payload := .telemetry r } now
      = m.applyNew { p with payload := .telemetry r' } now := by
    intro m
    unfold applyNew
    simp only [hearSender_telemetry_congr h]
    rfl
  unfold apply
  simp only [hnew]

theorem apply_pruned (m : Mesh) (p : Packet) (payload : Payload) (now : Moment) :
    m.apply { p with payload := payload.pruned } now
      = m.apply { p with payload := payload } now := by
  cases payload with
  | telemetry r => exact apply_telemetry_congr (fun t => t.merge_pruned r now) m p
  | text | position | nodeInfo | routing | traceroute | neighborInfo | unknown | sealed => rfl

end Mesh

/-- **The format does not matter**: a body that is passed on as a wire message and one that
is passed on as an object are both read, and a packet with the one changes the mesh and
announces what a packet with the other does. Floats are finite, and codes are not negative. -/
theorem Wire.Body.formats_agree (num : Wire.Single → Json) {b : Wire.Body} {messageType : String}
    (hnum : Wire.WritesExactly num)
    (hfloats : ∀ x ∈ b.floats, x.toFloat.isFinite = true) (hcodes : ∀ n ∈ b.codes, 0 ≤ n)
    (hlen : b.encode.length < UInt64.size)
    (htype : Payload.portOfType? messageType = some b.port) (requestId : UInt32) :
    ∃ fromWire fromObject,
      Payload.ofBinary b.port.number b.encode requestId = .ok fromWire ∧
      Payload.ofObject (some messageType) (.object (b.object num)) requestId = .ok fromObject ∧
      ∀ (m : Mesh) (p : Packet) (now : Moment), m.apply { p with payload := fromWire } now
        = m.apply { p with payload := fromObject } now :=
  ⟨b.payload requestId, (b.payload requestId).pruned, Payload.ofBinary_encode hlen requestId,
    Payload.ofObject_object hnum hfloats hcodes htype requestId,
    fun m p now => (m.apply_pruned p _ now).symm⟩

/-- A voltage of −1 is none, so that a group is left without a metric. -/
theorem Wire.Body.formats_of_unusable_voltage :
    let b := Wire.Body.telemetry ⟨0, some (.device { voltage := some ⟨0xbf800000⟩ })⟩
    (∀ x ∈ b.floats, x.toFloat.isFinite = true) ∧ (∀ n ∈ b.codes, 0 ≤ n) ∧
    b.encode = [0x12, 0x05, 0x15, 0x00, 0x00, 0x80, 0xbf] ∧
    Payload.portOfType? "telemetry" = some b.port ∧
    ∃ fromWire fromObject,
      Payload.ofBinary b.port.number b.encode 0 = .ok fromWire ∧
      Payload.ofObject (some "telemetry")
        (.object [("device_metrics", .object [("voltage", .double (-1))])]) 0 = .ok fromObject ∧
      ∀ (m : Mesh) (p : Packet) (now : Moment), m.apply { p with payload := fromWire } now
        = m.apply { p with payload := fromObject } now := by
  intro b
  obtain ⟨hfinite, hencode, htype, hvoltage⟩ :
      (Wire.Single.toFloat ⟨0xbf800000⟩).isFinite = true ∧
      b.encode = [0x12, 0x05, 0x15, 0x00, 0x00, 0x80, 0xbf] ∧
      Payload.portOfType? "telemetry" = some b.port ∧
      Ieee.widen (Wire.Single.toFloat ⟨0xbf800000⟩) = -1 := by decide +kernel
  have hfloats : ∀ x ∈ b.floats, x.toFloat.isFinite = true := List.forall_mem_singleton.2 hfinite
  have hcodes : ∀ n ∈ b.codes, 0 ≤ n := fun _ hn => (List.not_mem_nil hn).elim
  have hlen : b.encode.length < UInt64.size := by
    rw [hencode]
    decide
  refine ⟨hfloats, hcodes, hencode, htype, ?_⟩
  rw [← hvoltage]
  exact formats_agree (fun x => .double (Ieee.widen x.toFloat)) (fun _ _ => rfl) hfloats hcodes hlen
    htype 0

end MeshWatch
