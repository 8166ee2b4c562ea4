import MeshWatch.Mesh.State
import MeshWatch.Proofs.CleanState
import MeshWatch.Proofs.LinkRatios
import MeshWatch.Proofs.StoredValues

/-!
# Records that survive being stored

Each record of a mesh is read back from the text that is written for it. Strings, ids,
labels and integers always are; floats have to be finite, since an infinity is written as
null, and the moments in a record have to be ones that are read back from their text.

- `Node.kept`, `Channel.kept`, `Route.kept`, `Message.kept`: the records of the four
  parts of a document, and `Node.fits` and the like: how deep they are nested.
- `Node.Finite`, `Route.Finite`: which records hold no float without digits.
- `Node.times` and the like: the moments in a record.
-/

namespace MeshWatch

open Json

/-! ## Telemetry -/

@[simp] theorem DeviceMetrics.fits {d : Nat} (m : DeviceMetrics) : Fits (d + 1) m.toJson := by
  simp [toJson, fits_object]

theorem DeviceMetrics.Plausible.kept {m : DeviceMetrics} (h : m.Plausible) :
    Kept DeviceMetrics.toJson DeviceMetrics.ofJson? m := by
  refine kept_record rfl rfl (show DeviceMetrics.fieldNames.Nodup by decide) fun rs hs => ?_
  have hbattery : optional rs "battery_level" readUInt32 = some m.batteryLevel :=
    hs.optional (by simp) (fun _ _ => kept_uint32 _) rfl
  have hvoltage : optional rs "voltage" readSingle = some m.voltage :=
    hs.optional (by simp) (fun v hv => kept_single (h.voltage v hv).1) rfl
  have hchannel : optional rs "channel_utilization" readSingle = some m.channelUtilization :=
    hs.optional (by simp) (fun u hu => kept_single (h.channelUtilization u hu).1) rfl
  have hair : optional rs "air_util_tx" readSingle = some m.airUtilTx :=
    hs.optional (by simp) (fun u hu => kept_single (h.airUtilTx u hu).1) rfl
  have huptime : optional rs "uptime_seconds" readUInt32 = some m.uptimeSeconds :=
    hs.optional (by simp) (fun _ _ => kept_uint32 _) rfl
  simp only [DeviceMetrics.ofJson?, recordMembers?, hbattery, hvoltage, hchannel, hair, huptime,
    Option.bind_eq_bind, Option.bind_some, Option.pure_def]

@[simp] theorem EnvironmentMetrics.fits {d : Nat} (m : EnvironmentMetrics) :
    Fits (d + 1) m.toJson := by
  simp [toJson, fits_object]

theorem EnvironmentMetrics.Plausible.kept {m : EnvironmentMetrics} (h : m.Plausible) :
    Kept EnvironmentMetrics.toJson EnvironmentMetrics.ofJson? m := by
  refine kept_record rfl rfl (show EnvironmentMetrics.fieldNames.Nodup by decide) fun rs hs => ?_
  have htemperature : optional rs "temperature" readSingle = some m.temperature :=
    hs.optional (by simp) (fun t ht => kept_single (h.temperature t ht)) rfl
  have hhumidity : optional rs "relative_humidity" readSingle = some m.relativeHumidity :=
    hs.optional (by simp) (fun x hx => kept_single (h.relativeHumidity x hx).1) rfl
  have hpressure : optional rs "barometric_pressure" readSingle = some m.barometricPressure :=
    hs.optional (by simp) (fun p hp => kept_single (h.barometricPressure p hp).1) rfl
  have hgas : optional rs "gas_resistance" readSingle = some m.gasResistance :=
    hs.optional (by simp) (fun r hr => kept_single (h.gasResistance r hr)) rfl
  simp only [EnvironmentMetrics.ofJson?, recordMembers?, htemperature, hhumidity, hpressure, hgas,
    Option.bind_eq_bind, Option.bind_some, Option.pure_def]

namespace NodeTelemetry

def times (t : NodeTelemetry) : List Moment := t.lastUpdated.toList

@[simp] theorem fits {d : Nat} (t : NodeTelemetry) : Fits (d + 2) t.toJson := by
  simp [toJson, fits_object]

theorem kept {t : NodeTelemetry} (h : t.Clean) (hfinite : ∀ x ∈ t.snr, x.isFinite = true)
    (ht : ∀ u ∈ t.times, u.ReadsBack) : Kept toJson ofJson? t := by
  have hnames : ["device", "environment", "snr", "rssi", "last_updated"].Nodup := by decide
  refine kept_record rfl rfl hnames fun rs hs => ?_
  have hdevice : required rs "device" DeviceMetrics.ofJson? = some t.device :=
    hs.required (by simp) h.device.kept
  have henvironment : required rs "environment" EnvironmentMetrics.ofJson? = some t.environment :=
    hs.required (by simp) h.environment.kept
  have hsnr : optional rs "snr" readSingle = some t.snr :=
    hs.optional (by simp) (fun x hx => kept_single (hfinite x hx)) rfl
  have hrssi : optional rs "rssi" readInt32 = some t.rssi :=
    hs.optional (by simp) (fun _ _ => kept_int32 _) rfl
  have hupdated : optional rs "last_updated" readMoment = some t.lastUpdated :=
    hs.optional (by simp) (kept_moments ht) rfl
  simp only [ofJson?, recordMembers?, hdevice, henvironment, hsnr, hrssi, hupdated,
    Option.bind_eq_bind, Option.bind_some, Option.pure_def]

end NodeTelemetry

/-! ## Positions -/

namespace Position

def times (p : Position) : List Moment := p.updated :: p.time.toList

@[simp] theorem fits {d : Nat} (p : Position) : Fits (d + 1) p.toJson := by
  simp [toJson, fits_object]

theorem kept {p : Position} (h : p.Clean) (ht : ∀ u ∈ p.times, u.ReadsBack) :
    Kept toJson ofJson? p := by
  obtain ⟨hupdated, htime⟩ := List.forall_mem_cons.1 ht
  have hlat : p.latitude.isFinite = true := by
    have hvalid := h.1
    simp only [isLatitude, Bool.and_eq_true] at hvalid
    exact hvalid.1.1
  have hlon : p.longitude.isFinite = true := by
    have hvalid := h.2
    simp only [isLongitude, Bool.and_eq_true] at hvalid
    exact hvalid.1.1
  refine kept_record rfl rfl (show fieldNames.Nodup by decide) fun rs hs => ?_
  have hlatitude : required rs "latitude" readDouble = some p.latitude :=
    hs.required (by simp) (kept_double hlat)
  have hlongitude : required rs "longitude" readDouble = some p.longitude :=
    hs.required (by simp) (kept_double hlon)
  have haltitude : optional rs "altitude" readInt32 = some p.altitude :=
    hs.optional (by simp) (fun _ _ => kept_int32 _) rfl
  have hprecision : optional rs "precision_bits" readUInt32 = some p.precisionBits :=
    hs.optional (by simp) (fun _ _ => kept_uint32 _) rfl
  have htime : optional rs "time" readMoment = some p.time :=
    hs.optional (by simp) (kept_moments htime) rfl
  have hupdated : required rs "updated" readMoment = some p.updated :=
    hs.required (by simp) (kept_moment hupdated)
  simp only [ofJson?, recordMembers?, hlatitude, hlongitude, haltitude, hprecision, htime,
    hupdated, Option.bind_eq_bind, Option.bind_some, Option.pure_def]

end Position

/-! ## Links and neighbors -/

namespace LinkQuality

def times (q : LinkQuality) : List Moment := q.lastUpdated.toList

@[simp] theorem fits {d : Nat} (q : LinkQuality) : Fits (d + 1) q.toJson := by
  simp [toJson, fits_object]

theorem kept {q : LinkQuality} (h : q.Finite) (ht : ∀ u ∈ q.times, u.ReadsBack) :
    Kept toJson ofJson? q := by
  refine kept_record rfl rfl (show fieldNames.Nodup by decide) fun rs hs => ?_
  have hsnr : required rs "snr" readSingle = some q.snr :=
    hs.required (by simp) (kept_single h.snr.isFinite)
  have havg : required rs "snr_avg" readSingle = some q.snrAvg :=
    hs.required (by simp) (kept_single h.snrAvg.isFinite)
  have hrssi : optional rs "rssi" readInt32 = some q.rssi :=
    hs.optional (by simp) (fun _ _ => kept_int32 _) rfl
  have hhops : optional rs "hop_count" readUInt8 = some q.hopCount :=
    hs.optional (by simp) (fun _ _ => kept_uint8 _) rfl
  have hcount : required rs "packet_count" readUInt32 = some q.packetCount :=
    hs.required (by simp) (kept_uint32 _)
  have hloss : required rs "packet_loss" readSingle = some q.packetLoss :=
    hs.required (by simp) (kept_single h.packetLoss)
  have hupdated : optional rs "last_updated" readMoment = some q.lastUpdated :=
    hs.optional (by simp) (kept_moments ht) rfl
  simp only [ofJson?, recordMembers?, hsnr, havg, hrssi, hhops, hcount, hloss, hupdated,
    Option.bind_eq_bind, Option.bind_some, Option.pure_def]

end LinkQuality

@[simp] theorem NeighborSet.fits {d : Nat} (s : NeighborSet) : Fits (d + 2) s.toJson := by
  simp [toJson, fits_object]

theorem NeighborSet.kept (s : NeighborSet) : Kept toJson ofJson? s := by
  refine kept_record rfl rfl (show ["ids"].Nodup by decide) fun rs hs => ?_
  have hids : required rs "ids" (readList NodeId.ofJson?) = some s.ids :=
    hs.required (by simp) (kept_list fun id _ => kept_id id)
  simp only [ofJson?, recordMembers?, hids, Option.bind_eq_bind, Option.bind_some, Option.pure_def]

/-! ## Nodes -/

namespace Node

/-- The numbers that are kept of a node are no infinities, and none is not a number. -/
structure Finite (n : Node) : Prop where
  position : ∀ p ∈ n.position, p.Clean
  telemetry : n.telemetry.Clean
  snr : ∀ x ∈ n.telemetry.snr, x.isFinite = true
  linkQuality : n.linkQuality.Finite

def times (n : Node) : List Moment :=
  n.firstSeen :: n.lastHeard :: (n.position.toList.flatMap Position.times ++ n.telemetry.times
    ++ n.linkQuality.times)

theorem fits {d : Nat} (n : Node) : Fits (d + 3) n.toJson := by
  simp [toJson, members, fits_object]

theorem kept {n : Node} (h : n.Finite) (ht : ∀ u ∈ n.times, u.ReadsBack) :
    Kept toJson ofJson? n := by
  obtain ⟨hfirst, hlast, hparts⟩ : n.firstSeen.ReadsBack ∧ n.lastHeard.ReadsBack ∧
      ∀ u ∈ n.position.toList.flatMap Position.times ++ n.telemetry.times ++ n.linkQuality.times,
        u.ReadsBack := by
    simpa only [times, List.forall_mem_cons] using ht
  obtain ⟨hparts, hlink⟩ := List.forall_mem_append.1 hparts
  obtain ⟨hposition, htelemetry⟩ := List.forall_mem_append.1 hparts
  refine kept_record rfl rfl (show fieldNames.Nodup by decide) fun rs hs => ?_
  have hid : required rs "id" NodeId.ofJson? = some n.id :=
    hs.required (by simp [members]) (kept_id _)
  have hshort : defaulted rs "short_name" "" asString? = some n.shortName :=
    hs.defaulted (by simp [members]) (kept_string _) _
  have hlong : defaulted rs "long_name" "" asString? = some n.longName :=
    hs.defaulted (by simp [members]) (kept_string _) _
  have hmodel : defaulted rs "hardware_model" "" asString? = some n.hardwareModel :=
    hs.defaulted (by simp [members]) (kept_string _) _
  have hrole : defaulted rs "role" .client NodeRole.ofJson? = some n.role :=
    hs.defaulted (by simp [members]) (kept_role _) _
  have hkept : ∀ p ∈ n.position, Kept Position.toJson Position.ofJson? p := fun p hp =>
    Position.kept (h.position p hp) fun u hu =>
      hposition u (List.mem_flatMap.2 ⟨p, Option.mem_toList.2 hp, hu⟩)
  have hplace : optional rs "position" Position.ofJson? = some n.position :=
    hs.optional (by simp [members]) hkept rfl
  have hmetrics : defaulted rs "telemetry" {} NodeTelemetry.ofJson? = some n.telemetry :=
    hs.defaulted (by simp [members]) (NodeTelemetry.kept h.telemetry h.snr htelemetry) _
  have hseen : required rs "first_seen" readMoment = some n.firstSeen :=
    hs.required (by simp [members]) (kept_moment hfirst)
  have hheard : required rs "last_heard" readMoment = some n.lastHeard :=
    hs.required (by simp [members]) (kept_moment hlast)
  have hneighbors : defaulted rs "neighbors" {} NeighborSet.ofJson? = some n.neighbors :=
    hs.defaulted (by simp [members]) (NeighborSet.kept _) _
  have hheardBy : defaulted rs "heard_by" {} NeighborSet.ofJson? = some n.heardBy :=
    hs.defaulted (by simp [members]) (NeighborSet.kept _) _
  have hroutes : defaulted rs "routes" [] (readList asString?) = some n.routes :=
    hs.defaulted (by simp [members]) (kept_list fun s _ => kept_string s) _
  have hquality : defaulted rs "link_quality" {} LinkQuality.ofJson? = some n.linkQuality :=
    hs.defaulted (by simp [members]) (LinkQuality.kept h.linkQuality hlink) _
  have hhops : optional rs "hops_away" readUInt8 = some n.hopsAway :=
    hs.optional (by simp [members]) (fun _ _ => kept_uint8 _) rfl
  have hgateway : optional rs "last_gateway" NodeId.ofJson? = some n.lastGateway :=
    hs.optional (by simp [members]) (fun id _ => kept_id id) rfl
  have hhints : defaulted rs "relay_hints" [] (readList readUInt8) = some n.relayHints :=
    hs.defaulted (by simp [members]) (kept_list fun b _ => kept_uint8 b) _
  unfold ofJson? recordMembers?
  rw [Option.bind_eq_bind, Option.bind_some, hid, hshort, hlong, hmodel, hrole, hplace, hmetrics,
    hseen, hheard, hneighbors, hheardBy, hroutes, hquality, hhops, hgateway, hhints]
  rfl

end Node

/-! ## Channels -/

namespace Channel

def times (c : Channel) : List Moment := c.lastActivity.toList

theorem fits {d : Nat} {c : Channel} (h : c.messageCount < UInt64.size) :
    Fits (d + 1) c.toJson := by
  simp [toJson, fits_object, fits_nat h]

theorem kept {c : Channel} (h : c.messageCount < UInt64.size) (ht : ∀ u ∈ c.times, u.ReadsBack) :
    Kept toJson ofJson? c := by
  refine kept_record rfl rfl (show fieldNames.Nodup by decide) fun rs hs => ?_
  have hindex : required rs "index" readUInt32 = some c.index :=
    hs.required (by simp) (kept_uint32 _)
  have hname : required rs "name" asString? = some c.name :=
    hs.required (by simp) (kept_string _)
  have hrole : required rs "role" ChannelRole.ofJson? = some c.role :=
    hs.required (by simp) (kept_channelRole _)
  have hup : required rs "uplink_enabled" asBool? = some c.uplinkEnabled :=
    hs.required (by simp) (kept_bool _)
  have hdown : required rs "downlink_enabled" asBool? = some c.downlinkEnabled :=
    hs.required (by simp) (kept_bool _)
  have hcount : defaulted rs "message_count" 0 (readNat UInt64.size) = some c.messageCount :=
    hs.defaulted (by simp) (kept_nat h) _
  have hactivity : optional rs "last_activity" readMoment = some c.lastActivity :=
    hs.optional (by simp) (kept_moments ht) rfl
  simp only [ofJson?, recordMembers?, hindex, hname, hrole, hup, hdown, hcount, hactivity,
    Option.bind_eq_bind, Option.bind_some, Option.pure_def]

end Channel

/-! ## Routes -/

@[simp] theorem RouteHop.fits {d : Nat} (h : RouteHop) : Fits (d + 1) h.toJson := by
  simp [toJson, fits_object]

theorem RouteHop.kept {h : RouteHop} (hfinite : h.snr.isFinite = true)
    (ht : h.timestamp.ReadsBack) : Kept toJson ofJson? h := by
  have hnames : ["node_id", "snr", "timestamp"].Nodup := by decide
  refine kept_record rfl rfl hnames fun rs hs => ?_
  have hid : required rs "node_id" NodeId.ofJson? = some h.nodeId :=
    hs.required (by simp) (kept_id _)
  have hsnr : required rs "snr" readSingle = some h.snr :=
    hs.required (by simp) (kept_single hfinite)
  have htime : required rs "timestamp" readMoment = some h.timestamp :=
    hs.required (by simp) (kept_moment ht)
  simp only [ofJson?, recordMembers?, hid, hsnr, htime, Option.bind_eq_bind, Option.bind_some,
    Option.pure_def]

namespace Route

/-- The ratio of every hop has a decimal form. -/
def Finite (r : Route) : Prop := ∀ h ∈ r.hops, h.snr.isFinite = true

def times (r : Route) : List Moment :=
  r.discovered :: (r.lastUsed.toList ++ r.hops.map RouteHop.timestamp)

theorem fits {d : Nat} (r : Route) : Fits (d + 3) r.toJson := by
  simp [toJson, fits_object]

theorem kept {r : Route} (h : r.Finite) (ht : ∀ u ∈ r.times, u.ReadsBack) :
    Kept toJson ofJson? r := by
  obtain ⟨hdiscovered, ht⟩ := List.forall_mem_cons.1 ht
  obtain ⟨hused, hhop⟩ := List.forall_mem_append.1 ht
  refine kept_record rfl rfl (show fieldNames.Nodup by decide) fun rs hs => ?_
  have hdestination : required rs "destination" NodeId.ofJson? = some r.destination :=
    hs.required (by simp) (kept_id _)
  have hhops : required rs "hops" (readList RouteHop.ofJson?) = some r.hops :=
    hs.required (by simp) (kept_list fun hop hmem =>
      RouteHop.kept (h hop hmem) (hhop _ (List.mem_map_of_mem hmem)))
  have hfound : required rs "discovered" readMoment = some r.discovered :=
    hs.required (by simp) (kept_moment hdiscovered)
  have hlast : optional rs "last_used" readMoment = some r.lastUsed :=
    hs.optional (by simp) (kept_moments hused) rfl
  have hpreferred : required rs "preferred" asBool? = some r.preferred :=
    hs.required (by simp) (kept_bool _)
  simp only [ofJson?, recordMembers?, hdestination, hhops, hfound, hlast, hpreferred,
    Option.bind_eq_bind, Option.bind_some, Option.pure_def]

end Route

/-! ## Messages -/

namespace Message

theorem fits {d : Nat} (m : Message) : Fits (d + 1) m.toJson := by
  simp [toJson, fits_object]

theorem kept {m : Message} (h : ∀ x ∈ m.snr, x.isFinite = true) (ht : m.timestamp.ReadsBack) :
    Kept toJson ofJson? m := by
  refine kept_record rfl rfl (show fieldNames.Nodup by decide) fun rs hs => ?_
  have hid : required rs "id" asString? = some m.id :=
    hs.required (by simp) (kept_string _)
  have hpacket : required rs "packet_id" readUInt32 = some m.packetId :=
    hs.required (by simp) (kept_uint32 _)
  have hsender : required rs "from" NodeId.ofJson? = some m.sender :=
    hs.required (by simp) (kept_id _)
  have hrecipient : optional rs "to" NodeId.ofJson? = some m.recipient :=
    hs.optional (by simp) (fun id _ => kept_id id) rfl
  have hchannel : required rs "channel" readUInt32 = some m.channel :=
    hs.required (by simp) (kept_uint32 _)
  have hname : required rs "channel_name" asString? = some m.channelName :=
    hs.required (by simp) (kept_string _)
  have htext : required rs "text" asString? = some m.text :=
    hs.required (by simp) (kept_string _)
  have htime : required rs "timestamp" readMoment = some m.timestamp :=
    hs.required (by simp) (kept_moment ht)
  have hsnr : optional rs "snr" readSingle = some m.snr :=
    hs.optional (by simp) (fun x hx => kept_single (h x hx)) rfl
  have hrssi : optional rs "rssi" readInt32 = some m.rssi :=
    hs.optional (by simp) (fun _ _ => kept_int32 _) rfl
  have hhops : optional rs "hops_away" readUInt8 = some m.hopsAway :=
    hs.optional (by simp) (fun _ _ => kept_uint8 _) rfl
  have hincoming : required rs "incoming" asBool? = some m.incoming :=
    hs.required (by simp) (kept_bool _)
  unfold ofJson? recordMembers?
  rw [Option.bind_eq_bind, Option.bind_some, hid, hpacket, hsender, hrecipient, hchannel, hname,
    htext, htime, hsnr, hrssi, hhops, hincoming]
  rfl

end Message

end MeshWatch
