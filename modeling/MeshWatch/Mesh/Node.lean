import MeshWatch.Link
import MeshWatch.Mesh.Limits
import MeshWatch.Mesh.Position
import MeshWatch.NeighborSet

/-!
# Nodes

Everything that is known of one participant of the mesh. Whether a node is online
follows from when it was last heard; nothing has to switch it off.

- `length_cleanName_le`: a cleaned name is no longer than asked for.
- `not_isControl_of_mem_cleanName`: and holds no control character.
- `isOnline_iff`: online means heard within the timeout.
-/

namespace MeshWatch

/-- Whether a node has been heard lately. -/
inductive Liveness where
  | unknown
  | online
  | offline
deriving DecidableEq, Repr

/-- The label of a state. -/
def Liveness.name : Liveness → String
  | unknown => "unknown"
  | online => "online"
  | offline => "offline"

/-- One participant of the mesh. -/
structure Node where
  id : NodeId
  shortName : String := ""
  longName : String := ""
  hardwareModel : String := ""
  role : NodeRole := .client
  position : Option Position := none
  telemetry : NodeTelemetry := {}
  firstSeen : Moment
  lastHeard : Moment
  /-- The nodes that it hears. -/
  neighbors : NeighborSet := {}
  /-- The nodes that hear it. -/
  heardBy : NeighborSet := {}
  /-- The ids of the routes to it, newest last. -/
  routes : List String := []
  linkQuality : LinkQuality := {}
  /-- How many hops its last packet travelled. -/
  hopsAway : Option UInt8 := none
  /-- The gateway that passed on its last packet. -/
  lastGateway : Option NodeId := none
  /-- The last bytes of the relays of its packets, newest last; they identify no
  node. -/
  relayHints : List UInt8 := []
deriving DecidableEq, Inhabited

/-! ## Names -/

/-- A name without control characters, cut off at a length and trimmed. -/
def cleanName (limit : Nat) (raw : String) : String :=
  String.ofList (Text.trimmed ((raw.toList.filter fun c => !Text.isControl c).take limit))

theorem mem_of_mem_trimmed {c : Char} {cs : List Char} (h : c ∈ Text.trimmed cs) : c ∈ cs := by
  simp only [Text.trimmed, List.mem_reverse] at h
  have h1 := (List.dropWhile_sublist _).subset h
  rw [List.mem_reverse] at h1
  exact (List.dropWhile_sublist _).subset h1

theorem length_trimmed_le (cs : List Char) : (Text.trimmed cs).length ≤ cs.length := by
  simp only [Text.trimmed, List.length_reverse]
  refine Nat.le_trans (List.dropWhile_sublist _).length_le ?_
  rw [List.length_reverse]
  exact (List.dropWhile_sublist _).length_le

theorem length_cleanName_le (limit : Nat) (raw : String) :
    (cleanName limit raw).toList.length ≤ limit := by
  simp only [cleanName, String.toList_ofList]
  refine Nat.le_trans (length_trimmed_le _) ?_
  rw [List.length_take]
  omega

theorem not_isControl_of_mem_cleanName {limit : Nat} {raw : String} {c : Char}
    (h : c ∈ (cleanName limit raw).toList) : Text.isControl c = false := by
  simp only [cleanName, String.toList_ofList] at h
  have := List.mem_of_mem_take (mem_of_mem_trimmed h)
  simpa using (List.mem_filter.1 this).2

/-! ## Updates -/

/-- What a packet or an operator tells about a node; absent parts are left as they
are. -/
structure NodeUpdate where
  shortName : Option String := none
  longName : Option String := none
  hardwareModel : Option String := none
  role : Option NodeRole := none
  position : Option PositionReport := none
  telemetry : Option TelemetryReport := none
  hopsAway : Option UInt8 := none
deriving DecidableEq, Inhabited

namespace Node

/-- How many characters a short name has at most. -/
def shortNameLength : Nat := 4

/-- How many characters the other names have at most. -/
def longNameLength : Nat := 40

/-- How many route ids are kept. -/
def routeBound : Nat := 5

/-- How many relay hints are kept. -/
def relayHintBound : Nat := 8

/-- A node that was heard for the first time. -/
def new (id : NodeId) (now : Moment) : Node := { id := id, firstSeen := now, lastHeard := now }

/-- The long name, else the short name, else the id. -/
def displayName (n : Node) : String :=
  if !n.longName.isEmpty then n.longName
  else if !n.shortName.isEmpty then n.shortName
  else n.id.text

def isOnline (n : Node) (now : Moment) (timeout : Span) : Bool := now.within n.lastHeard timeout

def liveness (n : Node) (now : Moment) (timeout : Span) : Liveness :=
  if n.isOnline now timeout then .online else .offline

theorem isOnline_iff (n : Node) (now : Moment) (timeout : Span) :
    n.isOnline now timeout = true ↔ now.nanos - n.lastHeard.nanos ≤ timeout.reach :=
  decide_eq_true_iff

theorem liveness_eq_online_iff (n : Node) (now : Moment) (timeout : Span) :
    n.liveness now timeout = .online ↔ n.isOnline now timeout = true := by
  cases h : n.isOnline now timeout <;> simp [liveness, h]

/-- Heard just now. -/
def heardAt (n : Node) (now : Moment) : Node := { n with lastHeard := now }

/-- Takes the parts of an update that are there. -/
def update (n : Node) (u : NodeUpdate) (now : Moment) : Node :=
  { n with
    shortName := (u.shortName.map (cleanName shortNameLength)).getD n.shortName
    longName := (u.longName.map (cleanName longNameLength)).getD n.longName
    hardwareModel := (u.hardwareModel.map (cleanName longNameLength)).getD n.hardwareModel
    role := u.role.getD n.role
    position := (u.position.bind fun r => Position.ofReport? r now) <|> n.position
    telemetry := (u.telemetry.map fun r => n.telemetry.merge r now).getD n.telemetry
    hopsAway := u.hopsAway <|> n.hopsAway
    lastHeard := now }

@[simp] theorem update_id (n : Node) (u : NodeUpdate) (now : Moment) : (n.update u now).id = n.id := rfl

@[simp] theorem update_lastHeard (n : Node) (u : NodeUpdate) (now : Moment) :
    (n.update u now).lastHeard = now := rfl

/-- Puts a route id last. -/
def rememberRoute (n : Node) (routeId : String) : Node :=
  { n with routes := Recent.touch routeBound routeId n.routes }

/-- Drops a route id. -/
def forgetRoute (n : Node) (routeId : String) : Node :=
  { n with routes := n.routes.filter (· != routeId) }

/-- Puts the last byte of a relay last. -/
def rememberRelayHint (n : Node) (hint : UInt8) : Node :=
  { n with relayHints := Recent.touch relayHintBound hint n.relayHints }

/-- Adds a node that it hears. -/
def hears (n : Node) (id : NodeId) : Node := { n with neighbors := n.neighbors.insert id }

/-- Adds a node that hears it. -/
def isHeardBy (n : Node) (id : NodeId) : Node := { n with heardBy := n.heardBy.insert id }

@[simp] theorem hears_id (n : Node) (id : NodeId) : (n.hears id).id = n.id := by
  simp only [hears]

@[simp] theorem hears_lastHeard (n : Node) (id : NodeId) :
    (n.hears id).lastHeard = n.lastHeard := by
  simp only [hears]

@[simp] theorem isHeardBy_id (n : Node) (id : NodeId) : (n.isHeardBy id).id = n.id := by
  simp only [isHeardBy]

@[simp] theorem isHeardBy_lastHeard (n : Node) (id : NodeId) :
    (n.isHeardBy id).lastHeard = n.lastHeard := by
  simp only [isHeardBy]

/-- Takes the link metrics of one of its packets. -/
def updateLink (n : Node) (snr : Float32) (rssi : Option Int32) (hops : Option UInt8)
    (now : Moment) : Node :=
  { n with linkQuality := n.linkQuality.update snr rssi hops now }

/-- Copies the last link metrics to the telemetry. -/
def withLinkTelemetry (n : Node) : Node :=
  { n with
    telemetry := { n.telemetry with snr := some n.linkQuality.snr, rssi := n.linkQuality.rssi } }

/-! ## Records -/

/-- The members of the record. -/
def members (n : Node) : Json.Members :=
  [("id", n.id.toJson),
   ("short_name", .string n.shortName),
   ("long_name", .string n.longName),
   ("hardware_model", .string n.hardwareModel),
   ("role", n.role.toJson),
   ("position", Json.option Position.toJson n.position),
   ("telemetry", n.telemetry.toJson),
   ("first_seen", Json.ofMoment n.firstSeen),
   ("last_heard", Json.ofMoment n.lastHeard),
   ("neighbors", n.neighbors.toJson),
   ("heard_by", n.heardBy.toJson),
   ("routes", Json.list Json.string n.routes),
   ("link_quality", n.linkQuality.toJson),
   ("hops_away", Json.option Json.ofUInt8 n.hopsAway),
   ("last_gateway", Json.option NodeId.toJson n.lastGateway),
   ("relay_hints", Json.list Json.ofUInt8 n.relayHints)]

def toJson (n : Node) : Json := .object n.members

/-- The fields in order. -/
def fieldNames : List String :=
  ["id", "short_name", "long_name", "hardware_model", "role", "position", "telemetry", "first_seen",
   "last_heard", "neighbors", "heard_by", "routes", "link_quality", "hops_away", "last_gateway",
   "relay_hints"]

def ofJson? (j : Json) : Option Node := do
  let ms ← j.recordMembers? fieldNames 9
  return {
    id := ← Json.required ms "id" NodeId.ofJson?
    shortName := ← Json.defaulted ms "short_name" "" Json.asString?
    longName := ← Json.defaulted ms "long_name" "" Json.asString?
    hardwareModel := ← Json.defaulted ms "hardware_model" "" Json.asString?
    role := ← Json.defaulted ms "role" .client NodeRole.ofJson?
    position := ← Json.optional ms "position" Position.ofJson?
    telemetry := ← Json.defaulted ms "telemetry" {} NodeTelemetry.ofJson?
    firstSeen := ← Json.required ms "first_seen" Json.readMoment
    lastHeard := ← Json.required ms "last_heard" Json.readMoment
    neighbors := ← Json.defaulted ms "neighbors" {} NeighborSet.ofJson?
    heardBy := ← Json.defaulted ms "heard_by" {} NeighborSet.ofJson?
    routes := ← Json.defaulted ms "routes" [] (Json.readList Json.asString?)
    linkQuality := ← Json.defaulted ms "link_quality" {} LinkQuality.ofJson?
    hopsAway := ← Json.optional ms "hops_away" Json.readUInt8
    lastGateway := ← Json.optional ms "last_gateway" NodeId.ofJson?
    relayHints := ← Json.defaulted ms "relay_hints" [] (Json.readList Json.readUInt8) }

end Node

end MeshWatch
