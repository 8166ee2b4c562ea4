import MeshWatch.Config.Basic
import MeshWatch.Toml.Reader
import MeshWatch.Toml.Writer

/-!
# Configuration files

Settings are read from TOML, where each group is a table of its name. What is not set
has its default, and what is not known is ignored; a value of the wrong type or out of
the range of its setting spoils the file. An array in place of a table holds the values
of the group in order.

- `read_syntactic`: a text that is not TOML is refused as such.
-/

namespace MeshWatch

namespace Toml

/-- A string. -/
def asString? : Toml → Option String
  | .string s => some s
  | _ => none

def asBool? : Toml → Option Bool
  | .boolean b => some b
  | _ => none

/-- An integer that is not negative and below a bound. -/
def asNat? (bound : Nat) : Toml → Option Nat
  | .integer n => if 0 ≤ n ∧ n < bound then some n.toNat else none
  | _ => none

def asWord8? (v : Toml) : Option UInt8 := (v.asNat? UInt8.size).map UInt8.ofNat
def asWord16? (v : Toml) : Option UInt16 := (v.asNat? UInt16.size).map UInt16.ofNat
def asWord32? (v : Toml) : Option UInt32 := (v.asNat? UInt32.size).map UInt32.ofNat
def asWord64? (v : Toml) : Option UInt64 := (v.asNat? UInt64.size).map UInt64.ofNat

/-- The settings of a group, whose names are given in order. A date has no settings. -/
def settings? (names : List String) : Toml → Option Members
  | .table _ ms => some ms
  | .array xs => some (names.zip xs)
  | .datetime _ => some []
  | _ => none

/-- A setting with its default. -/
def setting {α : Type} (ms : Members) (key : String) (standIn : α) (read : Toml → Option α) :
    Option α :=
  match ms.lookup key with
  | some v => read v
  | none => some standIn

/-- A setting that may be absent. -/
def settingOrNone {α : Type} (ms : Members) (key : String) (read : Toml → Option α) :
    Option (Option α) :=
  match ms.lookup key with
  | some v => (read v).map some
  | none => some none

end Toml

namespace BrokerConfig

/-- The settings in order. -/
def names : List String :=
  ["broker", "port", "use_tls", "username", "password", "topic_root", "channel", "node_id",
   "client_id", "encryption_key", "qos", "reconnect_delay_secs", "max_reconnect_delay_secs",
   "stable_connection_secs", "connect_timeout_secs", "traffic_timeout_secs", "keep_alive_secs"]

def ofToml? (v : Toml) : Option BrokerConfig := do
  let ms ← v.settings? names
  let d : BrokerConfig := {}
  return {
    broker := ← Toml.setting ms "broker" d.broker Toml.asString?
    port := ← Toml.setting ms "port" d.port Toml.asWord16?
    useTls := ← Toml.setting ms "use_tls" d.useTls Toml.asBool?
    username := ← Toml.setting ms "username" d.username Toml.asString?
    password := ← Toml.setting ms "password" d.password Toml.asString?
    topicRoot := ← Toml.setting ms "topic_root" d.topicRoot Toml.asString?
    channel := ← Toml.setting ms "channel" d.channel Toml.asString?
    nodeId := ← Toml.settingOrNone ms "node_id" Toml.asString?
    clientId := ← Toml.setting ms "client_id" d.clientId Toml.asString?
    encryptionKey := ← Toml.setting ms "encryption_key" d.encryptionKey Toml.asString?
    qos := ← Toml.setting ms "qos" d.qos Toml.asWord8?
    reconnectDelaySecs :=
      ← Toml.setting ms "reconnect_delay_secs" d.reconnectDelaySecs Toml.asWord64?
    maxReconnectDelaySecs :=
      ← Toml.setting ms "max_reconnect_delay_secs" d.maxReconnectDelaySecs Toml.asWord64?
    stableConnectionSecs :=
      ← Toml.setting ms "stable_connection_secs" d.stableConnectionSecs Toml.asWord64?
    connectTimeoutSecs :=
      ← Toml.setting ms "connect_timeout_secs" d.connectTimeoutSecs Toml.asWord64?
    trafficTimeoutSecs :=
      ← Toml.setting ms "traffic_timeout_secs" d.trafficTimeoutSecs Toml.asWord64?
    keepAliveSecs := ← Toml.setting ms "keep_alive_secs" d.keepAliveSecs Toml.asWord64? }

/-- The settings and their values, as they are written. -/
def pairs (c : BrokerConfig) : List (String × String) :=
  [("broker", Toml.stringLiteral c.broker),
   ("port", toString c.port.toNat),
   ("use_tls", if c.useTls then "true" else "false"),
   ("username", Toml.stringLiteral c.username),
   ("password", Toml.stringLiteral c.password),
   ("topic_root", Toml.stringLiteral c.topicRoot),
   ("channel", Toml.stringLiteral c.channel)]
  ++ (c.nodeId.map fun id => ("node_id", Toml.stringLiteral id)).toList ++
  [("client_id", Toml.stringLiteral c.clientId),
   ("encryption_key", Toml.stringLiteral c.encryptionKey),
   ("qos", toString c.qos.toNat),
   ("reconnect_delay_secs", toString c.reconnectDelaySecs.toNat),
   ("max_reconnect_delay_secs", toString c.maxReconnectDelaySecs.toNat),
   ("stable_connection_secs", toString c.stableConnectionSecs.toNat),
   ("connect_timeout_secs", toString c.connectTimeoutSecs.toNat),
   ("traffic_timeout_secs", toString c.trafficTimeoutSecs.toNat),
   ("keep_alive_secs", toString c.keepAliveSecs.toNat)]

end BrokerConfig

namespace NetworkConfig

/-- The settings in order. -/
def names : List String :=
  ["stale_node_hours", "max_nodes", "max_routes", "message_history", "online_timeout_mins",
   "dedup_window_secs", "battery_low_threshold", "sweep_interval_secs"]

def ofToml? (v : Toml) : Option NetworkConfig := do
  let ms ← v.settings? names
  let d : NetworkConfig := {}
  return {
    staleNodeHours := ← Toml.setting ms "stale_node_hours" d.staleNodeHours Toml.asWord64?
    maxNodes := ← Toml.setting ms "max_nodes" d.maxNodes Toml.asWord64?
    maxRoutes := ← Toml.setting ms "max_routes" d.maxRoutes Toml.asWord64?
    messageHistory := ← Toml.setting ms "message_history" d.messageHistory Toml.asWord64?
    onlineTimeoutMins := ← Toml.setting ms "online_timeout_mins" d.onlineTimeoutMins Toml.asWord64?
    dedupWindowSecs := ← Toml.setting ms "dedup_window_secs" d.dedupWindowSecs Toml.asWord64?
    batteryLowThreshold :=
      ← Toml.setting ms "battery_low_threshold" d.batteryLowThreshold Toml.asWord32?
    sweepIntervalSecs :=
      ← Toml.setting ms "sweep_interval_secs" d.sweepIntervalSecs Toml.asWord64? }

/-- The settings and their values, as they are written. -/
def pairs (c : NetworkConfig) : List (String × String) :=
  [("stale_node_hours", toString c.staleNodeHours.toNat),
   ("max_nodes", toString c.maxNodes.toNat),
   ("max_routes", toString c.maxRoutes.toNat),
   ("message_history", toString c.messageHistory.toNat),
   ("online_timeout_mins", toString c.onlineTimeoutMins.toNat),
   ("dedup_window_secs", toString c.dedupWindowSecs.toNat),
   ("battery_low_threshold", toString c.batteryLowThreshold.toNat),
   ("sweep_interval_secs", toString c.sweepIntervalSecs.toNat)]

end NetworkConfig

namespace PersistenceConfig

def ofToml? (v : Toml) : Option PersistenceConfig := do
  let ms ← v.settings? ["state_file", "save_interval_secs"]
  let d : PersistenceConfig := {}
  return {
    stateFile := ← Toml.settingOrNone ms "state_file" Toml.asString?
    saveIntervalSecs := ← Toml.setting ms "save_interval_secs" d.saveIntervalSecs Toml.asWord64? }

/-- The settings and their values, as they are written. -/
def pairs (c : PersistenceConfig) : List (String × String) :=
  (c.stateFile.map fun path => ("state_file", Toml.stringLiteral path)).toList
    ++ [("save_interval_secs", toString c.saveIntervalSecs.toNat)]

end PersistenceConfig

namespace TransportConfig

def ofToml? (v : Toml) : Option TransportConfig := do
  let ms ← v.settings? ["queue_capacity"]
  let d : TransportConfig := {}
  return { queueCapacity := ← Toml.setting ms "queue_capacity" d.queueCapacity Toml.asWord64? }

/-- The settings and their values, as they are written. -/
def pairs (c : TransportConfig) : List (String × String) :=
  [("queue_capacity", toString c.queueCapacity.toNat)]

end TransportConfig

namespace Config

/-- The settings of the root of a document. -/
def ofMembers? (ms : Toml.Members) : Option Config := do
  let d : Config := {}
  return {
    mqtt := ← Toml.setting ms "mqtt" d.mqtt BrokerConfig.ofToml?
    network := ← Toml.setting ms "network" d.network NetworkConfig.ofToml?
    persistence := ← Toml.setting ms "persistence" d.persistence PersistenceConfig.ofToml?
    transport := ← Toml.setting ms "transport" d.transport TransportConfig.ofToml? }

/-- Reads and checks settings. A client id that is not set is replaced by the one made
up for the run. -/
def read (text : String) (madeUpClientId : String) : Except ConfigFault Config :=
  match (Toml.read? text).bind ofMembers? with
  | none => .error .syntactic
  | some c =>
    let c := { c with mqtt := c.mqtt.withClientId madeUpClientId }
    match c.check with
    | .error fault => .error fault
    | .ok () => .ok c

theorem read_syntactic {text : String} (h : Toml.read? text = none) (madeUpClientId : String) :
    read text madeUpClientId = .error .syntactic := by simp [read, h]

/-- The settings as a document. -/
def document (c : Config) : String :=
  Toml.tableText "mqtt" c.mqtt.pairs ++ "\n" ++ Toml.tableText "network" c.network.pairs ++ "\n"
    ++ Toml.tableText "persistence" c.persistence.pairs ++ "\n"
    ++ Toml.tableText "transport" c.transport.pairs

end Config

end MeshWatch
