import MeshWatch.Mesh.Limits
import MeshWatch.Topic

/-!
# Configuration

The settings of a run, in four groups, each with a default; the defaults are those of
the public broker. Durations are whole numbers of the unit that the setting names.

- `limits_default`: the limits of a run without settings are the standard ones.
- `five_le_keepAlive`: a broker is never asked to wait for less than five seconds.
-/

namespace MeshWatch

/-! ## Settings -/

/-- How to reach the broker, and what to listen to there. -/
structure BrokerConfig where
  broker : String := "mqtt.meshtastic.org"
  port : UInt16 := 1883
  useTls : Bool := false
  username : String := "meshdev"
  password : String := "large4cats"
  /-- The first levels of all topics. -/
  topicRoot : String := "msh/US"
  channel : String := "LongFast"
  /-- The node as which text is sent. -/
  nodeId : Option String := none
  /-- A name is made up when this is blank. -/
  clientId : String := ""
  /-- The secret of the channel in base64. -/
  encryptionKey : String := ""
  qos : UInt8 := 1
  reconnectDelaySecs : UInt64 := 5
  maxReconnectDelaySecs : UInt64 := 300
  /-- A connection that lasted this long starts the delays over. -/
  stableConnectionSecs : UInt64 := 60
  connectTimeoutSecs : UInt64 := 10
  /-- A connection without traffic for this long is degraded. -/
  trafficTimeoutSecs : UInt64 := 600
  keepAliveSecs : UInt64 := 60
deriving DecidableEq, Repr, Inhabited

/-- The bounds of the model. -/
structure NetworkConfig where
  staleNodeHours : UInt64 := 72
  maxNodes : UInt64 := 10000
  maxRoutes : UInt64 := 5000
  messageHistory : UInt64 := 500
  onlineTimeoutMins : UInt64 := 15
  dedupWindowSecs : UInt64 := 300
  batteryLowThreshold : UInt32 := 20
  sweepIntervalSecs : UInt64 := 300
deriving DecidableEq, Repr, Inhabited

/-- Where and how often the mesh is stored. -/
structure PersistenceConfig where
  stateFile : Option String := none
  /-- Zero stores it at the end only. -/
  saveIntervalSecs : UInt64 := 300
deriving DecidableEq, Repr, Inhabited

/-- The queue of packets from attached devices. -/
structure TransportConfig where
  queueCapacity : UInt64 := 5000
deriving DecidableEq, Repr, Inhabited

/-- All settings. -/
structure Config where
  mqtt : BrokerConfig := {}
  network : NetworkConfig := {}
  persistence : PersistenceConfig := {}
  transport : TransportConfig := {}
deriving DecidableEq, Repr, Inhabited

/-! ## Faults -/

/-- A setting that cannot be used. -/
inductive SettingFault where
  | emptyBroker
  | zeroPort
  | unknownQos
  | zeroReconnectDelay
  | shortMaxReconnectDelay
  | zeroConnectTimeout
  | badNodeId (text : String)
  | zeroMaxNodes
  | zeroStaleHours
  | zeroSweepInterval
  | batteryAbovePercent
deriving DecidableEq, Repr

namespace SettingFault

/-- The setting at fault. -/
def field : SettingFault → String
  | emptyBroker => "mqtt.broker"
  | zeroPort => "mqtt.port"
  | unknownQos => "mqtt.qos"
  | zeroReconnectDelay => "mqtt.reconnect_delay_secs"
  | shortMaxReconnectDelay => "mqtt.max_reconnect_delay_secs"
  | zeroConnectTimeout => "mqtt.connect_timeout_secs"
  | badNodeId _ => "mqtt.node_id"
  | zeroMaxNodes => "network.max_nodes"
  | zeroStaleHours => "network.stale_node_hours"
  | zeroSweepInterval => "network.sweep_interval_secs"
  | batteryAbovePercent => "network.battery_low_threshold"

def reason : SettingFault → String
  | emptyBroker => "must not be empty"
  | zeroPort => "must be 1-65535"
  | unknownQos => "must be 0, 1 or 2"
  | zeroReconnectDelay => "must be > 0"
  | shortMaxReconnectDelay => "must be >= reconnect_delay_secs"
  | zeroConnectTimeout => "must be > 0"
  | badNodeId text => NodeId.invalidMessage text
  | zeroMaxNodes => "must be > 0"
  | zeroStaleHours => "must be > 0"
  | zeroSweepInterval => "must be > 0"
  | batteryAbovePercent => "must be a percentage"

end SettingFault

/-- Why settings cannot be used. -/
inductive ConfigFault where
  | unreadable (path : String)
  | syntactic
  | setting (fault : SettingFault)
  | topic (fault : Topic.ComponentError)
  | key (fault : CryptoFault)
deriving DecidableEq, Repr

/-- The wording of a fault. -/
def ConfigFault.message : ConfigFault → String
  | .unreadable path => "cannot read config " ++ path ++ ": <io>"
  | .syntactic => "cannot parse config: " ++ Grammar.toml.objection
  | .setting fault => "invalid value for " ++ fault.field ++ ": " ++ fault.reason
  | .topic fault =>
    "invalid topic component " ++ Text.quoted fault.component ++ ": " ++ fault.fault.reason
  | .key fault => "invalid encryption key: " ++ fault.message

/-! ## What follows from the settings -/

namespace BrokerConfig

/-- The node as which text is sent; blanks name none. -/
def senderId (c : BrokerConfig) : Except SettingFault (Option NodeId) :=
  match c.nodeId.map Text.trim with
  | none => .ok none
  | some text =>
    if text.isEmpty then .ok none
    else
      match NodeId.ofText? text with
      | some id => .ok (some id)
      | none => .error (.badNodeId text)

/-- The secret of the channel, unless it is not encrypted. -/
def secret (c : BrokerConfig) : Except CryptoFault (Option Bytes) :=
  ChannelKey.readSecret c.encryptionKey

/-- The key of the channel, unless it is not encrypted. -/
def channelKey (c : BrokerConfig) : Except CryptoFault (Option ChannelKey) :=
  match c.secret with
  | .error fault => .error fault
  | .ok none => .ok none
  | .ok (some secret) => (ChannelKey.ofSecret c.channel secret).map some

/-- Seconds between signs of life: at least five. -/
def keepAlive (c : BrokerConfig) : Nat := max c.keepAliveSecs.toNat 5

theorem five_le_keepAlive (c : BrokerConfig) : 5 ≤ c.keepAlive := Nat.le_max_right _ _

def reconnectDelay (c : BrokerConfig) : Span := .ofSecs c.reconnectDelaySecs.toNat
def maxReconnectDelay (c : BrokerConfig) : Span := .ofSecs c.maxReconnectDelaySecs.toNat
def stableConnection (c : BrokerConfig) : Span := .ofSecs c.stableConnectionSecs.toNat
def trafficTimeout (c : BrokerConfig) : Span := .ofSecs c.trafficTimeoutSecs.toNat

/-- The broker's name and port. -/
def address (c : BrokerConfig) : String := c.broker ++ ":" ++ toString c.port.toNat

/-- What is wrong with the settings as such, the first thing first. -/
def rangeFault? (c : BrokerConfig) : Option SettingFault :=
  if Text.allBlank c.broker then some .emptyBroker
  else if c.port = 0 then some .zeroPort
  else if 2 < c.qos then some .unknownQos
  else if c.reconnectDelaySecs = 0 then some .zeroReconnectDelay
  else if c.maxReconnectDelaySecs < c.reconnectDelaySecs then some .shortMaxReconnectDelay
  else if c.connectTimeoutSecs = 0 then some .zeroConnectTimeout
  else none

/-- Checks the settings in order: ranges, topic names, secret, node id. -/
def check (c : BrokerConfig) : Except ConfigFault Unit :=
  match c.rangeFault? with
  | some fault => .error (.setting fault)
  | none =>
    match Topic.checkNames c.topicRoot c.channel with
    | .error fault => .error (.topic fault)
    | .ok () =>
      match c.secret with
      | .error fault => .error (.key fault)
      | .ok _ =>
        match c.senderId with
        | .error fault => .error (.setting fault)
        | .ok _ => .ok ()

/-- With a made-up client id, if none is set. -/
def withClientId (c : BrokerConfig) (madeUp : String) : BrokerConfig :=
  if Text.allBlank c.clientId then { c with clientId := madeUp } else c

end BrokerConfig

namespace NetworkConfig

/-- The limits of the model. -/
def limits (c : NetworkConfig) : Limits :=
  { maxNodes := c.maxNodes.toNat
    maxRoutes := c.maxRoutes.toNat
    messageHistory := c.messageHistory.toNat
    staleAfter := .ofSecs (c.staleNodeHours * 3600).toNat
    onlineTimeout := .ofSecs (c.onlineTimeoutMins * 60).toNat
    dedupWindow := .ofSecs c.dedupWindowSecs.toNat
    batteryLow := c.batteryLowThreshold }

theorem limits_default : ({} : NetworkConfig).limits = Limits.standard := by decide

/-- What is wrong with the settings, the first thing first. -/
def rangeFault? (c : NetworkConfig) : Option SettingFault :=
  if c.maxNodes = 0 then some .zeroMaxNodes
  else if c.staleNodeHours = 0 then some .zeroStaleHours
  else if c.sweepIntervalSecs = 0 then some .zeroSweepInterval
  else if 100 < c.batteryLowThreshold then some .batteryAbovePercent
  else none

def check (c : NetworkConfig) : Except ConfigFault Unit :=
  match c.rangeFault? with
  | some fault => .error (.setting fault)
  | none => .ok ()

end NetworkConfig

/-- Seconds between two savings; none when it is stored at the end only. -/
def PersistenceConfig.saveInterval (c : PersistenceConfig) : Option Nat :=
  if c.saveIntervalSecs = 0 then none else some c.saveIntervalSecs.toNat

/-- Checks all settings. -/
def Config.check (c : Config) : Except ConfigFault Unit :=
  match c.mqtt.check with
  | .error fault => .error fault
  | .ok () => c.network.check

end MeshWatch
