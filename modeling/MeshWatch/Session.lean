import MeshWatch.Backoff
import MeshWatch.Json.Record

/-!
# Sessions

A session is connected to a broker, or tries to be. This file says how well a session
is doing, how it is started and stopped, and why a text cannot be sent.

- `start_running`: a session that runs cannot be started again.
- `stop_stop`: stopping twice is stopping once.
- `refusal?_blank`: a blank text is refused whatever the session.
-/

namespace MeshWatch

/-- Where a session stands. -/
inductive SessionState where
  | disconnected
  | connecting
  | connected
deriving DecidableEq, Repr, Inhabited

def SessionState.name : SessionState → String
  | .disconnected => "disconnected"
  | .connecting => "connecting"
  | .connected => "connected"

/-- How well a session is doing. -/
inductive ConnectionHealth where
  | healthy
  /-- Connected, but nothing was heard lately. -/
  | degraded
  | reconnecting
  | disconnected
deriving DecidableEq, Repr

def ConnectionHealth.name : ConnectionHealth → String
  | .healthy => "healthy"
  | .degraded => "degraded"
  | .reconnecting => "reconnecting"
  | .disconnected => "disconnected"

/-- What is known of a connection. -/
structure ConnectionStatus where
  state : SessionState := .disconnected
  /-- The broker's name and port. -/
  broker : String
  connectedSince : Option Moment := none
  lastConnected : Option Moment := none
  lastDisconnected : Option Moment := none
  lastTraffic : Option Moment := none
  /-- Attempts that failed since the last connection that lasted. -/
  reconnectAttempts : UInt32 := 0
  /-- Another attempt is due. -/
  retryPending : Bool := false
  lastError : Option String := none
deriving DecidableEq, Repr

namespace ConnectionStatus

/-- A connection is healthy while something was heard, or it was made, within the
timeout. -/
def health (s : ConnectionStatus) (now : Moment) (trafficTimeout : Span) : ConnectionHealth :=
  match s.state with
  | .connected =>
    match s.lastTraffic <|> s.connectedSince with
    | some heard => if now.within heard trafficTimeout then .healthy else .degraded
    | none => .degraded
  | .connecting => .reconnecting
  | .disconnected => if s.retryPending then .reconnecting else .disconnected

def toJson (s : ConnectionStatus) : Json :=
  .object
    [("state", .string s.state.name),
     ("broker", .string s.broker),
     ("connected_since", Json.option Json.ofMoment s.connectedSince),
     ("last_connected", Json.option Json.ofMoment s.lastConnected),
     ("last_disconnected", Json.option Json.ofMoment s.lastDisconnected),
     ("last_traffic", Json.option Json.ofMoment s.lastTraffic),
     ("reconnect_attempts", Json.ofUInt32 s.reconnectAttempts),
     ("retry_pending", .bool s.retryPending),
     ("last_error", Json.option Json.string s.lastError)]

end ConnectionStatus

/-- Why a session refuses something. -/
inductive SessionFault where
  | notConnected
  | messageTooLong (length : Nat)
  | emptyMessage
  | missingNodeId
  | alreadyRunning
  | config (fault : ConfigFault)
deriving DecidableEq, Repr

/-- How many bytes a text has at most. -/
def maxTextBytes : Nat := 228

def SessionFault.message : SessionFault → String
  | .notConnected => "not connected to broker"
  | .messageTooLong length =>
    "message too long: " ++ toString length ++ " bytes (max " ++ toString maxTextBytes ++ ")"
  | .emptyMessage => "message is empty"
  | .missingNodeId => "node_id must be configured to send messages"
  | .alreadyRunning => "session already running"
  | .config fault => fault.message

/-- A session with a broker. -/
structure Session where
  config : BrokerConfig
  /-- Whether it was started and not stopped since. -/
  isRunning : Bool := false
  status : ConnectionStatus
deriving DecidableEq, Repr

namespace Session

/-- A session that was not started yet. -/
def new (config : BrokerConfig) : Session :=
  { config := config, status := { broker := config.address } }

/-- Starts the session; the topics to listen to have to be valid. -/
def start (s : Session) : Except SessionFault Session :=
  if s.isRunning then .error .alreadyRunning
  else
    match Topic.subscriptions s.config.topicRoot s.config.channel with
    | .error fault => .error (.config (.topic fault))
    | .ok _ => .ok { s with isRunning := true }

/-- Stops the session. -/
def stop (s : Session) : Session :=
  { s with
    isRunning := false
    status :=
      { s.status with state := .disconnected, retryPending := false, connectedSince := none } }

theorem start_running {s : Session} (h : s.isRunning = true) : s.start = .error .alreadyRunning := by
  simp [start, h]

theorem stop_stop (s : Session) : s.stop.stop = s.stop := rfl

def isConnected (s : Session) : Bool := s.status.state == .connected

def health (s : Session) (now : Moment) : ConnectionHealth :=
  s.status.health now s.config.trafficTimeout

/-- Why a text cannot be sent on a channel, that of the session if none is given. -/
def refusal? (s : Session) (text : String) (channel : Option String) : Option SessionFault :=
  if Text.allBlank text then some .emptyMessage
  else if maxTextBytes < text.utf8ByteSize then some (.messageTooLong text.utf8ByteSize)
  else
    match s.config.senderId with
    | .error fault => some (.config (.setting fault))
    | .ok none => some .missingNodeId
    | .ok (some id) =>
      match Topic.publication s.config.topicRoot (channel.getD s.config.channel) id with
      | .error fault => some (.config (.topic fault))
      | .ok _ => if s.isConnected then none else some .notConnected

theorem refusal?_blank {text : String} (h : Text.allBlank text = true) (s : Session)
    (channel : Option String) : s.refusal? text channel = some .emptyMessage := by
  simp [refusal?, h]

end Session

end MeshWatch
