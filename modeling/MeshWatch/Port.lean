import MeshWatch.Text.Numeral

/-!
# Application ports

The number under which an application body travels says what it is. Ports have a
canonical name; a number without a known application is named after itself.

- `ofNumber?_number`: every port is found again by its number.
- `ofNumber?_eq_some`: a port that is found has the number asked for.
-/

namespace MeshWatch

/-- The known applications. -/
inductive Port where
  | unknown
  | textMessage
  | remoteHardware
  | position
  | nodeInfo
  | routing
  | admin
  | textMessageCompressed
  | waypoint
  | reply
  | ipTunnel
  | paxcounter
  | serial
  | telemetry
  | zps
  | simulator
  | traceroute
  | neighborInfo
  | atakPlugin
  | mapReport
  | «private»
  | atakForwarder
deriving DecidableEq, Repr

namespace Port

/-- All ports, in the order of their numbers. -/
def all : List Port :=
  [unknown, textMessage, remoteHardware, position, nodeInfo, routing, admin,
   textMessageCompressed, waypoint, reply, ipTunnel, paxcounter, serial, telemetry, zps, simulator,
   traceroute, neighborInfo, atakPlugin, mapReport, «private», atakForwarder]

/-- The number of a port. -/
def number : Port → UInt32
  | unknown => 0
  | textMessage => 1
  | remoteHardware => 2
  | position => 3
  | nodeInfo => 4
  | routing => 5
  | admin => 6
  | textMessageCompressed => 7
  | waypoint => 8
  | reply => 32
  | ipTunnel => 64
  | paxcounter => 65
  | serial => 66
  | telemetry => 67
  | zps => 68
  | simulator => 69
  | traceroute => 70
  | neighborInfo => 71
  | atakPlugin => 72
  | mapReport => 73
  | «private» => 256
  | atakForwarder => 257

/-- The canonical name of a port. -/
def name : Port → String
  | unknown => "UNKNOWN_APP"
  | textMessage => "TEXT_MESSAGE_APP"
  | remoteHardware => "REMOTE_HARDWARE_APP"
  | position => "POSITION_APP"
  | nodeInfo => "NODEINFO_APP"
  | routing => "ROUTING_APP"
  | admin => "ADMIN_APP"
  | textMessageCompressed => "TEXT_MESSAGE_COMPRESSED_APP"
  | waypoint => "WAYPOINT_APP"
  | reply => "REPLY_APP"
  | ipTunnel => "IP_TUNNEL_APP"
  | paxcounter => "PAXCOUNTER_APP"
  | serial => "SERIAL_APP"
  | telemetry => "TELEMETRY_APP"
  | zps => "ZPS_APP"
  | simulator => "SIMULATOR_APP"
  | traceroute => "TRACEROUTE_APP"
  | neighborInfo => "NEIGHBORINFO_APP"
  | atakPlugin => "ATAK_PLUGIN"
  | mapReport => "MAP_REPORT_APP"
  | «private» => "PRIVATE_APP"
  | atakForwarder => "ATAK_FORWARDER"

/-- The port of a number. -/
def ofNumber? (n : UInt32) : Option Port := all.find? fun p => p.number == n

theorem ofNumber?_number (p : Port) : ofNumber? p.number = some p := by cases p <;> decide

theorem ofNumber?_eq_some {n : UInt32} {p : Port} (h : ofNumber? n = some p) : p.number = n := by
  simpa using List.find?_some h

/-- The port that a canonical name or a decimal number names. -/
def ofName? (s : String) : Option Port :=
  match Text.decimalWord? s with
  | some n => ofNumber? n
  | none => all.find? fun p => p.name == s

/-- The name of any port number. -/
def nameOf (n : UInt32) : String :=
  match ofNumber? n with
  | some p => p.name
  | none => "PORT_" ++ toString n.toNat

end Port

end MeshWatch
