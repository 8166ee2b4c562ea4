import MeshWatch.Fault
import MeshWatch.Mesh.Message

/-!
# Events and warnings

What a step of the model tells the outside, in order: events, which subscribers
receive, and warnings, which go to the log.

- `events_append`, `warnings_append`: the journal of two steps tells what the first
  told and then what the second told.
-/

namespace MeshWatch

/-- A change of the mesh that can be observed. -/
inductive Event where
  /-- A node was heard for the first time. -/
  | nodeCreated (node : NodeId)
  /-- A known node was heard. -/
  | nodeUpdated (node : NodeId)
  | messageReceived (message : Message)
  | telemetryUpdated (node : NodeId) (telemetry : NodeTelemetry)
  /-- The battery level dropped below the threshold. -/
  | batteryLow (node : NodeId) (level : UInt32)
  /-- The channel utilisation of a node reached congestion. -/
  | channelCongested (node : NodeId) (utilization : Float32)
  /-- A node was removed. -/
  | nodeStale (node : NodeId)
deriving DecidableEq

namespace Event

/-- The label of an event. -/
def kind : Event → String
  | nodeCreated _ => "node_created"
  | nodeUpdated _ => "node_updated"
  | messageReceived _ => "message_received"
  | telemetryUpdated .. => "telemetry_updated"
  | batteryLow .. => "battery_low"
  | channelCongested .. => "channel_congested"
  | nodeStale _ => "node_stale"

/-- The members of an event after its label. -/
def members : Event → Json.Members
  | nodeCreated id => [("node", id.toJson)]
  | nodeUpdated id => [("node", id.toJson)]
  | messageReceived m => [("message", m.toJson)]
  | telemetryUpdated id t => [("node", id.toJson), ("telemetry", t.toJson)]
  | batteryLow id level => [("node", id.toJson), ("level", Json.ofUInt32 level)]
  | channelCongested id u => [("node", id.toJson), ("utilization", Json.ofSingle u)]
  | nodeStale id => [("node", id.toJson)]

/-- The record of an event. -/
def toJson (e : Event) : Json := .object (("event", .string e.kind) :: e.members)

end Event

/-- Something that an operator should know. -/
inductive Warning where
  /-- A node had to give way to another; `stored` nodes were known before. -/
  | nodeCap (node : NodeId) (stored : Nat)
  | malformedTraffic (count : Nat) (window : Span) (last : DecodeFault)
  | queueFull (capacity dropped : Nat) (sender : NodeId)
  | skippedRecords (part : String) (skipped : Nat)
  | newerSnapshot (version : UInt32)
  | unreadableSnapshot (fault : SnapshotFault)
deriving DecidableEq

namespace Warning

/-- The wording of a warning. -/
def message : Warning → String
  | nodeCap .. => "node cap reached, evicting oldest node"
  | malformedTraffic .. => "sustained malformed traffic"
  | queueFull .. => "transport queue full, dropping packets"
  | skippedRecords .. => "skipped unreadable snapshot records"
  | newerSnapshot _ => "snapshot written by a newer version, loading what is readable"
  | unreadableSnapshot _ => "ignoring unreadable snapshot"

/-- What a warning is about, field by field. -/
def members : Warning → Json.Members
  | nodeCap id stored => [("node", id.toJson), ("cap", Json.nat stored)]
  | malformedTraffic count window last =>
    [("count", Json.nat count), ("window_secs", Json.nat window.secs),
     ("last_error", .string last.message)]
  | queueFull capacity dropped sender =>
    [("capacity", Json.nat capacity), ("dropped_total", Json.nat dropped),
     ("from", sender.toJson)]
  | skippedRecords part skipped => [("section", .string part), ("skipped", Json.nat skipped)]
  | newerSnapshot version => [("version", Json.ofUInt32 version)]
  | unreadableSnapshot fault => [("error", .string fault.message)]

/-- The log record of a warning. -/
def toJson (w : Warning) : Json := .object (("message", .string w.message) :: w.members)

end Warning

/-- One entry of a journal. -/
inductive Notice where
  | event (e : Event)
  | warning (w : Warning)
deriving DecidableEq

/-- What a step told, first things first. -/
abbrev Journal := List Notice

namespace Journal

/-- The events of a journal. -/
def events (j : Journal) : List Event :=
  j.filterMap fun
    | .event e => some e
    | .warning _ => none

/-- The warnings of a journal. -/
def warnings (j : Journal) : List Warning :=
  j.filterMap fun
    | .event _ => none
    | .warning w => some w

@[simp] theorem events_nil : events [] = [] := rfl
@[simp] theorem warnings_nil : warnings [] = [] := rfl

@[simp] theorem events_cons_event (e : Event) (j : Journal) :
    events (.event e :: j) = e :: events j := rfl

@[simp] theorem events_cons_warning (w : Warning) (j : Journal) :
    events (.warning w :: j) = events j := rfl

@[simp] theorem events_append (j k : Journal) : events (j ++ k) = events j ++ events k := by
  simp [events]

@[simp] theorem warnings_append (j k : Journal) : warnings (j ++ k) = warnings j ++ warnings k := by
  simp [warnings]

/-- A journal of events alone. -/
def ofEvents (es : List Event) : Journal := es.map .event

@[simp] theorem events_ofEvents (es : List Event) : events (ofEvents es) = es := by
  induction es with
  | nil => rfl
  | cons e es ih =>
    simp only [ofEvents, List.map_cons, events_cons_event] at ih ⊢
    rw [ih]

end Journal

end MeshWatch
