import MeshWatch.Mesh.Apply
import MeshWatch.Receiver
import MeshWatch.Rejections
import MeshWatch.Stats

/-!
# The monitor

Takes broker messages in, applies their packets to the mesh and counts what became of
each. Nothing that is wrong with a message goes any further than the counters.

- `receive_counts`: every message is counted as received once.
- `mesh_reject`: a refused message leaves the mesh alone.
-/

namespace MeshWatch

/-- What became of a message. -/
inductive Outcome where
  | applied
  /-- Only the header could be read, and was applied. -/
  | headerOnly
  /-- The packet had been applied before. -/
  | duplicate
  /-- The status of a gateway. -/
  | status
  /-- Nothing that is tracked. -/
  | ignored
  | rejected (fault : DecodeFault)
deriving DecidableEq, Repr

/-- A mesh and what is needed to feed it. -/
structure Monitor where
  mesh : Mesh
  receiver : Receiver := {}
  stats : Stats := {}
  rejections : RejectionWindow := .standard

namespace Monitor

/-- Applies a packet and counts it. -/
def applyPacket (m : Monitor) (p : Packet) (now : Moment) : Monitor × Journal × Outcome :=
  let (mesh, told, report) := m.mesh.apply p now
  if report.duplicate then
    ({ m with mesh := mesh, stats := m.stats.duplicate }, told, .duplicate)
  else
    let stats := m.stats.applied p.isHeaderOnly report.telemetryUpdated report.positionUpdated
      report.messageAdded
    ({ m with mesh := mesh, stats := stats }, told,
     if p.isHeaderOnly then .headerOnly else .applied)

/-- Counts a refused message, and warns when there are too many of them. -/
def reject (m : Monitor) (fault : DecodeFault) (tick : Tick) : Monitor × Journal × Outcome :=
  let (count, rejections) := m.rejections.record tick
  let told := count.toList.map fun n =>
    Notice.warning (.malformedTraffic n rejections.window fault)
  ({ m with stats := m.stats.rejected, rejections := rejections }, told, .rejected fault)

/-- Whether a status says that the gateway is online. -/
def saysOnline (body : Bytes) : Bool :=
  match Bytes.toText? body with
  | some s => Text.sameIgnoringCase (Text.trim s) "online"
  | none => false

/-- A gateway that says it is online was heard. -/
def takeStatus (m : Monitor) (t : Topic) (body : Bytes) (now : Moment) :
    Monitor × Journal × Outcome :=
  match t.gateway with
  | some id =>
    if saysOnline body then
      let (mesh, told, _) := m.mesh.updateNode id {} now
      ({ m with mesh := mesh }, told, .status)
    else (m, [], .status)
  | none => (m, [], .status)

/-- What is done with a message after it was counted as received. -/
def dispatch (m : Monitor) (topic : String) (body : Bytes) (now : Moment) (tick : Tick) :
    Monitor × Journal × Outcome :=
  match Topic.decode topic with
  | .error fault => m.reject fault tick
  | .ok t =>
    match t.kind with
    | .status => m.takeStatus t body now
    | .map => (m, [], .ignored)
    | _ =>
      match m.receiver.packetOfBody t body with
      | .error fault => m.reject fault tick
      | .ok p => m.applyPacket p now

/-- Takes in one broker message. -/
def receive (m : Monitor) (topic : String) (body : Bytes) (now : Moment) (tick : Tick) :
    Monitor × Journal × Outcome :=
  { m with stats := m.stats.received now }.dispatch topic body now tick

theorem mesh_reject (m : Monitor) (fault : DecodeFault) (tick : Tick) :
    (m.reject fault tick).1.mesh = m.mesh := rfl

theorem messagesReceived_applyPacket (m : Monitor) (p : Packet) (now : Moment) :
    (m.applyPacket p now).1.stats.messagesReceived = m.stats.messagesReceived := by
  simp only [applyPacket]
  split <;> rfl

theorem stats_takeStatus (m : Monitor) (t : Topic) (body : Bytes) (now : Moment) :
    (m.takeStatus t body now).1.stats = m.stats := by
  simp only [takeStatus]
  split
  · split <;> rfl
  · rfl

theorem messagesReceived_dispatch (m : Monitor) (topic : String) (body : Bytes) (now : Moment)
    (tick : Tick) :
    (m.dispatch topic body now tick).1.stats.messagesReceived = m.stats.messagesReceived := by
  simp only [dispatch]
  split
  · rfl
  · split
    · rw [stats_takeStatus]
    · rfl
    · split
      · rfl
      · rw [messagesReceived_applyPacket]

theorem receive_counts (m : Monitor) (topic : String) (body : Bytes) (now : Moment) (tick : Tick) :
    (m.receive topic body now tick).1.stats.messagesReceived = m.stats.messagesReceived + 1 := by
  rw [receive, messagesReceived_dispatch, Stats.received]

end Monitor

end MeshWatch
