import MeshWatch.Json.Record

/-!
# Counters

How many messages came in and what became of them. The counters are numbers without a bound;
where 64 bits carry them, they say the same until one of them was raised 2^64 times.
-/

namespace MeshWatch

/-- The counters of a run. -/
structure Stats where
  /-- Broker messages of any kind. -/
  messagesReceived : Nat := 0
  /-- Packets that were read in full and applied. -/
  messagesDecoded : Nat := 0
  /-- Messages that were refused. -/
  messagesRejected : Nat := 0
  /-- Packets that had been applied before. -/
  duplicatesDropped : Nat := 0
  /-- Packets of which only the header was applied. -/
  headerOnly : Nat := 0
  /-- Lost connections that were tried again. -/
  reconnections : Nat := 0
  telemetryUpdates : Nat := 0
  positionUpdates : Nat := 0
  textMessages : Nat := 0
  /-- Packets that found the queue full. -/
  queueDrops : Nat := 0
  lastMessageTime : Option Moment := none
deriving DecidableEq, Repr, Inhabited

namespace Stats

/-- A broker message came in. -/
def received (s : Stats) (now : Moment) : Stats :=
  { s with messagesReceived := s.messagesReceived + 1, lastMessageTime := some now }

def rejected (s : Stats) : Stats := { s with messagesRejected := s.messagesRejected + 1 }

def duplicate (s : Stats) : Stats := { s with duplicatesDropped := s.duplicatesDropped + 1 }

def reconnected (s : Stats) : Stats := { s with reconnections := s.reconnections + 1 }

def queueDrop (s : Stats) : Stats := { s with queueDrops := s.queueDrops + 1 }

/-- One more if a condition holds. -/
def countIf (b : Bool) (n : Nat) : Nat := if b then n + 1 else n

/-- A packet was applied. -/
def applied (s : Stats) (headerOnly telemetry position text : Bool) : Stats :=
  { s with
    headerOnly := countIf headerOnly s.headerOnly
    messagesDecoded := countIf (!headerOnly) s.messagesDecoded
    telemetryUpdates := countIf telemetry s.telemetryUpdates
    positionUpdates := countIf position s.positionUpdates
    textMessages := countIf text s.textMessages }

def toJson (s : Stats) : Json :=
  .object
    [("messages_received", Json.nat s.messagesReceived),
     ("messages_decoded", Json.nat s.messagesDecoded),
     ("messages_rejected", Json.nat s.messagesRejected),
     ("duplicates_dropped", Json.nat s.duplicatesDropped),
     ("header_only", Json.nat s.headerOnly),
     ("reconnections", Json.nat s.reconnections),
     ("telemetry_updates", Json.nat s.telemetryUpdates),
     ("position_updates", Json.nat s.positionUpdates),
     ("text_messages", Json.nat s.textMessages),
     ("queue_drops", Json.nat s.queueDrops),
     ("last_message_time", Json.option Json.ofMoment s.lastMessageTime)]

end Stats

end MeshWatch
