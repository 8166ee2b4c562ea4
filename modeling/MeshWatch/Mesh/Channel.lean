import MeshWatch.Json.Record

/-!
# Channels

A mesh has eight channel slots. The first one carries the configured channel, and
a slot that is not in use is given to the first channel name without one.
-/

namespace MeshWatch

/-- How a slot is used. -/
inductive ChannelRole where
  | primary
  | secondary
  | disabled
deriving DecidableEq, Repr, Inhabited

namespace ChannelRole

/-- The written name of a role. -/
def name : ChannelRole → String
  | primary => "primary"
  | secondary => "secondary"
  | disabled => "disabled"

/-- The role of a name. -/
def ofName? (s : String) : Option ChannelRole :=
  [primary, secondary, disabled].find? fun r => r.name == s

def ofJson? (j : Json) : Option ChannelRole := (j.label?).bind ofName?

end ChannelRole

/-- One channel slot. -/
structure Channel where
  index : UInt32
  name : String
  role : ChannelRole
  uplinkEnabled : Bool
  downlinkEnabled : Bool
  /-- How many messages were received on it, in 64 bits. -/
  messageCount : Nat := 0
  lastActivity : Option Moment := none
deriving DecidableEq, Repr, Inhabited

namespace Channel

/-- How many slots there are. -/
def slots : UInt32 := 8

/-- A slot on which nothing was received yet. -/
def new (index : UInt32) (name : String) (role : ChannelRole) : Channel :=
  { index := index
    name := name
    role := role
    uplinkEnabled := role != .disabled
    downlinkEnabled := false }

/-- The slot given to a channel. -/
def assigned (c : Channel) (name : String) : Channel :=
  { c with name := name, role := .secondary, uplinkEnabled := true }

/-- The slot after something was received on it. -/
def touched (c : Channel) (message : Bool) (now : Moment) : Channel :=
  { c with
    lastActivity := some now
    messageCount := if message then (c.messageCount + 1) % UInt64.size else c.messageCount }

def toJson (c : Channel) : Json :=
  .object
    [("index", Json.ofUInt32 c.index),
     ("name", .string c.name),
     ("role", .string c.role.name),
     ("uplink_enabled", .bool c.uplinkEnabled),
     ("downlink_enabled", .bool c.downlinkEnabled),
     ("message_count", Json.nat c.messageCount),
     ("last_activity", Json.option Json.ofMoment c.lastActivity)]

/-- The fields in order. -/
def fieldNames : List String :=
  ["index", "name", "role", "uplink_enabled", "downlink_enabled", "message_count", "last_activity"]

def ofJson? (j : Json) : Option Channel := do
  let ms ← j.recordMembers? fieldNames 5
  return {
    index := ← Json.required ms "index" Json.readUInt32
    name := ← Json.required ms "name" Json.asString?
    role := ← Json.required ms "role" ChannelRole.ofJson?
    uplinkEnabled := ← Json.required ms "uplink_enabled" Json.asBool?
    downlinkEnabled := ← Json.required ms "downlink_enabled" Json.asBool?
    messageCount := ← Json.defaulted ms "message_count" 0 (Json.readNat UInt64.size)
    lastActivity := ← Json.optional ms "last_activity" Json.readMoment }

end Channel

end MeshWatch
