import MeshWatch.Fault

/-!
# Topics

Gateways publish under topics that say what a body is: a root, region levels, the
version marker, a kind, a channel and the gateway. An older layout has no marker
and no kind. This file reads topics, and builds the topics that a session
subscribes to and publishes on out of a configured root and channel.

- `decode_nil`: nothing is no topic.
- `checkComponent_ok_ne_empty`: an accepted component is not empty.
-/

namespace MeshWatch

/-- What a topic carries. -/
inductive TopicKind where
  | protobuf
  | json
  | status
  | map
  | legacy
deriving DecidableEq, Repr

namespace TopicKind

/-- The label of a kind. -/
def name : TopicKind → String
  | .protobuf => "protobuf"
  | .json => "json"
  | .status => "status"
  | .map => "map"
  | .legacy => "legacy"

/-- The kind that a level stands for. -/
def ofLevel? (level : String) : Option TopicKind :=
  if level = "e" ∨ level = "c" then some .protobuf
  else if level = "json" then some .json
  else if level = "stat" then some .status
  else if level = "map" then some .map
  else none

end TopicKind

/-- How a body is encoded. -/
inductive BodyFormat where
  | json
  | binary
deriving DecidableEq, Repr

namespace BodyFormat

def name : BodyFormat → String
  | .json => "json"
  | .binary => "binary"

/-- A guess by the first byte that is not white space. -/
def sniff (body : Bytes) : BodyFormat :=
  match body.dropWhile Bytes.isAsciiBlank with
  | b :: _ => if b = 0x7b then .json else .binary
  | [] => .binary

end BodyFormat

/-- A topic that was understood. -/
structure Topic where
  root : String
  region : Option String
  kind : TopicKind
  channel : Option String
  gateway : Option NodeId
  /-- Levels after the gateway. -/
  extra : List String
deriving DecidableEq, Repr

namespace Topic

/-- The level that marks the current layout. -/
def versionLevel : String := "2"

/-- The levels of a topic. -/
def levels (topic : String) : List String :=
  (Text.segments '/' topic.toList).map String.ofList

/-- The encoding of a body published on the topic. -/
def format (t : Topic) (body : Bytes) : BodyFormat :=
  match t.kind with
  | .json => .json
  | .protobuf => .binary
  | _ => BodyFormat.sniff body

/-- Whether bodies are mesh packets. -/
def carriesPackets (t : Topic) : Bool :=
  t.kind == .protobuf || t.kind == .json || t.kind == .legacy

/-- A gateway level starts with an exclamation mark. -/
def gatewayOf? (level : Option String) : Option NodeId :=
  match level with
  | some s => if s.toList.head? = some '!' then NodeId.ofText? s else none
  | none => none

/-- The current layout, with the marker at level `v` and a kind after it. -/
def ofMarker (topic : String) (ls : List String) (v : Nat) (kind : TopicKind) :
    Except DecodeFault Topic :=
  let region := if 2 ≤ v then ls[v - 1]? else none
  let rest := ls.drop (v + 2)
  let root := ls.headD ""
  match kind with
  | .status => .ok ⟨root, region, kind, none, gatewayOf? rest[0]?, rest.drop 1⟩
  | .map => .ok ⟨root, region, kind, none, gatewayOf? rest[0]?, rest.drop 1⟩
  | _ =>
    match rest[0]? with
    | some channel => .ok ⟨root, region, kind, some channel, gatewayOf? rest[1]?, rest.drop 2⟩
    | none => .error (.topic topic .missingChannel)

/-- The layout without a marker: root, region, gateway, then a channel or `stat`. -/
def ofLegacy (topic : String) (ls : List String) : Except DecodeFault Topic :=
  match ls with
  | root :: region :: gateway :: last :: extra =>
    match gatewayOf? (some gateway) with
    | some id =>
      if last = "stat" then .ok ⟨root, some region, .status, none, some id, extra⟩
      else .ok ⟨root, some region, .legacy, some last, some id, extra⟩
    | none => .error (.topic topic .unrecognised)
  | _ => .error (.topic topic .unrecognised)

/-- The layout of a list of levels: that of the first marker, when it is not the
root and a kind follows it, else the one without a marker. -/
def ofLevels (topic : String) (ls : List String) : Except DecodeFault Topic :=
  let v := ls.idxOf versionLevel
  match ls[v + 1]?.bind TopicKind.ofLevel? with
  | some kind => if 1 ≤ v then ofMarker topic ls v kind else ofLegacy topic ls
  | none => ofLegacy topic ls

/-- Reads a topic. -/
def decode (topic : String) : Except DecodeFault Topic :=
  let cs := topic.toList
  let ls := levels topic
  if cs.isEmpty then .error (.topic topic .empty)
  else if cs.any Text.isControl then .error (.topic topic .control)
  else if cs.any fun c => c == '#' || c == '+' then .error (.topic topic .wildcard)
  else if ls.length < 3 then .error (.topic topic .tooFewSegments)
  else if ls.any String.isEmpty then .error (.topic topic .emptySegment)
  else ofLevels topic ls

theorem decode_nil : decode "" = .error (.topic "" .empty) := rfl

end Topic

/-! ## Building topics -/

/-- Why a value cannot be part of a topic. -/
inductive ComponentFault where
  | empty
  | control (c : Char)
  | wildcard
  | emptyLevel
  | severalLevels
deriving DecidableEq, Repr

def ComponentFault.reason : ComponentFault → String
  | .empty => "empty"
  | .control c => "control character " ++ Text.quotedChar c
  | .wildcard => "wildcard characters are not allowed"
  | .emptyLevel => "empty topic level"
  | .severalLevels => "must be a single topic level"

namespace Topic

/-- A separator at an end, or two in a row: nothing stands beside one of them. -/
def hasEmptyLevel (cs : List Char) : Bool :=
  cs.head? == some '/' || cs.getLast? == some '/' || (cs.zip cs.tail).contains ('/', '/')

/-- Refuses a value that would garble a topic or widen a subscription. -/
def checkComponent (value : String) (allowSlash : Bool) : Except ComponentFault Unit :=
  let cs := value.toList
  if cs.isEmpty then .error .empty
  else
    match cs.find? Text.isControl with
    | some c => .error (.control c)
    | none =>
      if cs.contains '#' || cs.contains '+' then .error .wildcard
      else if hasEmptyLevel cs then .error .emptyLevel
      else if !allowSlash && cs.contains '/' then .error .severalLevels
      else .ok ()

theorem checkComponent_ok_ne_empty {value : String} {allowSlash : Bool}
    (h : checkComponent value allowSlash = .ok ()) : value.toList ≠ [] := by
  intro he
  rw [checkComponent, he] at h
  simp at h

/-- A component that cannot be part of a topic, and why. -/
structure ComponentError where
  component : String
  fault : ComponentFault
deriving DecidableEq, Repr

/-- Checks a root and a channel. -/
def checkNames (root channel : String) : Except ComponentError Unit :=
  match checkComponent root true with
  | .error fault => .error ⟨root, fault⟩
  | .ok () =>
    match checkComponent channel false with
    | .error fault => .error ⟨channel, fault⟩
    | .ok () => .ok ()

/-- The filters that cover one channel under a root: packets in both encodings and
gateway status. -/
def subscriptions (root channel : String) : Except ComponentError (List String) :=
  (checkNames root channel).map fun () =>
    [root ++ "/" ++ versionLevel ++ "/e/" ++ channel ++ "/#",
     root ++ "/" ++ versionLevel ++ "/json/" ++ channel ++ "/#",
     root ++ "/" ++ versionLevel ++ "/stat/#"]

/-- The topic on which a node publishes text. -/
def publication (root channel : String) (id : NodeId) : Except ComponentError String :=
  (checkNames root channel).map fun () =>
    root ++ "/" ++ versionLevel ++ "/json/" ++ channel ++ "/" ++ id.text

end Topic

end MeshWatch
