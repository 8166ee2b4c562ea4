import MeshWatch.Event
import MeshWatch.Json.Reader
import MeshWatch.Json.Writer
import MeshWatch.Mesh.State

/-!
# Snapshots

The document in which a mesh is stored between runs. Reading it is lenient: records
that do not fit are skipped one by one, and whatever else is missing counts as empty.

- `readRecords_nil`: nothing to read, nothing skipped.
- `restoreSnapshot_missing`: without a document the mesh stays as it is.
-/

namespace MeshWatch

/-- A stored mesh. -/
structure Snapshot where
  version : UInt32
  /-- When it was taken; a document may leave that open. -/
  savedAt : Option Moment
  state : MeshState
deriving DecidableEq

namespace Snapshot

/-- The version of the documents written here. -/
def currentVersion : UInt32 := 1

/-- The snapshot of a mesh. -/
def ofMesh (m : Mesh) (now : Moment) : Snapshot := ⟨currentVersion, some now, m.exported⟩

def toJson (s : Snapshot) : Json :=
  .object
    ([("version", Json.ofUInt32 s.version), ("saved_at", Json.option Json.ofMoment s.savedAt)]
      ++ s.state.members)

/-- The document of a snapshot. -/
def document (s : Snapshot) : String := s.toJson.pretty

/-- The readable records among several values, and how many are not. -/
def readRecords {α : Type} (read : Json → Option α) (items : List Json) : List α × Nat :=
  (items.filterMap read, (items.filter fun j => (read j).isNone).length)

theorem readRecords_nil {α : Type} (read : Json → Option α) : readRecords read [] = ([], 0) := rfl

/-- The readable records of one part of a document. -/
def readPart {α : Type} (doc : Json) (part : String) (read : Json → Option α) : List α × Journal :=
  let (records, skipped) := readRecords read (((doc.member? part).bind Json.asArray?).getD [])
  (records, if skipped = 0 then [] else [.warning (.skippedRecords part skipped)])

/-- The version that a document gives. -/
def readVersion (doc : Json) : UInt32 :=
  match (doc.member? "version").bind Json.asUnsigned? with
  | some v => UInt32.ofNat v
  | none => currentVersion

/-- The snapshot of a document that was parsed. -/
def ofJson (doc : Json) : Snapshot × Journal :=
  let version := readVersion doc
  let newer := if currentVersion < version then [.warning (.newerSnapshot version)] else []
  let (nodes, told1) := readPart doc "nodes" Node.ofJson?
  let (channels, told2) := readPart doc "channels" Channel.ofJson?
  let (routes, told3) := readPart doc "routes" Route.ofJson?
  let (messages, told4) := readPart doc "messages" Message.ofJson?
  ({ version := version
     savedAt := (doc.member? "saved_at").bind Json.readMoment
     state := { nodes := nodes, channels := channels, routes := routes, messages := messages } },
   newer ++ told1 ++ told2 ++ told3 ++ told4)

/-- Reads a document, which is absent when there is no file. -/
def read (body : Option Bytes) : Except SnapshotFault (Snapshot × Journal) :=
  match body with
  | none => .error .missing
  | some bs =>
    match Json.readBytes? bs with
    | none => .error .format
    | some doc => .ok (ofJson doc)

end Snapshot

/-- Puts the snapshot of a document into a mesh, and counts the nodes that were read.
A missing document is normal, and an unreadable one is passed over with a warning. -/
def Mesh.restoreSnapshot (m : Mesh) (body : Option Bytes) : Mesh × Journal × Nat :=
  match Snapshot.read body with
  | .ok (s, told) => (m.restore s.state, told, s.state.nodes.length)
  | .error .missing => (m, [], 0)
  | .error fault => (m, [.warning (.unreadableSnapshot fault)], 0)

theorem restoreSnapshot_missing (m : Mesh) : m.restoreSnapshot none = (m, [], 0) := rfl

end MeshWatch
