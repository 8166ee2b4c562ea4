import MeshWatch.CommandLine.Arguments
import MeshWatch.Config.Document
import MeshWatch.Mesh.Health
import MeshWatch.Receiver
import MeshWatch.Snapshot

/-!
# Running commands

What a command prints, given the files that it reads. A command that fails tells in
which step, and why.

- `execute_misuse`: a misuse prints nothing and has its own exit code.
-/

namespace MeshWatch.CommandLine

/-- The surroundings of a command. -/
structure Surroundings where
  /-- The contents of a file, if it can be read. -/
  file : String → Option Bytes
  /-- The configuration file named by the environment. -/
  configPath : Option String
  now : Moment
  /-- A client id for a configuration without one. -/
  clientId : String
  /-- How hash tables are walked. -/
  orders : HashOrders := {}

/-- The step in which a command failed. -/
inductive Failure where
  | loadConfig (path : String) (fault : ConfigFault)
  | defaultConfig (fault : ConfigFault)
  | noConfig
  | badHex
  | readBody (path : String)
  | noBody
  | key (fault : CryptoFault)
  | decodeMessage (topic : String) (fault : DecodeFault)
  | readSnapshot (path : String) (fault : SnapshotFault)
deriving DecidableEq, Repr

namespace Failure

/-- What could not be done. -/
def message : Failure → String
  | loadConfig path _ => "failed to load config " ++ path
  | defaultConfig _ => "default config is invalid"
  | noConfig => "no config file: pass --config or set MESHMON_CONFIG"
  | badHex => "--hex is not valid hex"
  | readBody path => "failed to read " ++ path
  | noBody => "one of --hex or --file is required"
  | key _ => "invalid encryption key"
  | decodeMessage topic _ => "failed to decode message on " ++ topic
  | readSnapshot path _ => "failed to read snapshot " ++ path

/-- Why, where the step has a cause of its own. -/
def cause? : Failure → Option String
  | loadConfig _ fault => some fault.message
  | defaultConfig fault => some fault.message
  | key fault => some fault.message
  | decodeMessage _ fault => some fault.message
  | readSnapshot _ fault => some fault.message
  | _ => none

/-- The error report. -/
def report (f : Failure) : String :=
  "Error: " ++ f.message ++ "\n" ++
    match f.cause? with
    | some cause => "\nCaused by:\n    " ++ cause ++ "\n"
    | none => ""

end Failure

/-- What a command does in the end. -/
inductive Effect where
  /-- Prints a text. -/
  | prints (text : String)
  /-- Goes on to track the mesh with these settings. -/
  | tracks (config : Config)
deriving DecidableEq, Repr

/-- The settings of a file. -/
def loadConfig (s : Surroundings) (path : String) : Except Failure Config :=
  match (s.file path).bind Bytes.toText? with
  | none => .error (.loadConfig path (.unreadable path))
  | some text =>
    match Config.read text s.clientId with
    | .ok c => .ok c
    | .error fault => .error (.loadConfig path fault)

/-- The settings of the file that was named, by an argument or by the environment, or
the default settings. -/
def settings (s : Surroundings) (explicit : Option String) : Except Failure Config :=
  match explicit <|> s.configPath with
  | some path => loadConfig s path
  | none =>
    match Config.read "" s.clientId with
    | .ok c => .ok c
    | .error fault => .error (.defaultConfig fault)

/-- Shows the settings of a file. -/
def checkConfig (s : Surroundings) (explicit : Option String) : Except Failure Effect :=
  match explicit <|> s.configPath with
  | none => .error .noConfig
  | some path =>
    (loadConfig s path).map fun c => .prints (path ++ " is valid\n\n" ++ c.document)

/-- The body of a message. -/
def bodyOf (s : Surroundings) (hex file : Option String) : Except Failure Bytes :=
  match hex, file with
  | some text, _ =>
    match Bytes.ofHexDigits? (text.toList.filter fun c => !Text.isBlank c) with
    | some bs => .ok bs
    | none => .error .badHex
  | none, some path =>
    match s.file path with
    | some bs => .ok bs
    | none => .error (.readBody path)
  | none, none => .error .noBody

/-- Reads one message under some settings. -/
def decodeMessage (s : Surroundings) (c : Config) (topic : String) (hex file : Option String) :
    Except Failure Effect :=
  match bodyOf s hex file with
  | .error failure => .error failure
  | .ok body =>
    match c.mqtt.channelKey with
    | .error fault => .error (.key fault)
    | .ok key =>
      match ({ key := key } : Receiver).packetOf topic body with
      | .error fault => .error (.decodeMessage topic fault)
      | .ok p => .ok (.prints (p.toJson.pretty ++ "\n"))

/-- Shows the health of a stored mesh. -/
def showHealth (s : Surroundings) (path : String) : Except Failure Effect :=
  match Snapshot.read (s.file path) with
  | .error fault => .error (.readSnapshot path fault)
  | .ok (snapshot, _) =>
    let m := (Mesh.new Limits.standard "LongFast" s.orders).restore snapshot.state
    let report : Json.Members :=
      (m.health s.now).members ++
        [("channels", Json.nat m.channels.size), ("messages", Json.nat m.messages.length)]
    .ok (.prints ((Json.object report).pretty ++ "\n"))

/-- Runs a command. -/
def perform (s : Surroundings) (i : Invocation) : Except Failure Effect :=
  match i.command with
  | .run => (settings s i.config).map .tracks
  | .checkConfig => checkConfig s i.config
  | .decode topic hex file =>
    match settings s i.config with
    | .error failure => .error failure
    | .ok c => decodeMessage s c topic hex file
  | .health path => showHealth s path

/-- What a run of the program leaves behind. -/
structure Ending where
  exitCode : UInt8
  output : String := ""
  errors : String := ""
  /-- The settings with which the mesh is to be tracked. -/
  tracking : Option Config := none
deriving DecidableEq, Repr

/-- Runs the program on the words after its name. -/
def execute (s : Surroundings) (words : List String) : Ending :=
  match parse words with
  | .error .misuse => { exitCode := 2, errors := Level.top.help }
  | .error (.shown text) => { exitCode := 0, output := text }
  | .ok i =>
    match perform s i with
    | .ok (.prints text) => { exitCode := 0, output := text }
    | .ok (.tracks c) => { exitCode := 0, tracking := some c }
    | .error failure => { exitCode := 1, errors := failure.report }

theorem execute_misuse {s : Surroundings} {words : List String} (h : parse words = .error .misuse) :
    (execute s words).exitCode = 2 ∧ (execute s words).output = "" := by simp [execute, h]

/-- The files that may have to be read for some words. -/
def pathsOf (words : List String) : List String :=
  match parse words with
  | .error _ => []
  | .ok i =>
    i.config.toList ++
      match i.command with
      | .decode _ _ file => file.toList
      | .health path => [path]
      | _ => []

end MeshWatch.CommandLine
