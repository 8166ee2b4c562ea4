import MeshWatch.CommandLine.Execution
import Std.Time.DateTime.Timestamp

/-!
# The program

Gathers what a command may ask for – the files that its words name, the environment, the
time – and prints what the command leaves behind. What a command does is decided by
`CommandLine.execute` alone.
-/

namespace MeshWatch.Program

/-- The variable that names a configuration file. -/
def configVariable : String := "MESHMON_CONFIG"

/-- The present moment. -/
def present : IO Moment := do
  let now ← Std.Time.Timestamp.now
  return ⟨now.toNanosecondsSinceUnixEpoch.val⟩

/-- A client id that is unlikely to be in use. -/
def freshClientId : IO String := do
  let number ← IO.getRandomBytes 4
  return "meshmon-" ++ Bytes.toHex number.data.toList

/-- The contents of a file, if it can be read. -/
def contents? (path : String) : IO (Option Bytes) := do
  try
    let read ← IO.FS.readBinFile path
    return some read.data.toList
  catch _ => return none

/-- What surrounds a command with these words. -/
def surroundings (words : List String) : IO CommandLine.Surroundings := do
  let configPath ← IO.getEnv configVariable
  let paths := CommandLine.pathsOf words ++ configPath.toList
  let files ← paths.mapM fun path => do return (path, ← contents? path)
  return {
    file := fun path => (files.lookup path).join
    configPath := configPath
    now := ← present
    clientId := ← freshClientId }

end MeshWatch.Program

open MeshWatch

/-- Runs the command of the program's words. Tracking a mesh needs a connection to its
broker, which this program does not open. -/
def main (words : List String) : IO UInt32 := do
  let ending := CommandLine.execute (← Program.surroundings words) words
  IO.print ending.output
  IO.eprint ending.errors
  match ending.tracking with
  | some config =>
    IO.eprintln ("Error: cannot connect to " ++ config.mqtt.address)
    return 1
  | none => return ending.exitCode.toUInt32
