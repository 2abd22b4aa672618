import CdmaCall.Cli.Run
import Std.Time.Format

/-!
# The program

Runs commands on the machine: files are real, time is not.
-/

open CdmaCall

namespace CdmaCall.Main

/-- The names of the variables that hold settings. -/
def variableNames : List String :=
  [Cli.timeoutVariable] ++
  ["GENERAL__NODE_ID", "GENERAL__DESCRIPTION", "DTMF__TONE_TYPE", "DTMF__BURST_ON_LENGTH_MS",
    "DTMF__BURST_OFF_LENGTH_MS", "CALL_WAITING__TIMEOUT_MS", "CONNECTION__ALLOW_MUTE",
    "EMERGENCY__NUMBERS", "LOGGING__LEVEL", "LOGGING__DIRECTORY", "LOGGING__FILE_PREFIX",
    "LOGGING__FORMAT"].map ("CDMA__" ++ ·)

/-- The variables that are set. -/
def environment : IO (List (String × String)) :=
  variableNames.filterMapM fun name => do return (← IO.getEnv name).map fun v => (name, v)

/-- Whether something can be done. -/
def succeeds (act : IO Unit) : IO Bool := try act; pure true catch _ => pure false

/-- What stands in the way of an action. -/
def obstacleOf : IO.Error → Cli.Obstacle
  | .noFileOrDirectory .. => .missing
  | _ => .blocked

/-- The machine, on a day. -/
def host (today : String) : Cli.Host IO where
  today := today
  readText path := try return some (← IO.FS.readFile path) catch _ => return none
  writeText path text := succeeds (IO.FS.writeFile path text)
  openText path := succeeds do
    let _ ← IO.FS.Handle.mk path .append
  makeDirectory path :=
    try return .ok (← IO.FS.createDir path) catch e => return .error (obstacleOf e)
  isDirectory path := do return (← (← IO.currentDir) / path |>.isDir)

end CdmaCall.Main

/-- Run the program. -/
def main (args : List String) : IO UInt32 := do
  let today := Std.Time.PlainDate.ofEpochDay (← Std.Time.Timestamp.now).toDaysSinceUnixEpoch
  let outcome ← Cli.run (Main.host (toString today)) (← Main.environment) args
  for line in outcome.lines do IO.println line.text
  match outcome.status with
  | .done => pure ()
  | .failed e => IO.eprintln ("Error: " ++ e.tagged)
  | .refused => for line in Cli.usage do IO.eprintln line
  return .ofNat outcome.status.exitCode
