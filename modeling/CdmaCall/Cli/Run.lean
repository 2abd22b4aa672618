import CdmaCall.Cli.Arguments
import CdmaCall.Cli.Log
import CdmaCall.Config.Environment
import CdmaCall.Config.Toml.Document
import CdmaCall.Config.Toml.Writer
import CdmaCall.Text.Quoted

/-!
# Running commands

A command runs on a host. It is given its configuration, makes its log ready, and then does its
work.
-/

namespace CdmaCall

/-- An error by its class and its text in quotes. -/
def Error.tagged (e : Error) : String :=
  match e with
  | config t | io t | serialization t | callState t | invalidState t | parse t | internal t =>
    e.kind ++ "(" ++ Text.quoted t ++ ")"
  | invalidToml r => e.kind ++ "(" ++ Text.quoted ("Invalid TOML: " ++ r) ++ ")"
  | invalidDigit => e.kind

namespace Cli

/-- How a run ended. -/
inductive Status where
  | done
  | failed (e : Error)
  | refused
  deriving DecidableEq, Repr

/-- The number that the program ends with. -/
def Status.exitCode : Status → Nat
  | .done => 0
  | .failed _ => 1
  | .refused => 2

/-- What a run showed, and how it ended. -/
structure Outcome where
  lines : List Line := []
  status : Status := .done
  deriving DecidableEq, Repr

/-- The name and the version of the program. -/
def versionLine : String := "cdma-connection-sim " ++ about.version

/-- What the program can be asked for. -/
def usage : List String :=
  ["Usage: cdma-connection-sim [OPTIONS] <COMMAND>",
    "",
    "Commands:",
    "  simulate SCENARIO [--json]     run " ++
      ", ".intercalate ((Named.all (α := Scenario)).map Named.name),
    "  validate-config                check the configuration",
    "  generate-config [-o FILE]      write the standard configuration",
    "",
    "Options:",
    "  -c, --config FILE              configuration file",
    "  -l, --log-level LEVEL          trace, debug, info, warn or error",
    "      --call-waiting-timeout-ms N",
    "  -h, --help",
    "  -V, --version"]

/-! ### The configuration -/

/-- The configuration of a run: from the file that was asked for, else from the environment, else
the standard one; `text` is what the file holds. Arguments override it, and it has to be valid. -/
def Invocation.load (i : Invocation) (text : Option String) (env : List (String × String)) :
    Except Error Config := do
  let c ← match i.configFile, text with
    | none, _ => .ok ((Config.ofEnvironment env).toOption.getD Config.standard)
    | some path, none => .error (.io ("cannot read " ++ path))
    | some _, some text => Config.ofToml text
  let c := { c with
    timeout := i.timeout.getD c.timeout
    logging := { c.logging with level := i.logLevel.getD c.logging.level } }
  c.validate
  .ok c

/-- The lines about a valid configuration. -/
def configLines (c : Config) : List Line :=
  let toneType := match c.dtmf.toneType with
    | none => "platform default"
    | some .normal => "Normal"
    | some .long => "Long"
  [.plain "✓ Configuration is valid",
    .plain ("  Node ID: " ++ c.general.nodeId),
    .plain ("  DTMF Tone Type: " ++ toneType),
    .plain ("  Call Waiting Timeout: " ++ toString c.timeout.toNat ++ " ms"),
    .plain ("  Mute Allowed: " ++ flagText c.allowMute),
    .plain ("  Emergency Numbers: " ++ ", ".intercalate c.numbers)]

/-! ### Commands -/

/-- Run a scenario. Its heading is shown also if it is refused. -/
def simulation (c : Config) (s : Scenario) (json : Bool) : Outcome :=
  let heading := .plain ("Scenario " ++ s.title)
  match s.play c with
  | .ok ending => { lines := heading :: ending.transcript json }
  | .error e => { lines := [heading], status := .failed e }

section

variable {m : Type → Type} [Monad m] (host : Host m)

/-- The work of a command. -/
def Command.perform (c : Config) : Command → m Outcome
  | .simulate s json => return simulation c s json
  | .validateConfig => return { lines := configLines c }
  | .generateConfig none => return { lines := [.plain Config.standard.toToml] }
  | .generateConfig (some path) => do
    if ← host.writeText path Config.standard.toToml then
      return { lines := [.plain ("✓ Default configuration written to: " ++ path)] }
    else return { status := .failed (.io ("cannot write " ++ path)) }

/-- A command under its settings: the configuration, the log, the work. -/
def Invocation.perform (env : List (String × String)) (i : Invocation) : m Outcome := do
  let text ← match i.configFile with
    | none => pure none
    | some path => host.readText path
  match i.load text env with
  | .error e => return { status := .failed e }
  | .ok c =>
    let logs ← match c.logging.file? host.today with
      | none => pure true
      | some path => host.openUnder path
    if logs then i.command.perform host c
    else return { status := .failed (.internal "cannot open the log file") }

/-- The whole program. -/
def run (env : List (String × String)) (args : List String) : m Outcome :=
  match parse env args with
  | .ok i => i.perform host env
  | .error .help => return { lines := usage.map .plain }
  | .error .version => return { lines := [.plain versionLine] }
  | .error .refused => return { status := .refused }

end

end Cli

end CdmaCall
