import CdmaCall.Address
import CdmaCall.Dtmf.Digit
import CdmaCall.Text.Fold
import CdmaCall.Waiting.Guard

/-!
# Configuration

The settings of the controller in six sections, their standard values, and the checks that a usable
configuration passes.
-/

namespace CdmaCall

/-- The form of log lines. -/
inductive LogFormat where
  | json | compact | full
  deriving DecidableEq, Repr, Inhabited

instance : Named LogFormat where
  all := [.json, .compact, .full]
  name
    | .json => "json"
    | .compact => "compact"
    | .full => "full"

/-- Severity from which on lines are logged. -/
inductive LogLevel where
  | trace | debug | info | warn | error
  deriving DecidableEq, Repr, Inhabited

instance : Named LogLevel where
  all := [.trace, .debug, .info, .warn, .error]
  name
    | .trace => "trace"
    | .debug => "debug"
    | .info => "info"
    | .warn => "warn"
    | .error => "error"

/-- Read a level, whatever its case. -/
def LogLevel.parse (s : String) : Except Error LogLevel :=
  match Named.ofName? (Text.fold s) with
  | some level => .ok level
  | none => .error (.parse "Invalid log level")

/-- The level in capitals. -/
def LogLevel.label : LogLevel → String
  | .trace => "TRACE"
  | .debug => "DEBUG"
  | .info => "INFO"
  | .warn => "WARN"
  | .error => "ERROR"

namespace Config

/-- Section `general`. -/
structure General where
  nodeId : String
  description : String
  deriving DecidableEq, Repr, Inhabited

/-- Section `dtmf`. Without a tone type the platform decides. Lengths are in milliseconds. -/
structure Dtmf where
  toneType : Option ToneType := none
  onLength : UInt32 := 0
  offLength : UInt32 := 0
  deriving DecidableEq, Repr, Inhabited

/-- Section `logging`. Without a directory nothing is written to files. -/
structure Logging where
  level : String
  directory : Option String := none
  filePrefix : String
  format : LogFormat
  deriving DecidableEq, Repr, Inhabited

end Config

/-- The whole configuration. The sections `call_waiting`, `connection` and `emergency` have one
field each; the timeout is in milliseconds. -/
structure Config where
  general : Config.General
  dtmf : Config.Dtmf
  timeout : UInt64
  allowMute : Bool
  numbers : List String
  logging : Config.Logging
  deriving DecidableEq, Repr, Inhabited

namespace Config

/-- What holds unless it is configured otherwise. -/
def standard : Config where
  general := ⟨"cdma-connection-1", "CDMA call signaling controller"⟩
  dtmf := {}
  timeout := .ofNat Guard.standardTimeout
  allowMute := true
  numbers := ["911", "112"]
  logging := { level := "info", filePrefix := "cdma-connection", format := .full }

/-- A number is usable if it is not empty and all of it can be dialled. -/
def usableNumber (n : String) : Bool := !n.isEmpty && Address.dialableNumber n == n

/-- The first problem of a configuration: the timeout, then the numbers, then the log level. -/
def validate (c : Config) : Except Error Unit :=
  if c.timeout == 0 then .error (.parse "Call waiting timeout must be non-zero")
  else match c.numbers.find? (!usableNumber ·) with
  | some n => .error (.parse ("Invalid emergency number: " ++ n))
  | none => match LogLevel.parse c.logging.level with
    | .ok _ => .ok ()
    | .error e => .error e

end Config

/-- Name, version and purpose of the program. -/
structure About where
  name : String
  version : String
  description : String
  deriving DecidableEq, Repr

/-- This program. -/
def about : About where
  name := "cdma-connection"
  version := "0.1.0"
  description := "CDMA call signaling and timing controller: burst DTMF, call waiting timeout, " ++
    "line control and emergency tone handling"

end CdmaCall
