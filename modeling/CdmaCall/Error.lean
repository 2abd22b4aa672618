/-!
# Errors

The ways in which a request can fail, with the kind and the wording that callers see.
-/

namespace CdmaCall

/-- Why a request failed. A refused digit carries no text: it may be part of a password. -/
inductive Error where
  | config (text : String)
  | io (text : String)
  | serialization (text : String)
  | callState (text : String)
  | invalidState (text : String)
  | invalidDigit
  | parse (text : String)
  | invalidToml (reason : String)
  | internal (text : String)
  deriving DecidableEq, Repr, Inhabited

namespace Error

/-- The class of an error. A document that is no readable TOML is a parse error. -/
def kind : Error → String
  | config _ => "Config"
  | io _ => "Io"
  | serialization _ => "Serialization"
  | callState _ => "CallState"
  | invalidState _ => "InvalidState"
  | invalidDigit => "InvalidDigit"
  | parse _ => "Parse"
  | invalidToml _ => "Parse"
  | internal _ => "Internal"

/-- The sentence shown to people. -/
def message : Error → String
  | config t => "Configuration error: " ++ t
  | io t => "I/O error: " ++ t
  | serialization t => "Serialization error: " ++ t
  | callState t => "Call state error: " ++ t
  | invalidState t => "Invalid state: " ++ t
  | invalidDigit => "Invalid DTMF digit"
  | parse t => "Parse error: " ++ t
  | invalidToml r => "Parse error: Invalid TOML: " ++ r
  | internal t => "Internal error: " ++ t

end Error

end CdmaCall
