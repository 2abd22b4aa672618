import CdmaCall.Config.Basic

/-!
# Writing a configuration as TOML

One section after the other with an empty line between them, one field a line, and one number a
line in the list of emergency numbers. Optional fields that are unset are left out.
-/

namespace CdmaCall

namespace Config

namespace TomlWriter

/-- A digit of an escape. -/
def hexDigit (n : Nat) : Char := Char.ofNat (if n < 10 then 48 + n else 55 + n)

/-- A character inside double quotes. -/
def escape (c : Char) : List Char :=
  if c == '"' || c == '\\' then ['\\', c]
  else if c == '\n' then ['\\', 'n']
  else if c == '\t' then ['\\', 't']
  else if c == '\r' then ['\\', 'r']
  else if c < ' ' || c == '\x7f' then
    ['\\', 'u', '0', '0', hexDigit (c.toNat / 16), hexDigit (c.toNat % 16)]
  else [c]

/-- A text in double quotes. -/
def quote (s : String) : String := "\"" ++ String.ofList (s.toList.flatMap escape) ++ "\""

/-- A line with a field. -/
def field (name value : String) : String := name ++ " = " ++ value ++ "\n"

/-- A line with an optional field. -/
def field? (name : String) : Option String → String
  | none => ""
  | some v => field name v

/-- A list of texts, one a line. -/
def texts : List String → String
  | [] => "[]"
  | xs => "[\n" ++ String.join (xs.map fun x => "    " ++ quote x ++ ",\n") ++ "]"

/-- A section. -/
def block (name : String) (fields : List String) : String :=
  "[" ++ name ++ "]\n" ++ String.join fields

end TomlWriter

open TomlWriter in
/-- The TOML document of a configuration. -/
def toToml (c : Config) : String :=
  "\n".intercalate [
    block "general" [
      field "node_id" (quote c.general.nodeId),
      field "description" (quote c.general.description)],
    block "dtmf" [
      field? "tone_type" (c.dtmf.toneType.map fun t => quote (Named.name t)),
      field "burst_on_length_ms" (toString c.dtmf.onLength.toNat),
      field "burst_off_length_ms" (toString c.dtmf.offLength.toNat)],
    block "call_waiting" [field "timeout_ms" (toString c.timeout.toNat)],
    block "connection" [field "allow_mute" (if c.allowMute then "true" else "false")],
    block "emergency" [field "numbers" (texts c.numbers)],
    block "logging" [
      field "level" (quote c.logging.level),
      field? "directory" (c.logging.directory.map quote),
      field "file_prefix" (quote c.logging.filePrefix),
      field "format" (quote (Named.name c.logging.format))]]

end Config

end CdmaCall
