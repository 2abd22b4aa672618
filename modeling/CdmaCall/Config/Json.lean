import CdmaCall.Config.Reader

/-!
# Configuration as JSON

Nothing is converted: a text is a text, a number an integer in range, and an enumeration has its
exact name (or a table with that name and `null`). `null` leaves an optional field unset. A list
for a section may leave out fields at its end that have a value to fall back on, but holds nothing
more than the fields.
-/

namespace CdmaCall

namespace Config

/-- How JSON writes fields. -/
def json : Dialect where
  text
    | .text s => some s
    | _ => none
  natural limit
    | .int i => if 0 ≤ i ∧ i ≤ limit then some i.toNat else none
    | _ => none
  flag
    | .bool b => some b
    | _ => none
  list := Value.items?
  choice
    | .text s => some s
    | .table [(s, .null)] => some s
    | _ => none
  sameName := (· == ·)
  isUnset
    | .null => true
    | _ => false
  fields names
    | .table fields => some (fields.lookup ·)
    | .list items => if items.length ≤ names.length then some (fieldsInOrder names items) else none
    | _ => none

/-- Read a configuration from a JSON value. -/
def ofJson (v : Value) : Except Error Config :=
  match json.config v with
  | some c => .ok c
  | none => .error (.serialization "the value is no configuration")

/-- A field, unless it is unset. -/
def optionalField {α : Type} (name : String) (write : α → Value) : Option α → List (String × Value)
  | none => []
  | some a => [(name, write a)]

/-- The written name of a value of an enumeration. -/
def nameValue {α : Type} [Named α] (a : α) : Value := .text (Named.name a)

/-- The JSON value of a configuration. Optional fields that are unset are left out. -/
def toJson (c : Config) : Value :=
  .table [
    ("general", .table [
      ("node_id", .text c.general.nodeId),
      ("description", .text c.general.description)]),
    ("dtmf", .table (optionalField "tone_type" nameValue c.dtmf.toneType ++ [
      ("burst_on_length_ms", .int c.dtmf.onLength.toNat),
      ("burst_off_length_ms", .int c.dtmf.offLength.toNat)])),
    ("call_waiting", .table [("timeout_ms", .int c.timeout.toNat)]),
    ("connection", .table [("allow_mute", .bool c.allowMute)]),
    ("emergency", .table [("numbers", .list (c.numbers.map .text))]),
    ("logging", .table ([("level", .text c.logging.level)] ++
      optionalField "directory" .text c.logging.directory ++ [
      ("file_prefix", .text c.logging.filePrefix),
      ("format", nameValue c.logging.format)]))]

end Config

end CdmaCall
