import CdmaCall.Config.Basic
import CdmaCall.Config.Value

/-!
# From values to a configuration

Every source of a configuration (`Dialect`) has its own idea of which values can stand for a text,
a number, a flag and so on. Given these, the sections and fields are read in the same way: unknown
fields are ignored, and a list stands for a section with its fields in order.
-/

namespace CdmaCall

namespace Config

/-- How a source writes the kinds of fields. -/
structure Dialect where
  text : Value → Option String
  /-- A natural number up to a limit. -/
  natural : (limit : Nat) → Value → Option Nat
  flag : Value → Option Bool
  list : Value → Option (List Value)
  /-- The written name of a choice. -/
  choice : Value → Option String
  /-- Whether a name as written is that of an alternative. -/
  sameName : (written alternative : String) → Bool
  /-- Whether a value leaves an optional field unset. -/
  isUnset : Value → Bool
  /-- The fields of a section, given their names in order. -/
  fields : List String → Value → Option (String → Option Value)

/-- The fields of a list: the names go to the items in order. -/
def fieldsInOrder (names : List String) (items : List Value) (name : String) : Option Value :=
  (names.zip items).lookup name

namespace Dialect

variable (d : Dialect)

/-- A field that must be there. -/
def required {α : Type} (read : Value → Option α) (v : Option Value) : Option α := v.bind read

/-- A field that may be left out. -/
def optional {α : Type} (read : Value → Option α) (v : Option Value) : Option (Option α) :=
  match v with
  | none => some none
  | some v => if d.isUnset v then some none else (read v).map some

/-- A field with a value to fall back on, if it is left out. -/
def withDefault {α : Type} (standard : α) (read : Value → Option α) (v : Option Value) :
    Option α :=
  match v with
  | none => some standard
  | some v => read v

/-- One of the alternatives of an enumeration. -/
def oneOf {α : Type} [Named α] (v : Value) : Option α :=
  (d.choice v).bind fun s => (Named.all (α := α)).find? fun a => d.sameName s (Named.name a)

/-- A 32-bit number. -/
def word32 (v : Value) : Option UInt32 := (d.natural (UInt32.size - 1) v).map .ofNat

/-- A 64-bit number. -/
def word64 (v : Value) : Option UInt64 := (d.natural (UInt64.size - 1) v).map .ofNat

/-- A list of texts. -/
def texts (v : Value) : Option (List String) := (d.list v).bind fun items => items.mapM d.text

/-- Section `general`. -/
def general (v : Value) : Option General := do
  let f ← d.fields ["node_id", "description"] v
  return { nodeId := ← required d.text (f "node_id")
           description := ← required d.text (f "description") }

/-- Section `dtmf`. -/
def dtmf (v : Value) : Option Dtmf := do
  let f ← d.fields ["tone_type", "burst_on_length_ms", "burst_off_length_ms"] v
  return { toneType := ← d.optional d.oneOf (f "tone_type")
           onLength := ← withDefault 0 d.word32 (f "burst_on_length_ms")
           offLength := ← withDefault 0 d.word32 (f "burst_off_length_ms") }

/-- A section with one field. -/
def single {α : Type} (name : String) (read : Value → Option α) (v : Value) : Option α := do
  let f ← d.fields [name] v
  required read (f name)

/-- Section `logging`. -/
def logging (v : Value) : Option Logging := do
  let f ← d.fields ["level", "directory", "file_prefix", "format"] v
  return { level := ← required d.text (f "level")
           directory := ← d.optional d.text (f "directory")
           filePrefix := ← required d.text (f "file_prefix")
           format := ← required d.oneOf (f "format") }

/-- The whole configuration. -/
def config (v : Value) : Option Config := do
  let f ← d.fields ["general", "dtmf", "call_waiting", "connection", "emergency", "logging"] v
  return { general := ← required d.general (f "general")
           dtmf := ← required d.dtmf (f "dtmf")
           timeout := ← required (d.single "timeout_ms" d.word64) (f "call_waiting")
           allowMute := ← required (d.single "allow_mute" d.flag) (f "connection")
           numbers := ← required (d.single "numbers" d.texts) (f "emergency")
           logging := ← required d.logging (f "logging") }

end Dialect

end Config

end CdmaCall
