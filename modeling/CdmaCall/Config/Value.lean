import CdmaCall.Number.Double

/-!
# Untyped configuration values

What a configuration source holds before its fields are known: a tree of scalars, lists and tables.
-/

namespace CdmaCall

namespace Config

/-- A value of a configuration source. The fields of a table stand in the order of the source. -/
inductive Value where
  | null
  | bool (b : Bool)
  | int (i : Int)
  | double (x : Double)
  | text (s : String)
  /-- A date or a time of day; no field of the configuration is one. -/
  | moment
  | list (items : List Value)
  | table (fields : List (String × Value))
  deriving Inhabited

namespace Value

/-- The items of a list. -/
def items? : Value → Option (List Value)
  | list items => some items
  | _ => none

/-- Whether a value is a list or a table without content. -/
def isHollow : Value → Bool
  | list items => items.isEmpty
  | table fields => fields.isEmpty
  | _ => false

end Value

end Config

end CdmaCall
