import CdmaCall.Config.Reader

/-!
# Configuration from environment variables

A variable counts if its name begins with `cdma__`, in any case. The rest of the name is the path
of a field, with `__` between its parts, and the value is guessed: a flag, an integer, a number, a
list (for the emergency numbers only), and a text if it is none of these. Fields take what can be
converted: a text field takes the text of a number or a flag, a number is rounded, a flag is also a
number or a word.
-/

namespace CdmaCall

namespace Config

namespace Environment

/-! ### Values -/

/-- The integer of 64 bits that digits stand for. -/
def int64? (negative : Bool) (ds : List Char) : Option Int :=
  if ds.isEmpty || !ds.all Char.isDigit then none
  else
    let n : Int := Double.digitsValue ds
    let i := if negative then -n else n
    if Int64.minValue.toInt ≤ i ∧ i ≤ Int64.maxValue.toInt then some i else none

/-- Read an integer of 64 bits: an optional sign and digits. -/
def parseInt? (s : String) : Option Int :=
  let (negative, ds) := Double.splitSign s.toList
  int64? negative ds

/-- Read one of the words for a flag in a value, in any case. -/
def parseBool? (s : String) : Option Bool :=
  let s := Text.fold s
  if s == "true" then some true
  else if s == "false" then some false
  else none

/-- The path of the emergency numbers, the one field that a list can be written for. -/
def listKey : String := "emergency.numbers"

/-- What a value of the variable with path `key` stands for. -/
def guess (key s : String) : Value :=
  match parseBool? s with
  | some b => .bool b
  | none =>
    match parseInt? s with
    | some i => .int i
    | none =>
      match Double.parse s with
      | some x => .double x
      | none =>
        if key == listKey then .list ((s.toList.splitOn ',').map fun item => .text (.ofList item))
        else .text s

/-! ### Paths -/

/-- A part of a path: the field of a table or the item of a list. Items are counted from zero, and
below zero from the end. -/
inductive Part where
  | key (name : String)
  | index (i : Int)
  deriving DecidableEq, Repr

/-- Characters of the name of a field. -/
def isNameChar (c : Char) : Bool := c.isAlphanum || c == ' ' || c == '_' || c == '-'

/-- Blanks around an index. -/
def isBlank (c : Char) : Bool := c == ' ' || c == '\t'

/-- The index that begins a text, between blanks, and the rest of the text. -/
def splitIndex (s : List Char) : Option (Int × List Char) :=
  let s := s.dropWhile isBlank
  let (negative, s) := match s with
    | '-' :: s => (true, s)
    | s => (false, s)
  (int64? negative (s.takeWhile Char.isDigit)).map fun i =>
    (i, (s.dropWhile Char.isDigit).dropWhile isBlank)

/-- The parts after the first. -/
def parseParts : Nat → List Char → Option (List Part)
  | _, [] => some []
  | 0, _ => none
  | fuel + 1, '.' :: s =>
    let name := s.takeWhile isNameChar
    if name.isEmpty then none
    else (parseParts fuel (s.dropWhile isNameChar)).map (.key (String.ofList name) :: ·)
  | fuel + 1, '[' :: s =>
    match splitIndex s with
    | some (i, ']' :: s) => (parseParts fuel s).map (.index i :: ·)
    | _ => none
  | _, _ => none

/-- Read a path. -/
def parsePath (s : String) : Option (List Part) :=
  let cs := s.toList
  let name := cs.takeWhile isNameChar
  if name.isEmpty then none
  else (parseParts cs.length (cs.dropWhile isNameChar)).map (.key (String.ofList name) :: ·)

/-- Set a field of a table; a new field comes last. -/
def setField (fields : List (String × Value)) (name : String) (v : Value) :
    List (String × Value) :=
  match fields with
  | [] => [(name, v)]
  | (n, old) :: rest => if n == name then (n, v) :: rest else (n, old) :: setField rest name v

/-- The position of an index in a list of `length` items. A position below zero does not exist. -/
def position? (i : Int) (length : Nat) : Option Nat :=
  let p := if i < 0 then length + i else i
  if p < 0 then none else some p.toNat

/-- Put `v` at the end of a path. What stands in the way makes room, and lists grow as needed. -/
def setAt (v : Value) : List Part → Value → Value
  | [], _ => v
  | .key name :: path, old =>
    let fields := match old with
      | .table fields => fields
      | _ => []
    .table (setField fields name (setAt v path ((fields.lookup name).getD .null)))
  | .index i :: path, old =>
    let items := match old with
      | .list items => items
      | _ => []
    match position? i items.length with
    | none => .list items
    | some p =>
      let items := items ++ List.replicate (p + 1 - items.length) .null
      .list (items.set p (setAt v path (items.getD p .null)))

/-- What the names of variables that count begin with. -/
def marker : String := "cdma__"

/-- A path with its parts joined by points instead of `__`. Of two signs that overlap the left one
joins. -/
def pointed : List Char → List Char
  | '_' :: '_' :: s => '.' :: pointed s
  | c :: s => c :: pointed s
  | [] => []

/-- The path that the name of a variable gives, if it counts. -/
def keyOf? (name : String) : Option String :=
  let name := (Text.fold name).toList
  if marker.toList.isPrefixOf name then
    some (String.ofList (pointed (name.drop marker.length)))
  else none

/-- Add a variable. A name that is no path is ignored. -/
def add (v : Value) (name value : String) : Value :=
  match keyOf? name with
  | none => v
  | some key =>
    match parsePath key with
    | none => v
    | some path => setAt (guess key value) path v

/-- The values of all variables, later ones over earlier ones. -/
def toValue (vars : List (String × String)) : Value :=
  vars.foldl (fun v (name, value) => add v name value) (.table [])

/-! ### Fields -/

/-- The text of a scalar. -/
def scalarText : Value → Option String
  | .text s => some s
  | .bool b => some (if b then "true" else "false")
  | .int i => some (toString i)
  | .double x => some x.toText
  | _ => none

/-- Words for yes and no, in any case. -/
def parseWord? (s : String) : Option Bool :=
  let s := Text.fold s
  if s == "true" || s == "on" || s == "yes" then some true
  else if s == "false" || s == "off" || s == "no" then some false
  else none

/-- The number that a scalar stands for. -/
def scalarNat : Value → Option Nat
  | .int i => if 0 ≤ i then some i.toNat else none
  | .bool b => some b.toNat
  | .double x => some (x.toNatClamped (UInt64.size - 1))
  | .text s =>
    match parseWord? s with
    | some b => some b.toNat
    | none => ((parseInt? s).bind fun i => if 0 ≤ i then some i.toNat else none)
  | _ => none

/-- The flag that a scalar stands for. -/
def scalarFlag : Value → Option Bool
  | .bool b => some b
  | .int i => some (i != 0)
  | .double x => some x.isNonzero
  | .text s =>
    if s == "1" then some true else if s == "0" then some false else parseWord? s
  | _ => none

end Environment

/-- How variables write fields. -/
def environment : Dialect where
  text := Environment.scalarText
  natural limit v := (Environment.scalarNat v).bind fun n => if n ≤ limit then some n else none
  flag := Environment.scalarFlag
  list := Value.items?
  choice
    | .text s => some s
    | .table [(s, _)] => some s
    | _ => none
  sameName written alternative := Text.fold written == alternative
  isUnset
    | .null => true
    | _ => false
  fields names
    | .table fields => some (fields.lookup ·)
    | .list items => some (fieldsInOrder names items)
    | _ => none

/-- Read a configuration from the variables of an environment. -/
def ofEnvironment (vars : List (String × String)) : Except Error Config :=
  match environment.config (Environment.toValue vars) with
  | some c => .ok c
  | none => .error (.config "the variables are no configuration")

end Config

end CdmaCall
