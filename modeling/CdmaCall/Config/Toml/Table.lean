import CdmaCall.Config.Value

/-!
# TOML: tables

A document adds to its tables line by line. Each table remembers how it came about, because no
table may be defined twice: `implicit` tables were only named on the way to another one, `dotted`
ones by the key of a value.
-/

namespace CdmaCall

namespace Config

namespace Toml

/-- What a name in a table stands for. -/
inductive Node where
  | value (v : Value)
  | table (implicit dotted : Bool) (fields : List (String × Node))
  /-- The items of an array of tables, the latest first. -/
  | tables (latest : List (String × Node)) (earlier : List (List (String × Node)))
  deriving Inhabited

/-- A table under construction. -/
structure Table where
  implicit : Bool := false
  dotted : Bool := false
  fields : List (String × Node) := []
  deriving Inhabited

namespace Table

/-- A table as an entry of another. -/
def toNode (t : Table) : Node := .table t.implicit t.dotted t.fields

/-- What a name stands for. -/
def find? (t : Table) (name : String) : Option Node := t.fields.lookup name

/-- Replace the entry of a name. -/
def replaceIn (name : String) (n : Node) : List (String × Node) → List (String × Node)
  | [] => [(name, n)]
  | (k, old) :: rest => if k == name then (k, n) :: rest else (k, old) :: replaceIn name n rest

/-- Set the entry of a name; a new one comes last. -/
def set (t : Table) (name : String) (n : Node) : Table :=
  { t with fields := replaceIn name n t.fields }

/-- Change the table at the end of a path. Tables that are missing are made on the way, and of an
array of tables the latest is taken. The path of a key (`dotted`) leads only through tables that no
header defined. -/
def change (dotted : Bool) (f : Table → Option Table) : List String → Table → Option Table
  | [], t => f t
  | name :: path, t =>
    match t.find? name with
    | none => do
      let child ← change dotted f path { implicit := true, dotted }
      return t.set name child.toNode
    | some (.value _) => none
    | some (.table implicit isDotted fields) =>
      if dotted && !implicit then none
      else do
        let child ← change dotted f path { implicit, dotted := isDotted, fields }
        return t.set name child.toNode
    | some (.tables latest earlier) => do
      let child ← change dotted f path { fields := latest }
      return t.set name (.tables child.fields earlier)

/-- Add a value under a key. Values may join a table only in the way in which it came about. -/
def addValue (v : Value) : List String → Table → Option Table
  | [], _ => none
  | name :: path, t =>
    let parts := name :: path
    change true (fun t =>
      if t.dotted == path.isEmpty then none
      else match t.find? (parts.getLast?.getD name) with
        | some _ => none
        | none => some (t.set (parts.getLast?.getD name) (.value v)))
      parts.dropLast t

/-- Open the table of a header. A table that was only implicit may still be defined. -/
def openTable (path : List String) (t : Table) : Option Table := do
  let name ← path.getLast?
  change false (fun t =>
    match t.find? name with
    | none => some (t.set name (.table false false []))
    | some (.table true false fields) => some (t.set name (.table false false fields))
    | some _ => none) path.dropLast t

/-- Open a new item of an array of tables. -/
def openItem (path : List String) (t : Table) : Option Table := do
  let name ← path.getLast?
  change false (fun t =>
    match t.find? name with
    | none => some (t.set name (.tables [] []))
    | some (.tables latest earlier) => some (t.set name (.tables [] (latest :: earlier)))
    | some _ => none) path.dropLast t

end Table

mutual

/-- The value that an entry stands for. -/
def Node.toValue : Node → Value
  | .value v => v
  | .table _ _ fields => .table (fieldValues fields)
  | .tables latest earlier => .list ((itemValues earlier).reverse ++ [.table (fieldValues latest)])

/-- The values of the fields of a table. -/
def fieldValues : List (String × Node) → List (String × Value)
  | [] => []
  | (name, n) :: rest => (name, n.toValue) :: fieldValues rest

/-- The values of items. -/
def itemValues : List (List (String × Node)) → List Value
  | [] => []
  | fields :: rest => .table (fieldValues fields) :: itemValues rest

end

end Toml

end Config

end CdmaCall
