import CdmaCall.Config.Reader
import CdmaCall.Config.Toml.Scalar
import CdmaCall.Config.Toml.Table

/-!
# Configuration as TOML

A document is read line by line: headers open tables, other lines add values. Nothing is converted
when the configuration is taken from it.
-/

namespace CdmaCall

namespace Config

namespace Toml

/-! ### Values -/

/-- Lists and tables in a value may be nested less deeply than this. -/
def maxDepth : Nat := 80

/-- Items of a list up to its end; a comma may follow the last. -/
def listItems (item : Scan Value) : Nat → Scan (List Value)
  | 0, _ => none
  | fuel + 1, s =>
    match skipFiller s with
    | ']' :: s => some ([], s)
    | s => do
      let (v, s) ← item s
      match skipFiller s with
      | ',' :: s =>
        let (vs, s) ← listItems item fuel s
        return (v :: vs, s)
      | ']' :: s => return ([v], s)
      | _ => none

/-- Fields of a table in braces, all on one line. No comma follows the last. -/
def bracedFields (item : Scan Value) : Nat → Table → Scan Table
  | 0, _, _ => none
  | fuel + 1, t, s => do
    let (path, s) ← key s
    let (v, s) ← item (skipBlanks (← exactly '=' s))
    let t ← t.addValue v path
    match skipBlanks s with
    | ',' :: s => bracedFields item fuel t s
    | '\x7d' :: s => return (t, s)
    | _ => none

/-- A table in braces. -/
def bracedTable (item : Scan Value) : Scan Value := fun s =>
  match skipBlanks s with
  | '\x7d' :: s => some (.table [], s)
  | s => (bracedFields item s.length {} s).map fun (t, s) => (.table (fieldValues t.fields), s)

/-- A value, with lists and tables nested up to `depth`. -/
def value : (depth : Nat) → Scan Value
  | depth, s =>
    match s with
    | '"' :: _ => (text s).map fun (t, s) => (.text t, s)
    | '\'' :: _ => (text s).map fun (t, s) => (.text t, s)
    | '[' :: s =>
      match depth with
      | 0 => none
      | depth + 1 => (listItems (value depth) s.length s).map fun (vs, s) => (.list vs, s)
    | '\x7b' :: s =>
      match depth with
      | 0 => none
      | depth + 1 => bracedTable (value depth) s
    | 't' :: _ => word "true" (.bool true) s
    | 'f' :: _ => word "false" (.bool false) s
    | _ => dateOrNumber s

/-! ### Documents -/

/-- The tables of a document so far, and the path of the one that is open. -/
structure Draft where
  root : Table := {}
  path : List String := []

/-- A header: a table in brackets, or an item of an array of tables in two pairs of them. -/
def header (d : Draft) (s : List Char) : Option (Draft × List Char) :=
  match s with
  | '[' :: s => do
    let (path, s) ← key s
    let s ← restOfLine (← exactly ']' (← exactly ']' s))
    return (⟨← d.root.openItem path, path⟩, s)
  | s => do
    let (path, s) ← key s
    let s ← restOfLine (← exactly ']' s)
    return (⟨← d.root.openTable path, path⟩, s)

/-- A key with its value. -/
def assignment (d : Draft) (s : List Char) : Option (Draft × List Char) := do
  let (path, s) ← key s
  let (v, s) ← value (maxDepth - 1) (skipBlanks (← exactly '=' s))
  let s ← restOfLine s
  return ({ d with root := ← d.root.change false (Table.addValue v path) d.path }, s)

/-- The lines of a document. -/
def lines : Nat → Draft → List Char → Option Draft
  | 0, d, s => if s.isEmpty then some d else none
  | fuel + 1, d, s =>
    match skipBlanks s with
    | [] => some d
    | '#' :: s => do lines fuel d (← lineEndOrDone (s.dropWhile isCommentChar))
    | '[' :: s => do
      let (d, s) ← header d s
      lines fuel d s
    | '\n' :: s => lines fuel d s
    | '\r' :: '\n' :: s => lines fuel d s
    | s => do
      let (d, s) ← assignment d s
      lines fuel d s

/-- A byte order mark may stand in front. -/
def skipMark : List Char → List Char
  | '\ufeff' :: s => s
  | s => s

/-- Read a document. -/
def parse (s : String) : Option Value :=
  let cs := skipMark s.toList
  (lines (cs.length + 1) {} cs).map fun d => .table (fieldValues d.root.fields)

end Toml

/-- How TOML writes fields. -/
def toml : Dialect where
  text
    | .text s => some s
    | _ => none
  natural limit
    | .int i => if 0 ≤ i ∧ i ≤ limit then some i.toNat else none
    | _ => none
  flag
    | .bool b => some b
    | _ => none
  list := Value.items?
  choice
    | .text s => some s
    | .table [(s, v)] => if v.isHollow then some s else none
    | _ => none
  sameName := (· == ·)
  isUnset _ := false
  fields names
    | .table fields => some (fields.lookup ·)
    | .list items => some (fieldsInOrder names items)
    | .moment => some fun _ => none
    | _ => none

/-- Read a configuration from a TOML document. -/
def ofToml (document : String) : Except Error Config :=
  match Toml.parse document with
  | none => .error (.invalidToml "the document is malformed")
  | some v =>
    match toml.config v with
    | some c => .ok c
    | none => .error (.invalidToml "the document is no configuration")

end Config

end CdmaCall
