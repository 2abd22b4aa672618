import CdmaCall.Cli.Log

/-!
# A disk in memory

A tree of directories and files, and paths that are followed in it name by name. Paths start in a
working directory, or at the root if they begin with a slash. Commands can run on such a disk.
-/

namespace CdmaCall

namespace Cli

/-! ### Trees -/

/-- What a name can lead to. -/
inductive Node where
  | directory (entries : List (String × Node))
  | file (text : String)
  /-- Holds nothing, and takes everything. -/
  | sink
  deriving Inhabited

namespace Node

/-- What is in a directory. -/
def entries : Node → List (String × Node)
  | directory entries => entries
  | _ => []

/-- Whether this is a directory. -/
def isDirectory : Node → Bool
  | directory _ => true
  | _ => false

/-- Put something into a directory, in place of what had that name. -/
def put (n : Node) (name : String) (child : Node) : Node :=
  .directory (n.entries.filter (·.1 != name) ++ [(name, child)])

end Node

/-- A node, and the way back to the root: the name that led to it and the directory that it is in,
the name that led there, and so on. -/
structure Spot where
  here : Node
  back : List (String × Node) := []
  deriving Inhabited

namespace Spot

/-- The longest name, in bytes. -/
def nameLimit : Nat := 255

/-- The directory that this is in. The root is in itself. -/
def above (s : Spot) : Spot :=
  match s.back with
  | [] => s
  | (_, directory) :: back => ⟨directory, back⟩

/-- Follow one name. Names lead on from directories only. -/
def follow (s : Spot) (name : String) : Except Obstacle Spot :=
  if !s.here.isDirectory then .error .blocked
  else if isIdle name then .ok s
  else if name == ".." then .ok s.above
  else if name.utf8ByteSize > nameLimit then .error .blocked
  else
    match s.here.entries.lookup name with
    | some node => .ok ⟨node, (name, s.here) :: s.back⟩
    | none => .error .missing

/-- The root of a tree that has `node` at this spot. -/
def rootWith (s : Spot) (node : Node) : Node :=
  s.back.foldl (fun node (name, directory) => directory.put name node) node

end Spot

/-! ### Disks -/

/-- A tree with its root. -/
structure Disk where
  root : Node
  deriving Inhabited

namespace Disk

/-- The longest path, in bytes. -/
def pathLimit : Nat := 4095

/-- The names on the way from the root to the directory where paths start. -/
def work : List String := ["tmp", "work"]

/-- A disk with nothing in its working directory. -/
def bare : Disk where
  root := .directory [
    ("dev", .directory [("null", .sink)]),
    ("tmp", .directory [("work", .directory [])])]

/-- The names that a path gives from the root on. -/
def names (path : String) : Except Obstacle (List String) :=
  if path.isEmpty then .error .missing
  else if path.contains '\x00' || path.utf8ByteSize > pathLimit then .error .blocked
  else if path.startsWith "/" then .ok (path.splitOn "/")
  else .ok (work ++ path.splitOn "/")

/-- Follow names from the root on. -/
def walk (d : Disk) (names : List String) : Except Obstacle Spot :=
  names.foldlM Spot.follow ⟨d.root, []⟩

/-- The spot that a path leads to. -/
def locate (d : Disk) (path : String) : Except Obstacle Spot := names path >>= d.walk

/-- The directory in which a path would have something new, and the name of that. -/
def vacancy (d : Disk) (path : String) : Except Obstacle (Spot × String) := do
  let names ← names path
  let s ← d.walk names.dropLast
  let name := names.getLast?.getD ""
  match s.follow name with
  | .error .missing => .ok (s, name)
  | _ => .error .blocked

/-- Put something where a path would have something new. -/
def put (d : Disk) (path : String) (node : Node) : Except Obstacle Unit × Disk :=
  match d.vacancy path with
  | .ok (s, name) => (.ok (), ⟨s.rootWith (s.here.put name node)⟩)
  | .error e => (.error e, d)

/-- What a path leads to. -/
def at? (d : Disk) (path : String) : Option Node := (d.locate path).toOption.map (·.here)

/-- The text of a file. -/
def readText (d : Disk) (path : String) : Option String :=
  match d.at? path with
  | some (.file text) => some text
  | some .sink => some ""
  | _ => none

/-- Change the text of a file, which is made if it does not exist. Returns whether that could be
done. -/
def editText (d : Disk) (path : String) (edit : String → String) : Bool × Disk :=
  match d.locate path with
  | .ok s =>
    match s.here with
    | .file text => (true, ⟨s.rootWith (.file (edit text))⟩)
    | .sink => (true, d)
    | .directory _ => (false, d)
  | .error _ =>
    match d.put path (.file (edit "")) with
    | (.ok _, d) => (true, d)
    | (.error _, d) => (false, d)

/-- The names in a directory. -/
def entries (d : Disk) (path : String) : List String :=
  ((d.at? path).map fun node => node.entries.map (·.1)).getD []

/-- A host that runs commands on a disk. -/
def host : Host (StateM Disk) where
  today := "2000-01-01"
  readText path := return (← get).readText path
  writeText path text := modifyGet (·.editText path fun _ => text)
  openText path := modifyGet (·.editText path id)
  makeDirectory path := modifyGet (·.put path (.directory []))
  isDirectory path := return ((← get).at? path).any Node.isDirectory

/-- Add a file, and the directories on the way to it. -/
def add (d : Disk) (path text : String) : Disk :=
  let (_, d) := (host.openUnder path).run d
  (d.editText path fun _ => text).2

/-- A disk with these files in the working directory. -/
def ofFiles (files : List (String × String)) : Disk :=
  files.foldl (fun d (path, text) => d.add path text) bare

end Disk

end Cli

end CdmaCall
