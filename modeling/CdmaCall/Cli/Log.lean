import CdmaCall.Cli.Host
import CdmaCall.Config.Basic

/-!
# Log files

Where the log of a day goes, and how its file is made ready. The directories on the way to it are
made if need be, and they stay even if the file cannot be opened after all.
-/

namespace CdmaCall

namespace Cli

/-! ### Paths as text -/

/-- A path taken from a directory. An absolute path stands for itself. -/
def under (directory path : String) : String :=
  if directory.isEmpty || path.startsWith "/" then path
  else if directory.endsWith "/" then directory ++ path
  else directory ++ "/" ++ path

/-- Whether a name on a path leads nowhere. -/
def isIdle (name : String) : Bool := name == "" || name == "."

/-- A path and all that it is in, the longest first. The names are given last name first. -/
def ancestry : List String → List String
  | [] => []
  | name :: names =>
    if isIdle name then ancestry names
    else "/".intercalate (name :: names).reverse :: ancestry names

/-- The directories that a file is in, the innermost first. -/
def directoriesOf (path : String) : List String := ancestry ((path.splitOn "/").reverse.drop 1)

end Cli

/-- The name of the file that log lines of a day go to. -/
def Config.Logging.fileName (l : Config.Logging) (day : String) : String :=
  if l.filePrefix.isEmpty then day ++ ".log" else l.filePrefix ++ "." ++ day ++ ".log"

/-- The file that log lines of a day go to, if there is one. -/
def Config.Logging.file? (l : Config.Logging) (day : String) : Option String :=
  l.directory.map fun directory => Cli.under directory (l.fileName day)

namespace Cli

namespace Host

variable {m : Type → Type} [Monad m] (host : Host m)

/-- Make a directory together with those that it is in, innermost first. Returns whether it is
there at the end. What is a directory already need not be made. -/
def makeDirectories : List String → m Bool
  | [] => return true
  | path :: outer => do
    match ← host.makeDirectory path with
    | .ok _ => return true
    | .error .blocked => host.isDirectory path
    | .error .missing =>
      if ← makeDirectories outer then
        match ← host.makeDirectory path with
        | .ok _ => return true
        | .error _ => host.isDirectory path
      else return false

/-- Open a file for adding to it; if that fails, make its directories and try again. Returns
whether it could be opened. -/
def openUnder (path : String) : m Bool := do
  if ← host.openText path then return true
  else if ← host.makeDirectories (directoriesOf path) then host.openText path
  else return false

end Host

end Cli

end CdmaCall
