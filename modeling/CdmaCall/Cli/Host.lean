/-!
# Hosts

What commands need of the machine that they run on.
-/

namespace CdmaCall

namespace Cli

/-- Why something cannot be done at a path. -/
inductive Obstacle where
  /-- Something on the way does not exist. -/
  | missing
  /-- Anything else. -/
  | blocked
  deriving DecidableEq, Repr, Inhabited

/-- A machine. -/
structure Host (m : Type → Type) where
  /-- The date of today, as in 2000-01-31. -/
  today : String
  /-- The text of a file, if it can be read. -/
  readText (path : String) : m (Option String)
  /-- Write a file, and say whether that could be done. -/
  writeText (path text : String) : m Bool
  /-- Open a file for adding to it, and say whether that could be done. A file that does not exist
  is made. -/
  openText (path : String) : m Bool
  /-- Make one directory. -/
  makeDirectory (path : String) : m (Except Obstacle Unit)
  /-- Whether a path leads to a directory. -/
  isDirectory (path : String) : m Bool

end Cli

end CdmaCall
