import CdmaCall.Error

/-!
# Written names

Every enumeration of the library has one written name per value. `Named.parse` reads a name back
and, for anything else, lists the names it would have accepted.
-/

namespace CdmaCall

/-- A type with finitely many values, in declaration order, each with a written name. -/
class Named (α : Type) where
  all : List α
  name : α → String

namespace Named

variable {α : Type} [Named α]

/-- The value with the written name `s`. -/
def ofName? (s : String) : Option α := (all (α := α)).find? fun a => name a == s

/-- A name between grave accents, as lists of alternatives show it. -/
def quoted (s : String) : String := "`" ++ s ++ "`"

/-- The alternatives, two of them joined by "or" and more of them listed. -/
def alternatives : List String → String
  | [a] => "expected " ++ quoted a
  | [a, b] => "expected " ++ quoted a ++ " or " ++ quoted b
  | names => "expected one of " ++ ", ".intercalate (names.map quoted)

/-- Read a written name. -/
def parse (s : String) : Except Error α :=
  match ofName? s with
  | some a => .ok a
  | none => .error <| .serialization <|
      "unknown variant " ++ quoted s ++ ", " ++ alternatives ((all (α := α)).map name)

end Named

end CdmaCall
