import CdmaCall.Config.Value

/-!
# TOML: blanks, keys and scalars

Scanners for the small parts of a TOML document. A scanner takes the text from where it stands and
returns what it read together with the rest, or nothing if the text does not fit.
-/

namespace CdmaCall

namespace Config

namespace Toml

/-- A scanner for an `α`. -/
abbrev Scan (α : Type) := List Char → Option (α × List Char)

/-- The first of two scanners that fits. -/
def orElse {α : Type} (a b : Scan α) : Scan α := fun s =>
  match a s with
  | some r => some r
  | none => b s

/-! ### Blanks, line ends and comments -/

/-- Blanks inside a line. -/
def isBlank (c : Char) : Bool := c == ' ' || c == '\t'

/-- Skip blanks. -/
def skipBlanks (s : List Char) : List Char := s.dropWhile isBlank

/-- Characters that may stand in a comment. -/
def isCommentChar (c : Char) : Bool := c == '\t' || (' ' ≤ c && c != '\x7f')

/-- A line end. -/
def lineEnd : List Char → Option (List Char)
  | '\n' :: s => some s
  | '\r' :: '\n' :: s => some s
  | _ => none

/-- A line end or the end of the document. -/
def lineEndOrDone (s : List Char) : Option (List Char) := if s.isEmpty then some [] else lineEnd s

/-- Skip a comment, if there is one. -/
def skipComment : List Char → List Char
  | '#' :: s => s.dropWhile isCommentChar
  | s => s

/-- What may follow on a line after a header or a value. -/
def restOfLine (s : List Char) : Option (List Char) := lineEndOrDone (skipComment (skipBlanks s))

/-- Skip blanks, line ends and commented lines; a comment must end with its line. -/
def skipLines : Nat → List Char → List Char
  | 0, s => s
  | fuel + 1, s =>
    let t := skipBlanks s
    match lineEnd (skipComment t) with
    | some s => skipLines fuel s
    | none => t

/-- Skip blanks, line ends and commented lines. -/
def skipFiller (s : List Char) : List Char := skipLines s.length s

/-! ### Texts -/

/-- The value of a hexadecimal digit. -/
def hexValue? (c : Char) : Option Nat :=
  if c.isDigit then some (c.toNat - 48)
  else if 'a' ≤ c ∧ c ≤ 'f' then some (c.toNat - 87)
  else if 'A' ≤ c ∧ c ≤ 'F' then some (c.toNat - 55)
  else none

/-- The character whose number hexadecimal digits give. Numbers of surrogates name none. -/
def hexChar? (ds : List Char) : Option Char := do
  let vs ← ds.mapM hexValue?
  let n := vs.foldl (fun n d => 16 * n + d) 0
  if n.isValidChar then some (Char.ofNat n) else none

/-- The character that a letter after a backslash stands for. -/
def escaped? : Char → Option Char
  | 'b' => some '\x08'
  | 't' => some '\t'
  | 'n' => some '\n'
  | 'f' => some '\x0c'
  | 'r' => some '\r'
  | '"' => some '"'
  | '\\' => some '\\'
  | _ => none

/-- Characters that may stand in a text as they are. -/
def isTextChar (c : Char) : Bool := c == '\t' || (' ' ≤ c && c != '\x7f')

/-- Put a character in front of the text that a scanner read. -/
def consChar (c : Char) (r : Option (List Char × List Char)) : Option (List Char × List Char) :=
  r.map fun (cs, s) => (c :: cs, s)

/-- The rest of a text in double quotes. -/
def basicText : List Char → Option (List Char × List Char)
  | [] => none
  | '"' :: s => some ([], s)
  | '\\' :: 'u' :: a :: b :: c :: d :: s => do
    consChar (← hexChar? [a, b, c, d]) (basicText s)
  | '\\' :: 'U' :: a :: b :: c :: d :: e :: f :: g :: h :: s => do
    consChar (← hexChar? [a, b, c, d, e, f, g, h]) (basicText s)
  | '\\' :: c :: s => do consChar (← escaped? c) (basicText s)
  | c :: s => if isTextChar c then consChar c (basicText s) else none

/-- The rest of a text in single quotes, which has no escapes. -/
def literalText : List Char → Option (List Char × List Char)
  | [] => none
  | '\'' :: s => some ([], s)
  | c :: s => if isTextChar c then consChar c (literalText s) else none

/-- Whether a line ends here after blanks. -/
def atLineEnd (s : List Char) : Bool := (lineEnd (skipBlanks s)).isSome

/-- The rest of a text in three double quotes. Up to two quotes may stand before the three that end
it. `skipping` is set behind a backslash at the end of a line: blanks and line ends are left out
up to the next character. -/
def basicLines (skipping : Bool) : List Char → Option (List Char × List Char)
  | [] => none
  | '"' :: '"' :: '"' :: '"' :: '"' :: s => some (['"', '"'], s)
  | '"' :: '"' :: '"' :: '"' :: s => some (['"'], s)
  | '"' :: '"' :: '"' :: s => some ([], s)
  | '\r' :: '\n' :: s => if skipping then basicLines true s else consChar '\n' (basicLines false s)
  | '\n' :: s => if skipping then basicLines true s else consChar '\n' (basicLines false s)
  | '\\' :: 'u' :: a :: b :: c :: d :: s => do
    consChar (← hexChar? [a, b, c, d]) (basicLines false s)
  | '\\' :: 'U' :: a :: b :: c :: d :: e :: f :: g :: h :: s => do
    consChar (← hexChar? [a, b, c, d, e, f, g, h]) (basicLines false s)
  | '\\' :: c :: s =>
    match escaped? c with
    | some e => consChar e (basicLines false s)
    | none => if atLineEnd (c :: s) then basicLines true (c :: s) else none
  | c :: s =>
    if skipping && isBlank c then basicLines true s
    else if isTextChar c then consChar c (basicLines false s)
    else none

/-- The rest of a text in three single quotes. -/
def literalLines : List Char → Option (List Char × List Char)
  | [] => none
  | '\'' :: '\'' :: '\'' :: '\'' :: '\'' :: s => some (['\'', '\''], s)
  | '\'' :: '\'' :: '\'' :: '\'' :: s => some (['\''], s)
  | '\'' :: '\'' :: '\'' :: s => some ([], s)
  | '\r' :: '\n' :: s => consChar '\n' (literalLines s)
  | '\n' :: s => consChar '\n' (literalLines s)
  | c :: s => if isTextChar c then consChar c (literalLines s) else none

/-- A text that begins with three quotes leaves out a line end right behind them. -/
def dropFirstLineEnd (s : List Char) : List Char := (lineEnd s).getD s

/-- A text in any of the four forms. -/
def text : Scan String := fun s =>
  let r := match s with
    | '"' :: '"' :: '"' :: s => basicLines false (dropFirstLineEnd s)
    | '\'' :: '\'' :: '\'' :: s => literalLines (dropFirstLineEnd s)
    | '"' :: s => basicText s
    | '\'' :: s => literalText s
    | _ => none
  r.map fun (cs, s) => (String.ofList cs, s)

/-! ### Keys -/

/-- Characters of a key without quotes. -/
def isBareChar (c : Char) : Bool := c.isAlphanum || c == '-' || c == '_'

/-- One part of a key. -/
def simpleKey : Scan String := fun s =>
  match s with
  | '"' :: s => (basicText s).map fun (cs, s) => (String.ofList cs, s)
  | '\'' :: s => (literalText s).map fun (cs, s) => (String.ofList cs, s)
  | s =>
    let name := s.takeWhile isBareChar
    if name.isEmpty then none else some (String.ofList name, s.dropWhile isBareChar)

/-- A key has fewer parts than this. -/
def maxParts : Nat := 80

/-- The parts of a key with points between them; blanks may stand around each. -/
def keyParts : Nat → Scan (List String)
  | 0, _ => none
  | fuel + 1, s => do
    let (part, s) ← simpleKey (skipBlanks s)
    match skipBlanks s with
    | '.' :: s =>
      let (parts, s) ← keyParts fuel s
      return (part :: parts, s)
    | s => return ([part], s)

/-- A key. -/
def key : Scan (List String) := keyParts (maxParts - 1)

/-! ### Numbers -/

/-- Digits that may have single underscores between them, for what follows a digit. -/
def moreDigits (isDigit : Char → Bool) : List Char → List Char × List Char
  | '_' :: c :: s =>
    if isDigit c then
      let (ds, s) := moreDigits isDigit s
      (c :: ds, s)
    else ([], '_' :: c :: s)
  | c :: s =>
    if isDigit c then
      let (ds, s) := moreDigits isDigit s
      (c :: ds, s)
    else ([], c :: s)
  | [] => ([], [])

/-- At least one digit. -/
def digits (isDigit : Char → Bool) : Scan (List Char)
  | c :: s =>
    if isDigit c then
      let (ds, s) := moreDigits isDigit s
      some (c :: ds, s)
    else none
  | [] => none

/-- Decimal digits without needless zeros in front. -/
def plainDigits : Scan (List Char)
  | '0' :: s => some (['0'], s)
  | s => digits Char.isDigit s

/-- The value of digits to a base. -/
def valueOf (base : Nat) (ds : List Char) : Nat :=
  ds.foldl (fun n c => base * n + (hexValue? c).getD 0) 0

/-- An integer, if it has 64 bits. -/
def int64? (i : Int) : Option Value :=
  if Int64.minValue.toInt ≤ i ∧ i ≤ Int64.maxValue.toInt then some (.int i) else none

/-- Digits to another base than ten. -/
def basedInteger (base : Nat) (isDigit : Char → Bool) : Scan Value := fun s => do
  let (ds, s) ← digits isDigit s
  return (← int64? (valueOf base ds), s)

/-- An integer. -/
def integer : Scan Value
  | '0' :: 'x' :: s => basedInteger 16 (fun c => (hexValue? c).isSome) s
  | '0' :: 'o' :: s => basedInteger 8 (fun c => '0' ≤ c && c ≤ '7') s
  | '0' :: 'b' :: s => basedInteger 2 (fun c => c == '0' || c == '1') s
  | s => do
    let (negative, s) := Double.splitSign s
    let (ds, s) ← plainDigits s
    let n : Int := valueOf 10 ds
    return (← int64? (if negative then -n else n), s)

/-- The exponent of a number. -/
def exponent : Scan Int
  | c :: s =>
    if c == 'e' || c == 'E' then do
      let (negative, s) := Double.splitSign s
      let (ds, s) ← digits Char.isDigit s
      let n : Int := valueOf 10 ds
      return (if negative then -n else n, s)
    else none
  | [] => none

/-- A number with a fraction, an exponent or both. -/
def decimal : Scan Value := fun s => do
  let (negative, s) := Double.splitSign s
  let (whole, s) ← plainDigits s
  let (part, e, s) ← match s with
    | '.' :: s => do
      let (part, s) ← digits Char.isDigit s
      match exponent s with
      | some (e, s) => some (part, e, s)
      | none => some (part, 0, s)
    | s => do
      let (e, s) ← exponent s
      some ([], e, s)
  let x := Double.ofDecimal negative (valueOf 10 (whole ++ part)) (e - part.length)
  if x = .infinite false then none else some (.double x, s)

/-- Infinity or not a number. -/
def special : Scan Value := fun s =>
  let (negative, s) := Double.splitSign s
  match s with
  | 'i' :: 'n' :: 'f' :: s => some (.double (.infinite negative), s)
  | 'n' :: 'a' :: 'n' :: s => some (.double .nan, s)
  | _ => none

/-! ### Dates and times -/

/-- Exactly `n` decimal digits. -/
def fixedDigits (n : Nat) : Scan Nat := fun s =>
  let ds := s.take n
  if ds.length = n ∧ ds.all Char.isDigit then some (Double.digitsValue ds, s.drop n) else none

/-- A given character. -/
def exactly (c : Char) (s : List Char) : Option (List Char) :=
  match s with
  | d :: s => if d == c then some s else none
  | [] => none

/-- Days of a month. -/
def daysIn (year month : Nat) : Nat :=
  if month = 2 then if year % 4 = 0 ∧ (year % 100 ≠ 0 ∨ year % 400 = 0) then 29 else 28
  else if month = 4 ∨ month = 6 ∨ month = 9 ∨ month = 11 then 30
  else 31

/-- Skip a date. -/
def date (s : List Char) : Option (List Char) := do
  let (year, s) ← fixedDigits 4 s
  let (month, s) ← fixedDigits 2 (← exactly '-' s)
  let (day, s) ← fixedDigits 2 (← exactly '-' s)
  if 1 ≤ month ∧ month ≤ 12 ∧ 1 ≤ day ∧ day ≤ daysIn year month then some s else none

/-- Skip a fraction of a second, if there is one. -/
def secondPart (s : List Char) : Option (List Char) :=
  match s with
  | '.' :: s => if (s.takeWhile Char.isDigit).isEmpty then none else some (s.dropWhile Char.isDigit)
  | s => some s

/-- Skip a time of day. A minute may have a leap second. -/
def time (s : List Char) : Option (List Char) := do
  let (hour, s) ← fixedDigits 2 s
  let (minute, s) ← fixedDigits 2 (← exactly ':' s)
  let (second, s) ← fixedDigits 2 (← exactly ':' s)
  if hour ≤ 23 ∧ minute ≤ 59 ∧ second ≤ 60 then secondPart s else none

/-- Skip the offset of a time, if there is one. -/
def offset (s : List Char) : Option (List Char) :=
  match s with
  | [] => some []
  | c :: r =>
    if c == 'Z' || c == 'z' then some r
    else if c == '+' || c == '-' then do
      let (hour, r) ← fixedDigits 2 r
      let (minute, r) ← fixedDigits 2 (← exactly ':' r)
      if hour ≤ 23 ∧ minute ≤ 59 then some r else none
    else some s

/-- The time that may follow a date. -/
def timeAfterDate (s : List Char) : Option (List Char) :=
  match s with
  | c :: r =>
    if c == 'T' || c == 't' then (time r).bind offset
    else if c == ' ' then
      match fixedDigits 2 r with
      | some (_, ':' :: _) => (time r).bind offset
      | _ => some s
    else some s
  | [] => some []

/-- A date, a time or both. -/
def moment : Scan Value := fun s =>
  match (date s).bind timeAfterDate with
  | some r => some (.moment, r)
  | none => (time s).map fun r => (.moment, r)

/-- A date, a time or a number. -/
def dateOrNumber : Scan Value := orElse moment (orElse special (orElse decimal integer))

/-- A given word. -/
def word (w : String) (v : Value) : Scan Value := fun s =>
  if w.toList.isPrefixOf s then some (v, s.drop w.length) else none

end Toml

end Config

end CdmaCall
