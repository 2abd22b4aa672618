import CdmaCall.Text.Unseen

/-!
# Quoted text

A text between double quotes on one line, in which every character can be seen: quotes,
backslashes and line ends have short escapes, and what cannot be seen is written by its number.
-/

namespace CdmaCall

namespace Text

/-- A number in hexadecimal digits. -/
def hex (n : Nat) : List Char := Nat.toDigits 16 n

/-- The escape of a character by its number. -/
def numberEscape (c : Char) : List Char := "\\u\x7b".toList ++ hex c.toNat ++ ['\x7d']

/-- A character inside quotes. -/
def quoteChar (c : Char) : List Char :=
  if c == '"' || c == '\\' then ['\\', c]
  else if c == '\x00' then ['\\', '0']
  else if c == '\t' then ['\\', 't']
  else if c == '\r' then ['\\', 'r']
  else if c == '\n' then ['\\', 'n']
  else if isUnseen c then numberEscape c
  else [c]

/-- A text in quotes. -/
def quoted (s : String) : String := "\"" ++ String.ofList (s.toList.flatMap quoteChar) ++ "\""

end Text

end CdmaCall
