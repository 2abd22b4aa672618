/-!
# Comparing a text with an ASCII word, whatever the case

`fold` gives the small form of a text as far as such a comparison can see it. Beyond ASCII only
two characters have a small form with an ASCII letter in it: the Kelvin sign, whose small form is
`k`, and the capital `I` with a dot, whose small form is an `i` with a combining dot. Every other
character outside ASCII keeps a small form outside ASCII, so it is left as it is.
-/

namespace CdmaCall

namespace Text

/-- The small form of one character. -/
def foldChar (c : Char) : List Char :=
  if c == '\u212a' then ['k']
  else if c == '\u0130' then ['i', '\u0307']
  else [c.toLower]

/-- The small form of a text. -/
def fold (s : String) : String := String.ofList (s.toList.flatMap foldChar)

end Text

end CdmaCall
