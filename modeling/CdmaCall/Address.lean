/-!
# Addresses and emergency numbers

An address may carry a URI scheme such as `tel:` and separators. Its dialable characters are what
the network would dial; an address is an emergency number if they spell one of the listed numbers.
-/

namespace CdmaCall

namespace Address

/-- Digits and the signs `+`, `*` and `#` can be dialled. -/
def isDialable (c : Char) : Bool := c.isDigit || c == '+' || c == '*' || c == '#'

/-- Split at the first colon, if there is one. -/
def splitColon : List Char → Option (List Char × List Char)
  | [] => none
  | c :: cs => if c == ':' then some ([], cs) else (splitColon cs).map fun (a, b) => (c :: a, b)

/-- What follows the scheme. A scheme is one or more ASCII letters before the first colon; without
one the whole address is returned. -/
def schemeSpecificPart (address : List Char) : List Char :=
  match splitColon address with
  | some (scheme, rest) => if !scheme.isEmpty && scheme.all Char.isAlpha then rest else address
  | none => address

/-- The dialable characters of the part after the scheme. -/
def dialable (address : List Char) : List Char := (schemeSpecificPart address).filter isDialable

/-- `schemeSpecificPart` on texts. -/
def partOf (address : String) : String := String.ofList (schemeSpecificPart address.toList)

/-- `dialable` on texts. -/
def dialableNumber (address : String) : String := String.ofList (dialable address.toList)

end Address

/-- The numbers that count as local emergency numbers. -/
structure EmergencyNumbers where
  numbers : List String
  deriving DecidableEq, Repr, Inhabited

/-- Whether the dialable characters of an address, if it has any, spell a listed number. -/
def EmergencyNumbers.classifies (e : EmergencyNumbers) (address : String) : Bool :=
  let number := Address.dialableNumber address
  !number.isEmpty && e.numbers.any (· == number)

end CdmaCall
