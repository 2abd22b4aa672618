import CdmaCall.Call.State

/-!
# Keypad digits and tone modes

The sixteen keys of a DTMF keypad, and the choice between a continuous tone and a burst message.
-/

namespace CdmaCall

/-- The tone length that the user prefers. -/
inductive ToneType where
  | normal | long
  deriving DecidableEq, Repr, Inhabited

/-- How a digit reaches the network: as a tone with a start and a stop, or as a burst message that
the network confirms. -/
inductive ToneMode where
  | continuous | burst
  deriving DecidableEq, Repr, Inhabited

instance : Named ToneType where
  all := [.normal, .long]
  name
    | .normal => "normal"
    | .long => "long"

instance : Named ToneMode where
  all := [.continuous, .burst]
  name
    | .continuous => "continuous"
    | .burst => "burst"

/-- Packet voice has no bursts. On a circuit switched leg normal tones, which are the default, go
out as bursts and long ones as continuous tones. -/
def ToneMode.select (bearer : Bearer) (preferred : Option ToneType) : ToneMode :=
  match bearer, preferred with
  | .packetVoice, _ => .continuous
  | .circuitSwitched, some .long => .continuous
  | .circuitSwitched, _ => .burst

namespace Keypad

/-- Whether a character is a key: `0` to `9`, `*`, `#` or `A` to `D`. -/
def isDigit (c : Char) : Bool :=
  c.isDigit || c == '*' || c == '#' || ('A' ≤ c && c ≤ 'D')

/-- The key that a character stands for; the four letters may be written small. -/
def digit (c : Char) : Except Error Char :=
  if isDigit c.toUpper then .ok c.toUpper else .error .invalidDigit

/-- Sent in place of any digit while the local hold is active. -/
def holdDigit : Char := '#'

end Keypad

end CdmaCall
