import CdmaCall.Dtmf.Digit

/-!
# Requests to a radio

What a connection asks of the phone that serves its leg. The description of a request never shows
digits, which may be a password.
-/

namespace CdmaCall

/-- A request that a phone has received. -/
inductive Action where
  | startTone (digit : Char)
  | stopTone
  | burst (digits : List Char) (onLength offLength : Nat)
  | register (connection : ConnId)
  | unregister (connection : ConnId)
  | accept
  | conference
  deriving DecidableEq, Repr

namespace Action

/-- Length of a text in bytes of UTF-8. -/
def byteCount (digits : List Char) : Nat := digits.foldr (fun c n => c.utf8Size + n) 0

/-- How a connection is referred to in descriptions. -/
def connName (c : ConnId) : String := "c" ++ toString c

/-- One line about the request. The length of a burst is given in bytes. -/
def describe : Action → String
  | startTone _ => "start continuous dtmf"
  | stopTone => "stop continuous dtmf"
  | burst digits _ _ => "burst dtmf (" ++ toString (byteCount digits) ++ " character[s])"
  | register c => "register line control info for " ++ connName c
  | unregister c => "unregister line control info for " ++ connName c
  | accept => "accept call"
  | conference => "conference"

end Action

end CdmaCall
