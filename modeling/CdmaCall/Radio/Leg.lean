import CdmaCall.Call.State

/-!
# Call legs

The network's side of a call: its state, the address of the far end, the clock of its duration and
the phone that serves it.
-/

namespace CdmaCall

/-- Legs and phones are numbered in the order in which they are listed. -/
abbrev LegId := Nat

/-- See `LegId`. -/
abbrev PhoneId := Nat

/-- A call leg. The flags `refuses…` make the network turn down a request. -/
structure Leg where
  state : LegState
  incoming : Bool
  bearer : Bearer := .circuitSwitched
  address : String
  phone : Option PhoneId := none
  connectedAt : Option Nat := none
  refusesHangup : Bool := false
  refusesAccept : Bool := false
  refusesConference : Bool := false
  hangups : Nat := 0
  timeResets : Nat := 0
  deriving DecidableEq, Repr, Inhabited

namespace Leg

/-- A leg that the local subscriber placed. -/
def outgoing (address : String) (phone : Option PhoneId) : Leg :=
  { state := .dialing, incoming := false, address, phone }

/-- A leg that rings. -/
def ringing (address : String) (phone : Option PhoneId) : Leg :=
  { state := .incoming, incoming := true, address, phone }

/-- A leg that waits behind another call. -/
def waiting (address : String) (phone : Option PhoneId) : Leg :=
  { state := .waiting, incoming := true, address, phone }

/-- Change the state. Becoming active for the first time starts the duration clock. -/
def setState (l : Leg) (now : Nat) (s : LegState) : Leg :=
  { l with
    state := s
    connectedAt := if s == .active then some (l.connectedAt.getD now) else l.connectedAt }

/-- Time since the leg was connected. -/
def duration (l : Leg) (now : Nat) : Nat :=
  match l.connectedAt with
  | none => 0
  | some t => now - t

/-- Ask the network to release the leg. Every attempt counts. -/
def hangUp (l : Leg) : Except Error Unit × Leg :=
  let l := { l with hangups := l.hangups + 1 }
  if l.refusesHangup then (.error (.callState "call leg already disconnected"), l)
  else (.ok (), { l with state := .disconnected })

/-- Let the duration start from now. -/
def resetTime (l : Leg) (now : Nat) : Leg :=
  { l with timeResets := l.timeResets + 1, connectedAt := some now }

end Leg

end CdmaCall
