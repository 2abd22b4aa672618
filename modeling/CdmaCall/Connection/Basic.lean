import CdmaCall.Call.Capabilities
import CdmaCall.Config.Basic
import CdmaCall.Dtmf.Transmitter
import CdmaCall.Line.Correction
import CdmaCall.Waiting.Guard

/-!
# Connections

The protocol state of one call: which leg it is bound to, its phase, and the three services that
work for it (tones, call waiting guard, connect time correction).
-/

namespace CdmaCall

/-- What is fixed when a connection is made. The timeout is in milliseconds; the lengths of
digits in bursts are handed to the phone as they are. -/
structure Options where
  direction : Direction := .outgoing
  allowMute : Bool := false
  timeout : Nat := Guard.standardTimeout
  onLength : Nat := 0
  offLength : Nat := 0
  deriving DecidableEq, Repr, Inhabited

/-- The options that a configuration asks for. -/
def Options.ofConfig (c : Config) (direction : Direction) : Options where
  direction := direction
  allowMute := c.allowMute
  timeout := c.timeout.toNat
  onLength := c.dtmf.onLength.toNat
  offLength := c.dtmf.offLength.toNat

/-- A connection. -/
structure Conn where
  options : Options
  leg : Option LegId := none
  phase : Phase := .new
  cause : Option Cause := none
  waiting : Bool := false
  tones : Transmitter
  guard : Guard
  correction : Correction := {}
  mailbox : Mailbox := {}
  /-- Whether events are handled as they arrive. -/
  driven : Bool := false
  closed : Bool := false
  notices : List Notification := []
  deriving DecidableEq, Repr

namespace Conn

/-- A connection without a leg. -/
def fresh (o : Options) : Conn where
  options := o
  tones := { onLength := o.onLength, offLength := o.offLength }
  guard := { timeout := o.timeout }

/-- Neither closed nor disconnected: requests of the user still have an effect. -/
def isLive (k : Conn) : Bool := !k.closed && !k.phase.isTerminal

end Conn

/-- A connection's state as shown to the outside. -/
structure Snapshot where
  phase : Phase
  direction : Direction
  bearer : Bearer
  waiting : Bool
  queued : Nat
  confirmationPending : Bool
  timerArmed : Bool
  timeCorrected : Bool
  cause : Option Cause
  capabilities : Capabilities
  closed : Bool
  deriving DecidableEq, Repr

end CdmaCall
