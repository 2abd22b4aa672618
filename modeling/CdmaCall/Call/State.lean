import CdmaCall.Named

/-!
# Calls: identities, phases and causes

The lifecycle of a connection (`Phase`), the state that the network reports for the leg under it
(`LegState`), why a connection ended (`Cause`) and what it tells the layer above (`Notice`).
-/

namespace CdmaCall

/-- Connections are numbered in the order of their creation. -/
abbrev ConnId := Nat

/-- Who placed the call, seen from the local subscriber. -/
inductive Direction where
  | incoming | outgoing
  deriving DecidableEq, Repr, Inhabited

/-- Lifecycle of a connection. -/
inductive Phase where
  | new | dialing | ringing | active | holding | disconnected
  deriving DecidableEq, Repr, Inhabited

/-- State of a call leg as the network reports it. -/
inductive LegState where
  | idle | active | holding | dialing | alerting | incoming | waiting | disconnected | disconnecting
  deriving DecidableEq, Repr, Inhabited

/-- Why a connection reached `Phase.disconnected`. -/
inductive Cause where
  | normal | localClearing | incomingMissed | incomingRejected
  deriving DecidableEq, Repr, Inhabited

/-- Transport that carries a leg. -/
inductive Bearer where
  | circuitSwitched | packetVoice
  deriving DecidableEq, Repr, Inhabited

/-- What a connection tells the layer above it. -/
inductive Notice where
  | entered (phase : Phase)
  | disconnected (cause : Cause)
  | closed
  deriving DecidableEq, Repr, Inhabited

/-- A notice, and the connection that it is about. -/
structure Notification where
  connection : ConnId
  notice : Notice
  deriving DecidableEq, Repr, Inhabited

instance : Named Direction where
  all := [.incoming, .outgoing]
  name
    | .incoming => "incoming"
    | .outgoing => "outgoing"

instance : Named Phase where
  all := [.new, .dialing, .ringing, .active, .holding, .disconnected]
  name
    | .new => "new"
    | .dialing => "dialing"
    | .ringing => "ringing"
    | .active => "active"
    | .holding => "holding"
    | .disconnected => "disconnected"

instance : Named LegState where
  all := [.idle, .active, .holding, .dialing, .alerting, .incoming, .waiting, .disconnected,
    .disconnecting]
  name
    | .idle => "idle"
    | .active => "active"
    | .holding => "holding"
    | .dialing => "dialing"
    | .alerting => "alerting"
    | .incoming => "incoming"
    | .waiting => "waiting"
    | .disconnected => "disconnected"
    | .disconnecting => "disconnecting"

instance : Named Cause where
  all := [.normal, .localClearing, .incomingMissed, .incomingRejected]
  name
    | .normal => "normal"
    | .localClearing => "local"
    | .incomingMissed => "incoming_missed"
    | .incomingRejected => "incoming_rejected"

instance : Named Bearer where
  all := [.circuitSwitched, .packetVoice]
  name
    | .circuitSwitched => "circuit_switched"
    | .packetVoice => "packet_voice"

/-- `Phase.disconnected` is final. -/
def Phase.isTerminal (p : Phase) : Bool := p == .disconnected

/-- The phase in capitals, for logs and terminals. -/
def Phase.label : Phase → String
  | .new => "NEW"
  | .dialing => "DIALING"
  | .ringing => "RINGING"
  | .active => "ACTIVE"
  | .holding => "HOLDING"
  | .disconnected => "DISCONNECTED"

/-- The state with a capital letter. -/
def LegState.label : LegState → String
  | .idle => "Idle"
  | .active => "Active"
  | .holding => "Holding"
  | .dialing => "Dialing"
  | .alerting => "Alerting"
  | .incoming => "Incoming"
  | .waiting => "Waiting"
  | .disconnected => "Disconnected"
  | .disconnecting => "Disconnecting"

/-- The cause in words. -/
def Cause.description : Cause → String
  | .normal => "normal clearing"
  | .localClearing => "local disconnect"
  | .incomingMissed => "incoming call missed"
  | .incomingRejected => "incoming call rejected"

end CdmaCall
