import CdmaCall.Radio.Action

/-!
# Phones

The radio that serves call legs. It records every request, keeps the confirmations of bursts until
they are released or gives them by itself after a delay, and keeps the connections that want to
hear of line control records.
-/

namespace CdmaCall

/-- A radio. -/
structure Phone where
  id : Nat
  /-- The delay after which bursts are confirmed without being asked, if they are. -/
  confirmDelay : Option Nat := none
  /-- Whether a companion's signal path is held. -/
  holding : Bool := false
  /-- The senders of bursts whose confirmation is kept, oldest first. -/
  held : List ConnId := []
  /-- The connections subscribed to line control records, oldest first. -/
  subscribers : List ConnId := []
  actions : List Action := []
  deriving DecidableEq, Repr, Inhabited

namespace Phone

/-- Record a request. -/
def record (p : Phone) (a : Action) : Phone := { p with actions := p.actions ++ [a] }

/-- Record a request of connection `c`. The confirmation of a burst is kept, unless the phone gives
it by itself: then the delay is returned. -/
def perform (p : Phone) (c : ConnId) (a : Action) : Option Nat × Phone :=
  match a, p.confirmDelay with
  | .burst .., some delay => (some delay, p.record a)
  | .burst .., none => (none, { p.record a with held := p.held ++ [c] })
  | _, _ => (none, p.record a)

/-- Take the oldest kept confirmation. -/
def releaseBurst (p : Phone) : Option (ConnId × Phone) :=
  match p.held with
  | [] => none
  | c :: rest => some (c, { p with held := rest })

/-- Subscribe a connection to line control records; it is listed once. -/
def register (p : Phone) (c : ConnId) : Phone :=
  { p.record (.register c) with subscribers := p.subscribers.filter (· != c) ++ [c] }

/-- End the subscription of a connection. -/
def unregister (p : Phone) (c : ConnId) : Phone :=
  { p.record (.unregister c) with subscribers := p.subscribers.filter (· != c) }

/-- The texts of the bursts sent. -/
def bursts (p : Phone) : List (List Char) :=
  p.actions.filterMap fun | .burst digits _ _ => some digits | _ => none

/-- The on and off lengths of the bursts sent. -/
def burstLengths (p : Phone) : List (Nat × Nat) :=
  p.actions.filterMap fun | .burst _ on off => some (on, off) | _ => none

/-- The continuous tones started. -/
def startedTones (p : Phone) : List Char :=
  p.actions.filterMap fun | .startTone d => some d | _ => none

/-- How often `a` was requested. -/
def count (p : Phone) (a : Action) : Nat := p.actions.countP (· == a)

end Phone

end CdmaCall
