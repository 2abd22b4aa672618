import CdmaCall.Call.State

/-!
# Protocol events and mailboxes

Deadlines, burst confirmations and line control records reach a connection as events, through a
mailbox that keeps them in the order of arrival.
-/

namespace CdmaCall

/-- What a connection is told by timers and by the network. -/
inductive Event where
  /-- The call waiting deadline armed as `generation` has passed. -/
  | missed (generation : Nat)
  /-- The network took the outstanding burst. -/
  | burstConfirmed
  /-- A line control information record arrived. -/
  | lineControl
  deriving DecidableEq, Repr, Inhabited

/-- Events that wait for their receiver. -/
structure Mailbox where
  waiting : List Event := []
  shutDown : Bool := false
  receiverGone : Bool := false
  deriving DecidableEq, Repr, Inhabited

namespace Mailbox

/-- Whether events are still taken in: until the shutdown, and while there is a receiver. -/
def accepts (m : Mailbox) : Bool := !m.shutDown && !m.receiverGone

/-- Put an event in, and say whether it was taken. -/
def post (m : Mailbox) (e : Event) : Bool × Mailbox :=
  if m.accepts then (true, { m with waiting := m.waiting ++ [e] }) else (false, m)

/-- Take everything out. -/
def take (m : Mailbox) : List Event × Mailbox := (m.waiting, { m with waiting := [] })

/-- Refuse events from now on. -/
def shutdown (m : Mailbox) : Mailbox := { m with shutDown := true }

/-- The receiver goes away, and with it what waits. -/
def dropReceiver (m : Mailbox) : Mailbox := { m with waiting := [], receiverGone := true }

end Mailbox

end CdmaCall
