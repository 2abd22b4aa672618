import CdmaCall.Clock
import CdmaCall.Event

/-!
# Event dispatch

A mailbox together with the timers that post into it. Confirmations and line control records post
at once; a timer posts when its deadline comes, unless it was cancelled or the dispatcher was shut
down before.
-/

namespace CdmaCall

/-- A mailbox, its timers, and the handles of those that were cancelled. -/
structure Dispatcher where
  clock : Clock Event := {}
  mailbox : Mailbox := {}
  cancelled : List Nat := []
  deriving DecidableEq, Repr

namespace Dispatcher

/-- Post `e` after `delay`. The handle of the timer is returned. -/
def postDelayed (d : Dispatcher) (e : Event) (delay : Nat) : Nat × Dispatcher :=
  (d.clock.nextId, { d with clock := d.clock.start delay e })

/-- Cancel a timer. -/
def cancel (d : Dispatcher) (timer : Nat) : Dispatcher :=
  { d with clock := d.clock.cancel timer, cancelled := timer :: d.cancelled }

/-- A timer counts as cancelled once it was, or once the dispatcher is shut down, whether or not
it had posted before. -/
def isCancelled (d : Dispatcher) (timer : Nat) : Bool :=
  d.mailbox.shutDown || d.cancelled.contains timer

/-- Post at once. -/
def post (d : Dispatcher) (e : Event) : Bool × Dispatcher :=
  let (taken, mailbox) := d.mailbox.post e
  (taken, { d with mailbox })

/-- Refuse events from now on; pending timers die with it. -/
def shutdown (d : Dispatcher) : Dispatcher := { d with mailbox := d.mailbox.shutdown }

/-- The receiver goes away. -/
def dropReceiver (d : Dispatcher) : Dispatcher := { d with mailbox := d.mailbox.dropReceiver }

/-- Move the clock to `limit`; timers that come due post on the way. -/
def advanceTo (d : Dispatcher) (limit : Nat) : Dispatcher :=
  let (due, clock) := d.clock.takeDue limit
  { d with clock, mailbox := due.foldl (fun m e => (m.post e).2) d.mailbox }

/-- Move the clock on by `ms`. -/
def advance (d : Dispatcher) (ms : Nat) : Dispatcher := d.advanceTo (d.clock.now + ms)

/-- Timers without delay post now. -/
def settle (d : Dispatcher) : Dispatcher := d.advanceTo d.clock.now

/-- Take the events that arrived. -/
def receive (d : Dispatcher) : List Event × Dispatcher :=
  let (events, mailbox) := d.mailbox.take
  (events, { d with mailbox })

/-- The requests a user of a dispatcher can make. -/
inductive Op where
  | postDelayed (event : Event) (delay : Nat)
  | cancel (timer : Nat)
  | confirm
  | notify
  | dropReceiver
  | advance (ms : Nat)
  | shutdown
  deriving DecidableEq, Repr

/-- What a request returns: a handle, whether an event was taken, or nothing. -/
inductive Reply where
  | done
  | handle (timer : Nat)
  | taken (yes : Bool)
  deriving DecidableEq, Repr

/-- The request itself. -/
def perform (d : Dispatcher) : Op → Reply × Dispatcher
  | .postDelayed e delay => let (t, d) := d.postDelayed e delay; (.handle t, d)
  | .cancel t => (.done, d.cancel t)
  | .confirm => let (b, d) := d.post .burstConfirmed; (.taken b, d)
  | .notify => let (b, d) := d.post .lineControl; (.taken b, d)
  | .dropReceiver => (.done, d.dropReceiver)
  | .advance ms => (.done, d.advance ms)
  | .shutdown => (.done, d.shutdown)

/-- A request, and then the timers without delay. -/
def step (d : Dispatcher) (op : Op) : Reply × Dispatcher :=
  let (reply, d) := d.perform op
  (reply, d.settle)

end Dispatcher

end CdmaCall
