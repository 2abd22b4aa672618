import CdmaCall.Clock
import CdmaCall.Event

/-!
# Call waiting guard

The network does not say when a waiting call was given up. The guard stands in for it: a waiting
call that is not answered within the timeout counts as missed. Every deadline has a generation of
its own, so one that is delivered late, after the guard was disarmed or armed again, is told apart.
-/

namespace CdmaCall

/-- The deadline that the guard waits for, and its timer. -/
structure Deadline where
  generation : Nat
  timer : Nat
  deriving DecidableEq, Repr, Inhabited

/-- Holds at most one deadline. -/
structure Guard where
  timeout : Nat
  generation : Nat := 0
  armed : Option Deadline := none
  deriving DecidableEq, Repr, Inhabited

namespace Guard

variable {α : Type}

/-- Time that a waiting call may stay unanswered unless configured otherwise, in milliseconds. -/
def standardTimeout : Nat := 20000

/-- Whether a deadline is set. -/
def isArmed (g : Guard) : Bool := g.armed.isSome

/-- Cancel the deadline. Returns whether there was one. -/
def disarm (g : Guard) (clock : Clock α) : Bool × Guard × Clock α :=
  match g.armed with
  | none => (false, g, clock)
  | some d => (true, { g with armed := none }, clock.cancel d.timer)

/-- The error for a timer that nothing would run. -/
def noTimers : Error := .invalidState <|
  "No runtime for timer: there is no reactor running, " ++
  "must be called from the context of a Tokio 1.x runtime"

/-- Set a deadline of the next generation in place of an earlier one. `job` is what its timer
carries. -/
def arm (g : Guard) (clock : Clock α) (job : Nat → α) : Except Error Unit × Guard × Clock α :=
  let (_, g, clock) := g.disarm clock
  let g := { g with generation := g.generation + 1 }
  if clock.running then
    (.ok (), { g with armed := some ⟨g.generation, clock.nextId⟩ },
      clock.start g.timeout (job g.generation))
  else (.error noTimers, g, clock)

/-- A deadline was delivered. It counts, once, if it is the one that is set. -/
def expire (g : Guard) (generation : Nat) : Bool × Guard :=
  match g.armed with
  | some d => if d.generation == generation then (true, { g with armed := none }) else (false, g)
  | none => (false, g)

end Guard

/-- A guard with a dispatcher of its own. -/
structure GuardBench where
  guard : Guard
  clock : Clock Event := {}
  mailbox : Mailbox := {}
  deriving DecidableEq, Repr

namespace GuardBench

/-- The requests that concern a guard and its dispatcher. -/
inductive Op where
  | arm
  | disarm
  | expire (generation : Nat)
  | advance (ms : Nat)
  | shutdown
  | receive
  deriving DecidableEq, Repr

/-- What a request returns. -/
inductive Reply where
  | done
  | flag (yes : Bool)
  | delivered (deadlines : List (Nat × Bool))
  | refused (e : Error)
  deriving DecidableEq, Repr

/-- Move the clock to `limit`; deadlines that come due are posted. -/
def advanceTo (b : GuardBench) (limit : Nat) : GuardBench :=
  let (due, clock) := b.clock.takeDue limit
  { b with clock, mailbox := due.foldl (fun m e => (m.post e).2) b.mailbox }

/-- Offer delivered deadlines to the guard, one after the other. -/
def offer (g : Guard) : List Event → List (Nat × Bool) × Guard
  | [] => ([], g)
  | .missed n :: rest =>
    let (yes, g) := g.expire n
    let (answers, g) := offer g rest
    ((n, yes) :: answers, g)
  | _ :: rest => offer g rest

/-- The request itself. -/
def perform (b : GuardBench) : Op → Reply × GuardBench
  | .arm =>
    match b.guard.arm b.clock .missed with
    | (.ok _, guard, clock) => (.done, { b with guard, clock })
    | (.error e, guard, clock) => (.refused e, { b with guard, clock })
  | .disarm =>
    let (yes, guard, clock) := b.guard.disarm b.clock
    (.flag yes, { b with guard, clock })
  | .expire n => let (yes, guard) := b.guard.expire n; (.flag yes, { b with guard })
  | .advance ms => (.done, b.advanceTo (b.clock.now + ms))
  | .shutdown => (.done, { b with mailbox := b.mailbox.shutdown })
  | .receive =>
    let (events, mailbox) := b.mailbox.take
    let (answers, guard) := offer b.guard events
    (.delivered answers, { b with guard, mailbox })

/-- A request, and then the deadlines without delay. -/
def step (b : GuardBench) (op : Op) : Reply × GuardBench :=
  let (reply, b) := b.perform op
  (reply, b.advanceTo b.clock.now)

end GuardBench

end CdmaCall
