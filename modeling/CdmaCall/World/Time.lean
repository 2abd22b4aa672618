import CdmaCall.World.Basic

/-!
# The passing of time

Timers come due one after the other, each at its own deadline, and what they trigger may start
further timers. A timer is started that way only when a confirmation flushes a queue, so there are
never more than `workload` of them to come.
-/

namespace CdmaCall

namespace World

/-- How many timers can still come due if nobody asks for anything: those that wait, and one for
each queue that a confirmation can flush. -/
def workload (w : World) : Nat :=
  w.clock.pending.length + w.conns.countP (!·.tones.queue.isEmpty)

/-- Let up to `fuel` timers come due, then set the clock to `limit`. -/
def runTimers (limit : Nat) : Nat → World → World
  | 0, w => { w with clock := { w.clock with now := limit } }
  | fuel + 1, w =>
    match w.clock.next? limit with
    | none => { w with clock := { w.clock with now := limit } }
    | some (d, clock) => runTimers limit fuel ({ w with clock }.deliver d).2

/-- Move the clock to `limit`. -/
def advanceTo (w : World) (limit : Nat) : World := runTimers limit w.workload w

/-- Move the clock on by `ms`. -/
def advance (w : World) (ms : Nat) : World := w.advanceTo (w.clock.now + ms)

/-- Let timers without delay come due. -/
def settle (w : World) : World := w.advanceTo w.clock.now

/-- Wait for `ms`, as someone does who is at the front when the time is over: the timers due at the
very end have not come due yet. -/
def wait (w : World) (ms : Nat) : World :=
  match Clock.bounded ms with
  | 0 => w
  | n + 1 =>
    let w := w.advance n
    { w with clock := { w.clock with now := w.clock.now + 1 } }

end World

end CdmaCall
