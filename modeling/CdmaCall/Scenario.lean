import CdmaCall.Session.View
import CdmaCall.Transcript

/-!
# Scenarios

Five scripted calls. Each has one phone, one leg and one connection, which handles its events as
they arrive. Time is virtual, and passes only while the script waits.
-/

namespace CdmaCall

/-- A scripted call. -/
inductive Scenario where
  /-- Rapid key presses over a circuit switched call. -/
  | burstDtmf
  /-- A waiting call that nobody answers. -/
  | callWaitingMissed
  /-- A waiting call that is answered before the deadline. -/
  | callWaitingAnswered
  /-- An emergency number is dialled, and the far end answers. -/
  | emergencyDial
  /-- Repeated line control records on an active call. -/
  | lineControl
  deriving DecidableEq, Repr, Inhabited

instance : Named Scenario where
  all := [.burstDtmf, .callWaitingMissed, .callWaitingAnswered, .emergencyDial, .lineControl]
  name
    | .burstDtmf => "burst-dtmf"
    | .callWaitingMissed => "call-waiting-missed"
    | .callWaitingAnswered => "call-waiting-answered"
    | .emergencyDial => "emergency-dial"
    | .lineControl => "line-control"

namespace Scenario

/-- The heading of a scenario. -/
def title : Scenario → String
  | .burstDtmf => "BurstDtmf"
  | .callWaitingMissed => "CallWaitingMissed"
  | .callWaitingAnswered => "CallWaitingAnswered"
  | .emergencyDial => "EmergencyDial"
  | .lineControl => "LineControl"

/-- The one connection of a scenario. -/
def call : ConnId := 0

/-- The one leg of a scenario. -/
def callLeg : LegId := 0

/-- The one phone of a scenario. -/
def callPhone : PhoneId := 0

/-! ### Running -/

/-- A scenario so far: the state of everything, and what was shown. -/
structure Run where
  world : World
  shown : List Line := []
  deriving DecidableEq, Repr

namespace Run

/-- The world goes on to `world`. The notices that were given on the way are shown. -/
def goTo (r : Run) (world : World) : Run :=
  { world, shown := r.shown ++ (r.world.newNotices world).map fun (c, n) => .notice c n }

/-- Make requests. -/
def act (r : Run) (ops : List Op) : Run := r.goTo (r.world.run ops).2

/-- Wait. When the time is over the script goes on before anything else that is due then. -/
def pause (r : Run) (ms : Nat) : Run := r.goTo (r.world.wait ms)

/-- Show a line. -/
def say (r : Run) (text : String) : Run := { r with shown := r.shown ++ [.plain text] }

/-- Whether the network has yet to confirm a burst. -/
def awaitsConfirmation (r : Run) : Bool :=
  ((r.world.conns[call]?).map (·.tones.pending)).getD false

/-- Pause again and again, up to `fuel` times, while a confirmation is awaited. -/
def pauseWhileAwaiting (ms : Nat) : Nat → Run → Run
  | 0, r => r
  | fuel + 1, r => if r.awaitsConfirmation then pauseWhileAwaiting ms fuel (r.pause ms) else r

/-- How many bursts the phone was asked for. -/
def bursts (r : Run) : Nat := ((r.world.phones[callPhone]?).map (·.bursts.length)).getD 0

/-- How often the network was asked to release the leg. -/
def hangups (r : Run) : Nat := ((r.world.legs[callLeg]?).map (·.hangups)).getD 0

/-- How often the connect time of the leg was corrected. -/
def timeResets (r : Run) : Nat := ((r.world.legs[callLeg]?).map (·.timeResets)).getD 0

/-- Whether the emergency cue is playing. -/
def cuePlaying (r : Run) : Bool := (r.world.player.map (·.playing)).getD false

end Run

/-- A connection is made on a leg that a phone serves. -/
def start (c : Config) (phone : Phone) (leg : Leg) (direction : Direction) : Run :=
  let world : World :=
    { toneType := c.dtmf.toneType
      emergency := ⟨c.numbers⟩
      phones := [phone]
      legs := [leg] }
  Run.act { world } [.connect (some callLeg) (.ofConfig c direction), .drive call]

/-- A call that was placed to `address`. -/
def placed (address : String) : Leg := .outgoing address (some callPhone)

/-- A call that was placed to `address` and has been answered. -/
def talking (address : String) : Leg := (placed address).setState 0 .active

/-- A call that waits behind another. -/
def waiting : Leg := .waiting "5550123" (some callPhone)

/-! ### The scripts -/

/-- The time a phone takes to confirm a burst. -/
def confirmTime : Nat := 150

/-- The keys pressed in `Scenario.burstDtmf`. -/
def keys : List Char := "18005550199#".toList

/-- Script of `Scenario.burstDtmf`. The script looks before a confirmation that is due at the same
time, so it waits once more than there are confirmations to come. -/
def burstDtmfRun (c : Config) : Run :=
  let phone : Phone := { id := 0, confirmDelay := some confirmTime }
  let r := (start c phone (talking "5550100") .outgoing).act [.keys call keys]
  let r := r.pauseWhileAwaiting confirmTime (r.world.workload + 1)
  r.say ("✓ " ++ toString r.bursts ++ " burst[s] for 12 key presses")

/-- Show how many hangups there were. -/
def sayHangups (r : Run) : Run := r.say ("✓ hangups sent: " ++ toString r.hangups)

/-- Script of `Scenario.callWaitingMissed`. -/
def callWaitingMissedRun (c : Config) : Run :=
  let ms := c.timeout.toNat
  let r := start c { id := 0 } waiting .incoming
  let r := r.say ("Waiting " ++ toString ms ++ " ms for the call waiting timeout")
  sayHangups (r.pause (ms + 100))

/-- Script of `Scenario.callWaitingAnswered`: half a timeout, rounded up, then the answer, and a
whole timeout. -/
def callWaitingAnsweredRun (c : Config) : Run :=
  let ms := c.timeout.toNat
  let r := (start c { id := 0 } waiting .incoming).pause ((ms + 1) / 2)
  let r := r.act [.answer call, .legState callLeg .active, .update call]
  sayHangups (r.pause ms)

/-- Script of `Scenario.emergencyDial`, for a number. -/
def emergencyDialRun (c : Config) (number : String) : Run :=
  let r := start c { id := 0 } (placed ("tel:" ++ number)) .outgoing
  let r := r.say ("Emergency tone playing while dialing: " ++ flagText r.cuePlaying)
  let r := (r.pause 500).act [.legState callLeg .active, .update call]
  r.say ("Emergency tone playing once answered: " ++ flagText r.cuePlaying)

/-- Script of `Scenario.lineControl`. -/
def lineControlRun (c : Config) : Run :=
  let r := start c { id := 0 } (talking "5550100") .outgoing
  let record (r : Run) : Run := (r.pause 250).act [.broadcast callPhone]
  let r := (record (record (record r))).pause 50
  r.say ("✓ connect time corrected " ++ toString r.timeResets ++ " time[s] for 3 records")

/-! ### The end of a scenario -/

/-- A scenario that has come to its end: the last state of the connection while it was open, and
everything after it was closed. -/
structure Ending where
  snapshot : Option Snapshot
  closed : Run
  deriving DecidableEq, Repr

/-- Look at the connection and close it. -/
def Run.finish (r : Run) : Ending :=
  { snapshot := (r.world.scene? call).map (·.snapshot), closed := r.act [.close call] }

/-- Run a scenario. Only the emergency call can be refused: it needs a number. -/
def play (c : Config) : Scenario → Except Error Ending
  | .burstDtmf => .ok (burstDtmfRun c).finish
  | .callWaitingMissed => .ok (callWaitingMissedRun c).finish
  | .callWaitingAnswered => .ok (callWaitingAnsweredRun c).finish
  | .emergencyDial =>
    match c.numbers with
    | [] => .error (.invalidState "No emergency numbers configured")
    | number :: _ => .ok (emergencyDialRun c number).finish
  | .lineControl => .ok (lineControlRun c).finish

namespace Ending

/-- What the phone was asked for, from the first request to the last. -/
def actions (e : Ending) : List Action :=
  ((e.closed.world.phones[callPhone]?).map (·.actions)).getD []

/-- The last state of the connection, a line for each thing. -/
def summary (s : Snapshot) : List Line :=
  [.plain "Connection",
    .plain ("  Id: " ++ Action.connName call),
    .plain ("  State: " ++ s.phase.label)] ++
  (s.cause.toList.map fun cause => .plain ("  Cause: " ++ cause.description)) ++
  [.plain ("  Queued tones: " ++ toString s.queued),
    .plain ("  Connect time corrected: " ++ flagText s.timeCorrected)]

/-- Everything there is to show: the course of the scenario, what the phone was asked for, and the
last state of the connection, in words or as JSON. -/
def transcript (e : Ending) (json : Bool) : List Line :=
  e.closed.shown ++ [.plain "", .plain "Network actions"] ++
  e.actions.map (fun a => .plain ("  " ++ a.describe)) ++ [.plain ""] ++
  match e.snapshot with
  | none => []
  | some s => if json then [.snapshot call s] else summary s

end Ending

end Scenario

end CdmaCall
