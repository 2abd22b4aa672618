import CdmaCall.Connection.Basic
import CdmaCall.Radio.Phone
import CdmaCall.Radio.Player

/-!
# What a connection does

A `Scene` is one connection together with all that it can reach: its leg and the leg's phone, the
cue player, the clock, and the settings it reads. Every request and every event of a connection is
a function on its scene.
-/

namespace CdmaCall

/-- An event on its way to a connection. -/
structure Delivery where
  target : ConnId
  event : Event
  deriving DecidableEq, Repr

/-- A connection and its surroundings. -/
structure Scene where
  id : ConnId
  conn : Conn
  leg : Option Leg
  phone : Option Phone
  player : Option CuePlayer
  clock : Clock Delivery
  toneType : Option ToneType
  emergency : EmergencyNumbers
  deriving DecidableEq, Repr

namespace Scene

/-! ### What a connection sees -/

/-- Without a leg the bearer counts as circuit switched. -/
def bearer (s : Scene) : Bearer := (s.leg.map (·.bearer)).getD .circuitSwitched

/-- Whether the leg is carried by packet voice. -/
def isPacketVoice (s : Scene) : Bool := s.bearer == .packetVoice

/-- Whether the leg waits behind another call. -/
def legWaits (s : Scene) : Bool := (s.leg.map (·.state)) == some .waiting

/-- Whether the leg has a phone and an emergency number as its address. -/
def isEmergency (s : Scene) : Bool :=
  match s.leg, s.phone with
  | some leg, some _ => s.emergency.classifies leg.address
  | _, _ => false

/-- How digits go out at present. -/
def toneMode (s : Scene) : ToneMode := ToneMode.select s.bearer s.toneType

/-- Calls can be held; packet voice can be merged; muting is an option. -/
def capabilities (s : Scene) : Capabilities :=
  let c := Capabilities.hold
  let c := if s.isPacketVoice then c.union .merge else c
  if s.conn.options.allowMute then c.union .mute else c

/-- The state as shown to the outside. -/
def snapshot (s : Scene) : Snapshot where
  phase := s.conn.phase
  direction := s.conn.options.direction
  bearer := s.bearer
  waiting := s.conn.waiting
  queued := s.conn.tones.queue.length
  confirmationPending := s.conn.tones.pending
  timerArmed := s.conn.guard.isArmed
  timeCorrected := s.conn.correction.made
  cause := s.conn.cause
  capabilities := s.capabilities
  closed := s.conn.closed

/-! ### Steps shared by several requests -/

/-- Set whether the call counts as waiting. -/
def mark (s : Scene) (waiting : Bool) : Scene := { s with conn := { s.conn with waiting } }

/-- Set the phase. -/
def putPhase (s : Scene) (phase : Phase) : Scene := { s with conn := { s.conn with phase } }

/-- Set the cause. -/
def putCause (s : Scene) (cause : Cause) : Scene :=
  { s with conn := { s.conn with cause := some cause } }

/-- Set the state of the tones. -/
def putTones (s : Scene) (tones : Transmitter) : Scene := { s with conn := { s.conn with tones } }

/-- Set the call waiting guard. -/
def putGuard (s : Scene) (guard : Guard) : Scene := { s with conn := { s.conn with guard } }

/-- Set the mailbox. -/
def putMail (s : Scene) (mailbox : Mailbox) : Scene := { s with conn := { s.conn with mailbox } }

/-- Tell the layer above. -/
def notify (s : Scene) (n : Notice) : Scene :=
  { s with conn := { s.conn with notices := s.conn.notices ++ [⟨s.id, n⟩] } }

/-- Hand a request to the phone, if there is one. If the phone confirms bursts by itself, the
confirmation is on its way from now. -/
def perform (s : Scene) (a : Action) : Scene :=
  match s.phone with
  | none => s
  | some phone =>
    match phone.perform s.id a with
    | (none, phone) => { s with phone := some phone }
    | (some delay, phone) =>
      { s with phone := some phone, clock := s.clock.start delay ⟨s.id, .burstConfirmed⟩ }

/-- Hand on a request, if there is one. -/
def perform? (s : Scene) : Option Action → Scene
  | none => s
  | some a => s.perform a

/-- Cancel the call waiting deadline. -/
def disarm (s : Scene) : Scene :=
  let (_, guard, clock) := s.conn.guard.disarm s.clock
  { s.putGuard guard with clock }

/-- Set the call waiting deadline. -/
def arm (s : Scene) : Except Error Unit × Scene :=
  let (r, guard, clock) := s.conn.guard.arm s.clock fun n => ⟨s.id, .missed n⟩
  (r, { s.putGuard guard with clock })

/-- Ask the network to release the leg. -/
def hangUp (s : Scene) : Except Error Unit × Scene :=
  match s.leg with
  | none => (.ok (), s)
  | some leg => let (r, leg) := leg.hangUp; (r, { s with leg := some leg })

/-- The cue plays while an emergency call dials; any other phase stops it. -/
def cue (s : Scene) (p : Phase) : Scene :=
  match s.player with
  | none => s
  | some player =>
    if p == .dialing then
      if s.isEmergency then { s with player := some player.start } else s
    else { s with player := some player.stop }

/-! ### Phases -/

/-- The lifecycle went to phase `p`. A disconnected connection stays disconnected. -/
def enter (s : Scene) (p : Phase) : Scene :=
  if s.conn.isLive then
    (((s.mark (!p.isTerminal && s.legWaits)).cue p).putPhase p).notify (.entered p)
  else s

/-- Go to phase `p`, unless it is the present one. -/
def setPhase (s : Scene) (p : Phase) : Scene := if s.conn.phase == p then s else s.enter p

/-- End the call. The first cause stands. -/
def disconnect (s : Scene) (cause : Cause) : Scene :=
  if s.conn.phase.isTerminal then s
  else ((s.disarm.putCause cause).setPhase .disconnected).notify (.disconnected cause)

/-- The phase that follows from the state of a leg. While the network has nothing to report the
phase stays, and a leg that is gone disconnects instead. -/
def phaseOf : LegState → Option Phase
  | .idle | .disconnecting | .disconnected => none
  | .active => some .active
  | .holding => some .holding
  | .dialing | .alerting => some .dialing
  | .incoming | .waiting => some .ringing

/-- Follow the state of the leg. -/
def update (s : Scene) : Scene :=
  if s.conn.isLive then
    match s.leg with
    | none => s
    | some leg =>
      let s := s.mark (leg.state == .waiting)
      if leg.state == .disconnected then s.disconnect .normal
      else match phaseOf leg.state with
        | none => s
        | some p => s.setPhase p
  else s

/-- Show a call as dialing, or go back to what the leg says. -/
def forceDialing (s : Scene) (dialing : Bool) : Scene :=
  if dialing then s.setPhase .dialing else s.update

/-! ### Tones -/

/-- Play a digit. Without a phone a valid digit is dropped. -/
def playTone (s : Scene) (c : Char) : Except Error Unit × Scene :=
  if s.conn.closed then (.ok (), s)
  else match Keypad.digit c with
  | .error e => (.error e, s)
  | .ok digit =>
    match s.phone with
    | none => (.ok (), s)
    | some phone =>
      let (_, tones, action) := s.conn.tones.play s.toneMode phone.holding digit
      (.ok (), (s.putTones tones).perform? action)

/-- Stop a continuous tone. -/
def stopTone (s : Scene) : Scene :=
  if s.conn.closed then s else s.perform? (Transmitter.stop s.toneMode)

/-- Play and stop one digit after the other, up to the first that is refused. -/
def pressKeys (s : Scene) : List Char → Except Error Unit × Scene
  | [] => (.ok (), s)
  | c :: cs =>
    match s.playTone c with
    | (.error e, s) => (.error e, s)
    | (.ok _, s) => s.stopTone.pressKeys cs

/-! ### Answering and rejecting -/

/-- Hang up, and disconnect whether or not the network agreed. -/
def hangUpAndDisconnect (s : Scene) (cause : Cause) : Scene := s.hangUp.2.disconnect cause

/-- Clear a waiting call: its deadline is void. -/
def clearWaiting (s : Scene) (cause : Cause) : Scene :=
  let s := s.disarm
  match s.leg with
  | none => s
  | some _ => s.hangUpAndDisconnect cause

/-- Refuse the call. A ringing leg that hangs up reports that itself later. -/
def reject (s : Scene) : Scene :=
  if s.conn.isLive then
    match s.leg with
    | none => s.disconnect .localClearing
    | some leg =>
      match leg.state with
      | .incoming =>
        match s.hangUp with
        | (.ok _, s) => s
        | (.error _, s) => s.disconnect .incomingRejected
      | .waiting => s.clearWaiting .incomingRejected
      | _ => s.hangUpAndDisconnect .localClearing
  else s

/-- Take the call. The deadline is void before the network is asked. -/
def answer (s : Scene) : Scene :=
  if s.conn.isLive then
    let s := s.disarm
    if (s.leg.map (·.refusesAccept)).getD false then s else s.perform .accept
  else s

/-! ### Binding -/

/-- Hear of line control records. -/
def register (s : Scene) : Scene := { s with phone := s.phone.map (·.register s.id) }

/-- Hear of line control records no more. -/
def unregister (s : Scene) : Scene := { s with phone := s.phone.map (·.unregister s.id) }

/-- Drop the leg, the tones and the deadline, and refuse events. -/
def close (s : Scene) : Scene :=
  if s.conn.closed then s
  else
    let s := s.unregister
    let s := { s with player := s.player.map CuePlayer.stop }
    let s := s.disarm
    { s with conn := { s.conn with
        tones := s.conn.tones.discard.2
        correction := s.conn.correction.reset
        mailbox := s.conn.mailbox.shutdown
        leg := none
        closed := true } }.notify .closed

/-- Merge with another call. Only packet voice can. -/
def conference (s : Scene) : Bool × Scene :=
  if !s.conn.closed && s.isPacketVoice && s.phone.isSome &&
      !(s.leg.map (·.refusesConference)).getD false then
    (true, s.perform .conference)
  else (false, s)

/-! ### Events -/

/-- The outstanding burst was confirmed. -/
def onBurstConfirmed (s : Scene) : Scene :=
  let (_, tones, action) := s.conn.tones.confirmed s.phone.isSome
  (s.putTones tones).perform? action

/-- A line control record arrived. -/
def onLineControl (s : Scene) : Scene :=
  match s.leg with
  | none => s
  | some leg =>
    let (_, correction, leg) := s.conn.correction.onRecord leg s.clock.now
    { s with conn := { s.conn with correction }, leg := some leg }

/-- A call waiting deadline was delivered. -/
def onMissed (s : Scene) (generation : Nat) : Scene :=
  match s.conn.guard.expire generation with
  | (true, guard) => (s.putGuard guard).clearWaiting .incomingMissed
  | (false, _) => s

/-- Handle an event. A closed connection ignores it. -/
def handle (s : Scene) (e : Event) : Scene :=
  if s.conn.closed then s
  else match e with
  | .missed generation => s.onMissed generation
  | .burstConfirmed => s.onBurstConfirmed
  | .lineControl => s.onLineControl

/-- Take the first event that waits, if there is one, and handle it. -/
def fetch (s : Scene) : Scene :=
  match s.conn.mailbox.waiting with
  | [] => s
  | e :: rest => (s.putMail { s.conn.mailbox with waiting := rest }).handle e

/-- Handle the events that wait, one after the other. -/
def drain (s : Scene) : List Event × Scene :=
  (s.conn.mailbox.waiting, s.conn.mailbox.waiting.foldl (fun s _ => s.fetch) s)

/-- An event arrives, if it is taken: it waits in the mailbox, and a driven connection handles at
once what waits there. Returns whether it was taken. -/
def receive (s : Scene) (e : Event) : Bool × Scene :=
  if s.conn.mailbox.accepts then
    let s := s.putMail (s.conn.mailbox.post e).2
    (true, if s.conn.driven then s.drain.2 else s)
  else (false, s)

/-- Handle events as they arrive from now on, those that wait first. A closed connection has
nothing left to handle. -/
def drive (s : Scene) : Scene :=
  if s.conn.driven then s
  else
    let s := { s with conn := { s.conn with driven := true } }
    if s.conn.mailbox.shutDown then s.putMail s.conn.mailbox.dropReceiver else s.drain.2

end Scene

end CdmaCall
