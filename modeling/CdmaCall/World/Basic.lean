import CdmaCall.Connection.Scene

/-!
# Connections, legs and phones together

A `World` holds everything that connections share. A request of one connection runs in its scene,
which is taken out of the world and put back; an event reaches the connection it is meant for.
-/

namespace CdmaCall

/-- Phones, legs, connections and what they share. -/
structure World where
  clock : Clock Delivery := {}
  toneType : Option ToneType := none
  emergency : EmergencyNumbers := ⟨Config.standard.numbers⟩
  phones : List Phone := []
  legs : List Leg := []
  player : Option CuePlayer := some {}
  conns : List Conn := []
  deriving DecidableEq, Repr

namespace World

/-! ### Scenes -/

/-- Where the leg of a connection is. -/
def legAt (w : World) (c : ConnId) : Option LegId := w.conns[c]?.bind (·.leg)

/-- Where the phone of a connection is. -/
def phoneAt (w : World) (c : ConnId) : Option PhoneId :=
  ((w.legAt c).bind (w.legs[·]?)).bind (·.phone)

/-- The scene of a connection. -/
def scene? (w : World) (c : ConnId) : Option Scene :=
  w.conns[c]?.map fun conn =>
    { id := c
      conn
      leg := (w.legAt c).bind (w.legs[·]?)
      phone := (w.phoneAt c).bind (w.phones[·]?)
      player := w.player
      clock := w.clock
      toneType := w.toneType
      emergency := w.emergency }

/-- Put `a` in the place `i`, if there is such a place and something to put there. -/
def place {α : Type} (xs : List α) (i : Option Nat) (a : Option α) : List α :=
  match i, a with
  | some i, some a => xs.set i a
  | _, _ => xs

/-- Put a scene of connection `c` back. -/
def putScene (w : World) (c : ConnId) (s : Scene) : World :=
  { w with
    clock := s.clock
    phones := place w.phones (w.phoneAt c) s.phone
    legs := place w.legs (w.legAt c) s.leg
    player := s.player
    conns := w.conns.set c s.conn }

/-- Do something in the scene of a connection; `default` is the answer if there is no such
connection. -/
def inScene {α : Type} (w : World) (c : ConnId) (default : α) (f : Scene → α × Scene) : α × World :=
  match w.scene? c with
  | none => (default, w)
  | some s => let (a, s) := f s; (a, w.putScene c s)

/-- Do something that has no answer in the scene of a connection. -/
def onScene (w : World) (c : ConnId) (f : Scene → Scene) : World :=
  match w.scene? c with
  | none => w
  | some s => w.putScene c (f s)

/-! ### Binding and construction -/

/-- Change which leg a connection is bound to. -/
def setLeg (w : World) (c : ConnId) (leg : LegId) : World :=
  { w with conns := w.conns.modify c fun k => { k with leg := some leg } }

/-- Bind a connection to a leg, if there is such a leg: the subscription moves to its phone, the
phase follows its state. -/
def bind (w : World) (c : ConnId) (leg : LegId) : World :=
  if leg < w.legs.length then
    ((w.onScene c .unregister).setLeg c leg).onScene c fun s => s.register.update
  else w

/-- Bind an open connection to another leg. -/
def rebind (w : World) (c : ConnId) (leg : LegId) : World :=
  match w.conns[c]? with
  | none => w
  | some k => if k.closed then w else w.bind c leg

/-- Make a connection. Its waiting flag is what the leg says at the end. -/
def build (w : World) (leg : Option LegId) (o : Options) : ConnId × World :=
  let c := w.conns.length
  let w := { w with conns := w.conns ++ [Conn.fresh o] }
  let w := match leg with
    | none => w
    | some leg => w.bind c leg
  (c, w.onScene c fun s => s.mark s.legWaits)

/-- Make a connection, and set the call waiting deadline if its leg is circuit switched and waits.
If that fails the connection is given up: nobody receives its events. -/
def connect (w : World) (leg : Option LegId) (o : Options) : Except Error ConnId × World :=
  let (c, w) := w.build leg o
  let (r, w) := w.inScene c (.ok ()) fun s =>
    if s.conn.waiting && !s.isPacketVoice then s.arm else (.ok (), s)
  match r with
  | .ok _ => (.ok c, w)
  | .error e => (.error e, w.onScene c fun s => s.putMail s.conn.mailbox.dropReceiver)

/-- Make another connection on the same leg with the same options and a state of its own. -/
def cloneConn (w : World) (c : ConnId) : Option (ConnId × World) :=
  w.conns[c]?.map fun k => w.build k.leg k.options

/-! ### Events -/

/-- An event arrives at a connection. Returns whether it was taken. -/
def deliver (w : World) (d : Delivery) : Bool × World :=
  w.inScene d.target false fun s => s.receive d.event

/-- A phone confirms the oldest burst whose confirmation it keeps. Returns whether there was
one. -/
def confirmBurst (w : World) (p : PhoneId) : Bool × World :=
  match w.phones[p]?.bind (·.releaseBurst) with
  | none => (false, w)
  | some (c, phone) =>
    (true, ({ w with phones := w.phones.set p phone }.deliver ⟨c, .burstConfirmed⟩).2)

/-- A line control record goes to every connection in a list. Returns how many took it. -/
def broadcastTo (w : World) : List ConnId → Nat × World
  | [] => (0, w)
  | c :: rest =>
    let (taken, w) := w.deliver ⟨c, .lineControl⟩
    let (n, w) := w.broadcastTo rest
    (if taken then n + 1 else n, w)

/-- A line control record arrives at a phone. Returns how many connections took it. -/
def broadcast (w : World) (p : PhoneId) : Nat × World :=
  w.broadcastTo ((w.phones[p]?.map (·.subscribers)).getD [])

/-! ### The network and the platform -/

/-- The network reports a state of a leg. -/
def setLegState (w : World) (l : LegId) (s : LegState) : World :=
  { w with legs := w.legs.modify l (·.setState w.clock.now s) }

/-- The network will, or will not, turn down requests to release a leg. -/
def setRefusesHangup (w : World) (l : LegId) (yes : Bool) : World :=
  { w with legs := w.legs.modify l fun leg => { leg with refusesHangup := yes } }

/-- Release a leg directly. -/
def hangUpLeg (w : World) (l : LegId) : Except Error Unit × World :=
  match w.legs[l]? with
  | none => (.ok (), w)
  | some leg => let (r, leg) := leg.hangUp; (r, { w with legs := w.legs.set l leg })

/-- Switch the local hold of a phone. -/
def setHold (w : World) (p : PhoneId) (active : Bool) : World :=
  { w with phones := w.phones.modify p fun phone => { phone with holding := active } }

end World

end CdmaCall
