import CdmaCall.World.Time

/-!
# Sessions

The requests that users, network and platform make of a world, one at a time. Whatever a request
makes ready runs before the next one.
-/

namespace CdmaCall

/-- A request. -/
inductive Op where
  | connect (leg : Option LegId) (options : Options)
  | advance (ms : Nat)
  | toneType (preferred : Option ToneType)
  | legState (leg : LegId) (state : LegState)
  | refuseHangup (leg : LegId) (yes : Bool)
  | hangUpLeg (leg : LegId)
  | hold (phone : PhoneId) (active : Bool)
  | confirm (phone : PhoneId)
  | broadcast (phone : PhoneId)
  | play (c : ConnId) (digit : Char)
  | keys (c : ConnId) (digits : List Char)
  | stop (c : ConnId)
  | reject (c : ConnId)
  | answer (c : ConnId)
  | update (c : ConnId)
  | close (c : ConnId)
  | enter (c : ConnId) (phase : Phase)
  | forceDialing (c : ConnId) (dialing : Bool)
  | rebind (c : ConnId) (leg : LegId)
  | handle (c : ConnId) (event : Event)
  | cloneConn (c : ConnId)
  | conference (c other : ConnId)
  | drain (c : ConnId)
  | drive (c : ConnId)
  deriving DecidableEq, Repr

/-- What a request returns. -/
inductive Reply where
  | done
  | made (c : ConnId)
  | flag (yes : Bool)
  | count (n : Nat)
  | events (es : List Event)
  | refused (e : Error)
  deriving DecidableEq, Repr

namespace Reply

/-- The reply to a request that can only be refused. -/
def ofResult : Except Error Unit → Reply
  | .ok _ => .done
  | .error e => .refused e

end Reply

namespace World

/-- The request itself. -/
def perform (w : World) : Op → Reply × World
  | .connect leg o =>
    match w.connect leg o with
    | (.ok c, w) => (.made c, w)
    | (.error e, w) => (.refused e, w)
  | .advance ms => (.done, w.advance ms)
  | .toneType t => (.done, { w with toneType := t })
  | .legState l s => (.done, w.setLegState l s)
  | .refuseHangup l yes => (.done, w.setRefusesHangup l yes)
  | .hangUpLeg l => let (r, w) := w.hangUpLeg l; (.ofResult r, w)
  | .hold p active => (.done, w.setHold p active)
  | .confirm p => let (yes, w) := w.confirmBurst p; (.flag yes, w)
  | .broadcast p => let (n, w) := w.broadcast p; (.count n, w)
  | .play c d => let (r, w) := w.inScene c (.ok ()) (·.playTone d); (.ofResult r, w)
  | .keys c ds => let (r, w) := w.inScene c (.ok ()) (·.pressKeys ds); (.ofResult r, w)
  | .stop c => (.done, w.onScene c Scene.stopTone)
  | .reject c => (.done, w.onScene c Scene.reject)
  | .answer c => (.done, w.onScene c Scene.answer)
  | .update c => (.done, w.onScene c Scene.update)
  | .close c => (.done, w.onScene c Scene.close)
  | .enter c p => (.done, w.onScene c (·.enter p))
  | .forceDialing c dialing => (.done, w.onScene c (·.forceDialing dialing))
  | .rebind c l => (.done, w.rebind c l)
  | .handle c e => (.done, w.onScene c (·.handle e))
  | .cloneConn c =>
    match w.cloneConn c with
    | none => (.done, w)
    | some (c, w) => (.made c, w)
  | .conference c _ => let (yes, w) := w.inScene c false Scene.conference; (.flag yes, w)
  | .drain c => let (es, w) := w.inScene c [] Scene.drain; (.events es, w)
  | .drive c => (.done, w.onScene c Scene.drive)

/-- A request, and then all that it made ready. -/
def step (w : World) (op : Op) : Reply × World :=
  let (r, w) := w.perform op
  (r, w.settle)

/-- One request after the other. -/
def run (w : World) : List Op → List Reply × World
  | [] => ([], w)
  | op :: ops =>
    let (r, w) := w.step op
    let (rs, w) := w.run ops
    (r :: rs, w)

end World

end CdmaCall
