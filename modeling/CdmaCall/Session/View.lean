import CdmaCall.Session.Op

/-!
# What a session shows

Views of connections, legs, phones and the cue player, and what a request changed in them.
-/

namespace CdmaCall

/-- Whether events are handled as they arrive. -/
inductive LoopState where
  | none | running | finished
  deriving DecidableEq, Repr, Inhabited

instance : Named LoopState where
  all := [.none, .running, .finished]
  name
    | .none => "none"
    | .running => "running"
    | .finished => "finished"

/-- View of a connection. -/
structure ConnView where
  snapshot : Snapshot
  emergency : Bool
  packetVoice : Bool
  bound : Bool
  loop : LoopState
  deriving DecidableEq, Repr

/-- View of a leg. -/
structure LegView where
  state : LegState
  hangups : Nat
  timeResets : Nat
  duration : Nat
  deriving DecidableEq, Repr

/-- View of a phone. -/
structure PhoneView where
  held : Nat
  subscribers : Nat
  deriving DecidableEq, Repr

/-- Something a session shows. -/
inductive View where
  | conn (c : ConnId) (v : ConnView)
  | leg (l : LegId) (v : LegView)
  | phone (p : PhoneId) (v : PhoneView)
  | player (p : CuePlayer)
  deriving DecidableEq, Repr

/-- The driving loop of a connection. It ends when the connection is closed. -/
def Conn.loopState (k : Conn) : LoopState :=
  if !k.driven then .none else if k.closed then .finished else .running

/-- View of the connection of a scene. -/
def Scene.view (s : Scene) : ConnView where
  snapshot := s.snapshot
  emergency := s.isEmergency
  packetVoice := s.isPacketVoice
  bound := s.conn.leg.isSome
  loop := s.conn.loopState

/-- View of a leg at a time. -/
def Leg.view (l : Leg) (now : Nat) : LegView :=
  ⟨l.state, l.hangups, l.timeResets, l.duration now⟩

/-- View of a phone. -/
def Phone.view (p : Phone) : PhoneView := ⟨p.held.length, p.subscribers.length⟩

namespace World

/-- Everything there is to see. -/
def views (w : World) : List View :=
  ((List.range w.conns.length).filterMap fun c => (w.scene? c).map fun s => .conn c s.view) ++
  (w.legs.mapIdx fun l leg => .leg l (leg.view w.clock.now)) ++
  (w.phones.mapIdx fun p phone => .phone p phone.view) ++
  (w.player.toList.map .player)

/-- The views that are not as they were before. -/
def changes (before after : List View) : List View := after.filter (!before.contains ·)

/-- The requests that phones received since `before`, phone by phone. -/
def newActions (before after : World) : List (PhoneId × Action) :=
  (after.phones.mapIdx fun p phone =>
    (phone.actions.drop ((before.phones[p]?.map (·.actions.length)).getD 0)).map
      fun a => (p, a)).flatten

/-- The notices that connections gave since `before`, connection by connection. -/
def newNotices (before after : World) : List (ConnId × Notice) :=
  (after.conns.mapIdx fun c k =>
    (k.notices.drop ((before.conns[c]?.map (·.notices.length)).getD 0)).map
      fun n => (n.connection, n.notice)).flatten

/-- For each connection, whether it is subscribed at a phone. -/
def registrations (w : World) (p : Phone) : List Bool :=
  (List.range w.conns.length).map p.subscribers.contains

end World

/-- What one request returned and changed. -/
structure Report where
  reply : Reply
  changed : List View
  actions : List (PhoneId × Action)
  notices : List (ConnId × Notice)
  deriving DecidableEq, Repr

namespace World

/-- Run requests and report on each; `seen` are the views shown last. -/
def report (w : World) (seen : List View) : List Op → List Report × World
  | [] => ([], w)
  | op :: ops =>
    let (reply, after) := w.step op
    let views := after.views
    let r : Report := ⟨reply, changes seen views, w.newActions after, w.newNotices after⟩
    let (rs, w) := after.report views ops
    (r :: rs, w)

end World

end CdmaCall
