import CdmaCall.Proofs.Connection.Effects

/-!
# What a deed makes of a connection's life

The `Standing` of a connection is its phase, its cause, whether it is closed, and the notices it has
given. A deed leaves it alone or takes one `Turn`: the connection enters a phase, ends with a cause
and tells both, or is closed (`turn_act`). Only a report of the end that comes from outside enters
`Phase.disconnected` without a cause.
-/

namespace CdmaCall

/-- Where the life of a connection stands, and what it has told of it. -/
structure Standing where
  phase : Phase := .new
  cause : Option Cause := none
  closed : Bool := false
  notices : List Notification := []
  deriving DecidableEq, Repr

/-- See `Standing`. -/
def Conn.standing (k : Conn) : Standing := ⟨k.phase, k.cause, k.closed, k.notices⟩

namespace Standing

variable {c : ConnId} {d : Deed} {t t' : Standing}

/-- The call has neither ended nor been closed. -/
def isLive (t : Standing) : Bool := !t.closed && !t.phase.isTerminal

/-- Connection `c` enters a phase, and tells it. -/
def enter (t : Standing) (c : ConnId) (p : Phase) : Standing :=
  { t with phase := p, notices := t.notices ++ [⟨c, .entered p⟩] }

/-- The call of connection `c` ends with a cause; the phase is told first. -/
def finish (t : Standing) (c : ConnId) (cause : Cause) : Standing :=
  { t.enter c .disconnected with
    cause := some cause
    notices := t.notices ++ [⟨c, .entered .disconnected⟩] ++ [⟨c, .disconnected cause⟩] }

/-- Connection `c` is closed, and tells it. -/
def shut (t : Standing) (c : ConnId) : Standing :=
  { t with closed := true, notices := t.notices ++ [⟨c, .closed⟩] }

/-- What the deed `d` can make of the standing of connection `c`. -/
inductive Turn (c : ConnId) (d : Deed) (t : Standing) : Standing → Prop
  | stay : Turn c d t t
  /-- The end is entered like any other phase only if the deed reports just that. -/
  | enter (p : Phase) (hlive : t.isLive = true) (hp : p.isTerminal = true → d = .enter p) :
      Turn c d t (t.enter c p)
  | finish (cause : Cause) (hlive : t.isLive = true) : Turn c d t (t.finish c cause)
  | shut (hopen : t.closed = false) : Turn c d t (t.shut c)

theorem Turn.of_eq (h : t' = t) : Turn c d t t' := h ▸ .stay

end Standing

namespace Scene

open Standing

variable {s s' : Scene} {d : Deed}

theorem Aside.standing (h : Aside s s') : s'.conn.standing = s.conn.standing := by
  simp only [Conn.standing, h.phase, h.cause, h.closed, h.notices]

/-- **An effect is at most one turn.** -/
theorem Effect.turn (h : Effect d s s') : Turn s.id d s.conn.standing s'.conn.standing := by
  cases h with
  | aside h => exact .of_eq h.standing
  | enter u p h hlive hp hs' =>
    have hlive' : u.conn.isLive = true := h.isLive.trans hlive
    have hturn : Turn u.id d u.conn.standing s'.conn.standing := by
      rw [hs', enter_eq u p hlive']
      exact .enter p hlive' hp
    rwa [h.anchored.id, h.standing] at hturn
  | finish u cause h hlive hs' =>
    have hlive' : u.conn.isLive = true := h.isLive.trans hlive
    have hturn : Turn u.id d u.conn.standing s'.conn.standing := by
      rw [hs', disconnect_eq u cause (open_of_isLive hlive') (going_of_isLive hlive')]
      exact .finish cause hlive'
    rwa [h.anchored.id, h.standing] at hturn
  | shut _ hopen hs' =>
    rw [hs', close_eq s hopen]
    exact .shut hopen
  | correct mailbox _ _ hs' =>
    rw [hs']
    unfold onLineControl
    exact .of_eq (by cases (s.putMail mailbox).leg <;> rfl)
  | register _ hs' => exact .of_eq (by rw [hs']; rfl)
  | unregister _ hs' => exact .of_eq (by rw [hs']; rfl)

/-- **A deed takes at most one turn.** -/
theorem turn_act (s : Scene) (d : Deed) :
    Turn s.id d s.conn.standing (s.act d).conn.standing := (effect_act s d).turn

end Scene

end CdmaCall
