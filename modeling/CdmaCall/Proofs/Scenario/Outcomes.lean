import CdmaCall.Proofs.Config.Validation
import CdmaCall.Proofs.Scenario.Course

/-!
# How the scripted calls end

The script of a waiting call waits on the same clock as the deadline of its guard, and at equal
times it goes on first. So the call is missed if the script waits for longer than the deadline does
(`missed_ends`), and answered if it waits no longer (`answered_ends`). Half a timeout, rounded up,
never is longer than a timeout, but from thirty years on a timeout with a little more is no longer
either, since nothing waits beyond that: then the script overtakes the deadline (`overtaken_ends`).
An emergency call finds its number among those configured, so the cue plays until the far end
answers (`emergency_ends`). Together with the record of the phone this is `scenarios_end`.

The worlds between the steps of a script are written out: `ringing`, `missed`, `answered`,
`dialing` and `connected`.
-/

namespace CdmaCall

namespace Scenario

section Defs

/-- The phone of a script once the connection is subscribed. -/
def subscribed : Phone := ({ id := 0 } : Phone).register call

/-- The connection of a script, bound to its leg. -/
def attached (c : Config) (direction : Direction) : Conn :=
  { Conn.fresh (.ofConfig c direction) with leg := some callLeg, driven := true }

/-- A waiting call rings, and the deadline for an answer runs. -/
def ringing (c : Config) : World :=
  { fresh c subscribed waiting with
    clock := ({} : Clock Delivery).start c.timeout.toNat ⟨call, .missed 1⟩
    player := some { stops := 1 }
    conns := [{ attached c .incoming with
      phase := .ringing
      waiting := true
      guard := { timeout := c.timeout.toNat, generation := 1, armed := some ⟨1, 0⟩ }
      notices := [⟨call, .entered .ringing⟩] }] }

/-- The deadline has come. -/
def missed (c : Config) (now : ℕ) : World :=
  { ringing c with
    clock := { now, nextId := 1 }
    legs := [waiting.hangUp.2]
    player := some { stops := 2 }
    conns := (ringing c).conns.map fun k => { k with
      phase := .disconnected
      cause := some .incomingMissed
      waiting := false
      guard := { k.guard with armed := none }
      notices := k.notices ++
        [⟨call, .entered .disconnected⟩, ⟨call, .disconnected .incomingMissed⟩] } }

/-- The call was answered in time, and the leg is active. -/
def answered (c : Config) (now : ℕ) : World :=
  { ringing c with
    clock := { now, nextId := 1 }
    phones := [subscribed.record .accept]
    legs := [waiting.setState now .active]
    player := some { stops := 2 }
    conns := (ringing c).conns.map fun k => { k with
      phase := .active
      waiting := false
      guard := { k.guard with armed := none }
      notices := k.notices ++ [⟨call, .entered .active⟩] } }

/-- An emergency call dials. -/
def dialing (c : Config) (number : String) : World :=
  { fresh c subscribed (placed ("tel:" ++ number)) with
    player := some { playing := true, starts := 1 }
    conns := [{ attached c .outgoing with
      phase := .dialing
      notices := [⟨call, .entered .dialing⟩] }] }

/-- The far end has answered it. -/
def connected (c : Config) (number : String) (now : ℕ) : World :=
  { dialing c number with
    clock := { now }
    legs := [(placed ("tel:" ++ number)).setState now .active]
    player := some { starts := 1, stops := 1 }
    conns := (dialing c number).conns.map fun k => { k with
      phase := .active
      notices := k.notices ++ [⟨call, .entered .active⟩] } }

/-- What the new connection of an emergency call sees before it follows its leg. -/
def placing (c : Config) (number : String) : Scene where
  id := call
  conn := { attached c .outgoing with driven := false }
  leg := some (placed ("tel:" ++ number))
  phone := some { id := 0 }
  player := some {}
  clock := {}
  toneType := c.dtmf.toneType
  emergency := ⟨c.numbers⟩

/-- A world in which nobody has begun to handle the events. -/
def undriven (w : World) : World :=
  { w with conns := w.conns.map fun k => { k with driven := false } }

/-- How the connection stands when it is closed, and how often the network was asked to release the
leg by the end. -/
structure Ending.Ends (e : Ending) (phase : Phase) (cause : Option Cause) (armed : Bool)
    (hangups : ℕ) : Prop where
  snapshot : ∃ s, e.snapshot = some s ∧ s.phase = phase ∧ s.cause = cause ∧ s.timerArmed = armed
  hangups : e.closed.hangups = hangups

end Defs

end Scenario

/-! ### Waits and steps -/

namespace World

variable {w v : World} {op : Op} {d : Delivery} {clock : Clock Delivery} {limit fuel ms : ℕ}

/-- A request that leaves nothing due is carried out without more ado. -/
theorem step_of_due (h : (w.perform op).2 = v)
    (hdue : ∀ t ∈ v.clock.pending, v.clock.now < t.due) : (w.step op).2 = v := by
  subst h
  exact settle_of_due hdue

/-- The next timer is the only one. -/
theorem runTimers_one (hnext : w.clock.next? limit = some (d, clock)) :
    runTimers limit 1 w = { (({ w with clock } : World).deliver d).2 with
      clock := { (({ w with clock } : World).deliver d).2.clock with now := limit } } := by
  rw [runTimers, hnext]
  rfl

/-- **Who waits no longer than any timer** finds the world as it was. -/
theorem wait_of_late (h : ∀ t ∈ w.clock.pending, w.clock.now + Clock.bounded ms ≤ t.due) :
    w.wait ms = { w with clock := { w.clock with now := w.clock.now + Clock.bounded ms } } := by
  rcases wait_cases w ms with ⟨hzero, hsame⟩ | ⟨n, v, hn, hv, hwait⟩
  · rw [hsame, hzero]
    rfl
  · have hlate : ∀ t ∈ w.clock.pending, w.clock.now + n < t.due := by
      rw [hn] at h
      exact fun t ht => Nat.lt_of_succ_le (h t ht)
    rw [timerCourse_of_late hlate] at hv
    rw [hwait, hn, hv]
    rfl

end World

namespace Scenario

open World

variable {c : Config} {number : String} {phone : Phone} {leg : Leg} {direction : Direction}
  {w : World} {now ms : ℕ}

/-! ### Starting -/

section Starting

/-- A script starts by two requests, if neither leaves anything due. -/
theorem start_of_due (hdue : ∀ t ∈ w.clock.pending, w.clock.now < t.due)
    (hconnect : ((fresh c phone leg).perform
      (.connect (some callLeg) (.ofConfig c direction))).2 = undriven w)
    (hdrive : ((undriven w).perform (.drive call)).2 = w) :
    start c phone leg direction = Run.goTo { world := fresh c phone leg } w := by
  rw [start_eq, Run.act_pair]
  dsimp only
  rw [step_of_due hconnect hdue, step_of_due hdrive hdue]

end Starting

/-! ### A waiting call -/

section Waiting

/-- The deadline of a call that rings. -/
theorem due_ringing {t : Timer Delivery} (ht : t ∈ (ringing c).clock.pending) :
    t.due = Clock.bounded c.timeout.toNat := by
  rw [List.mem_singleton.1 ht]
  exact Nat.zero_add _

theorem start_ringing (hpos : 0 < c.timeout.toNat) : start c { id := 0 } waiting .incoming =
    { world := ringing c, shown := [.notice call (.entered .ringing)] } := by
  have hdue : ∀ t ∈ (ringing c).clock.pending, (ringing c).clock.now < t.due := by
    intro t ht
    have hlongest : 0 < Clock.longest := by decide +kernel
    rw [due_ringing ht]
    exact lt_min hpos hlongest
  rw [start_of_due hdue rfl rfl]
  rfl

/-- Whoever waits for no longer than the timeout finds the call ringing. -/
theorem wait_ringing (hms : Clock.bounded ms ≤ Clock.bounded c.timeout.toNat) :
    (ringing c).wait ms =
      { ringing c with clock := { (ringing c).clock with now := 0 + Clock.bounded ms } } :=
  wait_of_late fun t ht => by
    rw [due_ringing ht]
    exact (Nat.zero_add _).trans_le hms

/-- Whoever waits for longer finds it missed. -/
theorem wait_missed (hms : c.timeout.toNat < Clock.bounded ms) :
    (ringing c).wait ms = missed c (Clock.bounded ms) := by
  have htimeout : Clock.bounded c.timeout.toNat = c.timeout.toNat :=
    Nat.min_eq_left (hms.le.trans (Nat.min_le_right _ _))
  obtain ⟨n, hn⟩ : ∃ n, Clock.bounded ms = n + 1 := ⟨Clock.bounded ms - 1, by omega⟩
  have hnext : (ringing c).clock.next? (0 + n) =
      some (⟨call, .missed 1⟩, { now := 0 + Clock.bounded c.timeout.toNat, nextId := 1 }) := by
    have hdue : 0 + Clock.bounded c.timeout.toNat ≤ 0 + n := by omega
    exact if_pos hdue
  have hadvance : (ringing c).advance n = missed c n := by
    show runTimers (0 + n) 1 (ringing c) = _
    rw [runTimers_one hnext, Nat.zero_add n]
    rfl
  unfold wait
  rw [hn]
  dsimp only
  rw [hadvance]
  rfl

/-- The user answers, and the network connects the call. -/
theorem run_answered :
    (({ ringing c with clock := { (ringing c).clock with now } } : World).run
      [.answer call, .legState callLeg .active, .update call]).2 = answered c now := by
  set w : World := { ringing c with clock := { (ringing c).clock with now } }
  set accepted : World := { ringing c with
    clock := { now, nextId := 1 }
    phones := (answered c now).phones
    conns := (ringing c).conns.map fun k => { k with guard := { k.guard with armed := none } } }
  set active : World := { accepted with legs := (answered c now).legs }
  have hanswer : (w.step (.answer call)).2 = accepted :=
    step_of_due rfl (by simp [accepted])
  have hreport : (accepted.step (.legState callLeg .active)).2 = active :=
    step_of_due rfl (by simp [active, accepted])
  have hupdate : (active.step (.update call)).2 = answered c now :=
    step_of_due rfl (by simp [answered])
  show (((w.step (.answer call)).2.step (.legState callLeg .active)).2.step (.update call)).2 = _
  rw [hanswer, hreport, hupdate]

/-- **Nobody answers.** -/
theorem missed_ends (hpos : 0 < c.timeout.toNat) (hlt : c.timeout.toNat < Clock.longest) :
    (callWaitingMissedRun c).finish.Ends .disconnected (some .incomingMissed) false 1 := by
  have hlonger : c.timeout.toNat < Clock.bounded (c.timeout.toNat + 100) :=
    lt_min (by omega) hlt
  unfold callWaitingMissedRun
  rw [start_ringing hpos]
  simp only [Run.pause_eq, Run.world_say]
  rw [wait_missed hlonger]
  exact ⟨⟨_, rfl, rfl, rfl, rfl⟩, rfl⟩

/-- **The script overtakes a deadline** that is thirty years away. -/
theorem overtaken_ends (hle : Clock.longest ≤ c.timeout.toNat) :
    (callWaitingMissedRun c).finish.Ends .ringing none true 0 := by
  have hpos : 0 < c.timeout.toNat := lt_of_lt_of_le (by decide +kernel) hle
  have hlonger : Clock.bounded (c.timeout.toNat + 100) ≤ Clock.bounded c.timeout.toNat :=
    (Nat.min_le_right _ _).trans_eq (Nat.min_eq_right hle).symm
  unfold callWaitingMissedRun
  rw [start_ringing hpos]
  simp only [Run.pause_eq, Run.world_say]
  rw [wait_ringing hlonger]
  exact ⟨⟨_, rfl, rfl, rfl, rfl⟩, rfl⟩

/-- **The user answers** after half of the time. -/
theorem answered_ends (hpos : 0 < c.timeout.toNat) :
    (callWaitingAnsweredRun c).finish.Ends .active none false 0 := by
  have hhalf : Clock.bounded ((c.timeout.toNat + 1) / 2) ≤ Clock.bounded c.timeout.toNat :=
    le_min ((Nat.min_le_left _ _).trans (by omega)) (Nat.min_le_right _ _)
  unfold callWaitingAnsweredRun
  rw [start_ringing hpos]
  simp only [Run.pause_eq, Run.act_eq, Run.world_goTo]
  rw [wait_ringing hhalf, run_answered, wait_of_late fun t ht => absurd ht List.not_mem_nil]
  exact ⟨⟨_, rfl, rfl, rfl, rfl⟩, rfl⟩

end Waiting

/-! ### An emergency call -/

section Emergency

/-- A new connection on a leg that dials an emergency number starts the cue. -/
theorem update_placed {s : Scene} {player : CuePlayer} {o : Options} {l : LegId}
    (hconn : s.conn = { Conn.fresh o with leg := some l }) (hleg : s.leg = some leg)
    (hstate : leg.state = .dialing) (hplayer : s.player = some player)
    (hemergency : s.isEmergency = true) :
    s.update = { s with
      player := some player.start
      conn := { s.conn with phase := .dialing, notices := [⟨s.id, .entered .dialing⟩] } } := by
  have hlive : s.conn.isLive = true := by rw [hconn]; rfl
  have hphase : s.conn.phase = .new := by rw [hconn]; rfl
  have hwaiting : s.conn.waiting = false := by rw [hconn]; rfl
  have hnotices : s.conn.notices = [] := by rw [hconn]; rfl
  have hwaits : s.legWaits = false := by simp [Scene.legWaits, hleg, hstate]
  have hmark : s.mark false = s := by
    unfold Scene.mark
    rw [← hwaiting]
  have hcue : s.cue .dialing = { s with player := some player.start } := by
    simp [Scene.cue, hplayer, hemergency]
  have hupdate : s.update = s.enter .dialing := by
    unfold Scene.update
    rw [if_pos hlive, hleg]
    dsimp only
    rw [hstate]
    show (s.mark false).setPhase .dialing = _
    rw [hmark, Scene.setPhase, hphase, if_neg (by decide)]
  rw [hupdate, Scene.enter, if_pos hlive, hwaits, Bool.and_false, hmark, hcue]
  unfold Scene.putPhase Scene.notify
  rw [hnotices]
  rfl

variable (hnumber : (EmergencyNumbers.mk c.numbers).classifies ("tel:" ++ number) = true)
include hnumber

theorem build_dialing :
    (fresh c { id := 0 } (placed ("tel:" ++ number))).build (some callLeg) (.ofConfig c .outgoing) =
      (call, undriven (dialing c number)) := by
  set bare : World := { fresh c { id := 0 } (placed ("tel:" ++ number)) with
    conns := [(placing c number).conn] }
  have hin : bare.Within call (placing c number) := scene?_eq_some_iff.1 rfl
  have hbuild : (fresh c { id := 0 } (placed ("tel:" ++ number))).build (some callLeg)
      (.ofConfig c .outgoing) = (call, (bare.onScene call fun s => s.register.update).onScene call
        fun s => s.mark s.legWaits) := rfl
  have hupdate : (placing c number).register.update = _ :=
    update_placed (o := .ofConfig c .outgoing) rfl rfl rfl rfl hnumber
  rw [hbuild, onScene_of_within hin, hupdate]
  rfl

theorem start_dialing : start c { id := 0 } (placed ("tel:" ++ number)) .outgoing =
    { world := dialing c number, shown := [.notice call (.entered .dialing)] } := by
  have hconnect : ((fresh c { id := 0 } (placed ("tel:" ++ number))).perform
      (.connect (some callLeg) (.ofConfig c .outgoing))).2 = undriven (dialing c number) := by
    rw [perform, connect, build_dialing hnumber]
    rfl
  have hdue : ∀ t ∈ (dialing c number).clock.pending, (dialing c number).clock.now < t.due :=
    fun t ht => absurd ht List.not_mem_nil
  rw [start_of_due hdue hconnect rfl]
  rfl

omit hnumber in
/-- The network connects the call. -/
theorem run_connected :
    (({ dialing c number with clock := { (dialing c number).clock with now } } : World).run
      [.legState callLeg .active, .update call]).2 = connected c number now := by
  set w : World := { dialing c number with clock := { (dialing c number).clock with now } }
  set active : World := { w with legs := (connected c number now).legs }
  have hreport : (w.step (.legState callLeg .active)).2 = active :=
    step_of_due rfl fun t ht => absurd ht List.not_mem_nil
  have hupdate : (active.step (.update call)).2 = connected c number now :=
    step_of_due rfl fun t ht => absurd ht List.not_mem_nil
  show ((w.step (.legState callLeg .active)).2.step (.update call)).2 = _
  rw [hreport, hupdate]

/-- **The cue plays while an emergency call dials**, and no longer once it is answered. -/
theorem emergency_ends : (emergencyDialRun c number).finish.Ends .active none false 0 ∧
    (emergencyDialRun c number).finish.closed.shown =
      [.notice call (.entered .dialing),
        .plain "Emergency tone playing while dialing: true",
        .notice call (.entered .active),
        .plain "Emergency tone playing once answered: false",
        .notice call .closed] := by
  unfold emergencyDialRun
  rw [start_dialing hnumber]
  simp only [Run.pause_eq, Run.act_eq, Run.world_goTo, Run.world_say]
  rw [wait_of_late fun t ht => absurd ht List.not_mem_nil, run_connected]
  exact ⟨⟨⟨_, rfl, rfl, rfl, rfl⟩, rfl⟩, rfl⟩

end Emergency

/-! ### Every scenario -/

section Endings

/-- **The scripted calls end as announced**, whatever the configuration, as long as it is usable.
A waiting call that nobody answers is missed and hung up once, unless its timeout is so long that
the script goes on before the deadline comes; a call that is answered in time stays active, with no
deadline left. An emergency call cannot be placed just if no number is configured; the cue plays
while it dials and not once it is answered. In each of the scenarios the phone is asked first to
subscribe the connection and last to give that up, and the handling of events is over. -/
theorem scenarios_end (c : Config) (hc : c.validate = .ok ()) :
    (∃ e, play c .callWaitingMissed = .ok e ∧
      if c.timeout.toNat < Clock.longest then e.Ends .disconnected (some .incomingMissed) false 1
      else e.Ends .ringing none true 0) ∧
    (∃ e, play c .callWaitingAnswered = .ok e ∧ e.Ends .active none false 0) ∧
    ((∃ text, play c .emergencyDial = .error (.invalidState text)) ↔ c.numbers = []) ∧
    (c.numbers ≠ [] → ∃ e, play c .emergencyDial = .ok e ∧ e.Ends .active none false 0 ∧
      e.closed.shown = [.notice call (.entered .dialing),
        .plain "Emergency tone playing while dialing: true",
        .notice call (.entered .active),
        .plain "Emergency tone playing once answered: false",
        .notice call .closed]) ∧
    ∀ scenario e, play c scenario = .ok e → e.Logged := by
  have hsound := Config.validate_eq_ok_iff.1 hc
  have hpos : 0 < c.timeout.toNat :=
    Nat.pos_of_ne_zero fun hzero => hsound.timeout (UInt64.toNat_inj.1 hzero)
  refine ⟨⟨_, rfl, ?_⟩, ⟨_, rfl, answered_ends hpos⟩, ?_, fun hsome => ?_,
    fun scenario e => play_logged c scenario⟩
  · split_ifs with hlt
    · exact missed_ends hpos hlt
    · exact overtaken_ends (Nat.le_of_not_lt hlt)
  · unfold play
    cases c.numbers <;> simp
  · obtain ⟨number, rest, hnumbers⟩ := List.exists_cons_of_ne_nil hsome
    have hmem : number ∈ c.numbers := hnumbers ▸ List.mem_cons_self ..
    have hdials := hsound.numbers number hmem
    have hnumber : (EmergencyNumbers.mk c.numbers).classifies ("tel:" ++ number) = true :=
      EmergencyNumbers.classifies_of_dialled hmem hdials
        (by rw [Address.dialled_tel, Address.dialled_of_dials hdials])
    refine ⟨(emergencyDialRun c number).finish, ?_, emergency_ends hnumber⟩
    rw [play, hnumbers]

/-- What is configured unless it is said otherwise. -/
theorem scenarios_end_standard :
    Config.standard.validate = .ok () ∧
      (∃ e, play Config.standard .callWaitingMissed = .ok e ∧ e.Logged ∧
        e.Ends .disconnected (some .incomingMissed) false 1) ∧
      ∃ e, play Config.standard .emergencyDial = .ok e ∧ e.Logged ∧
        e.Ends .active none false 0 := by
  have hvalid : Config.standard.validate = .ok () := by decide +kernel
  have hshort : Config.standard.timeout.toNat < Clock.longest := by decide +kernel
  obtain ⟨⟨missed, hmissed, hends⟩, -, -, hemergency, hlogged⟩ :=
    scenarios_end Config.standard hvalid
  obtain ⟨placed, hplaced, hconnected, -⟩ := hemergency (by decide)
  rw [if_pos hshort] at hends
  exact ⟨hvalid, ⟨missed, hmissed, hlogged _ _ hmissed, hends⟩,
    placed, hplaced, hlogged _ _ hplaced, hconnected⟩

/-- **A deadline that is thirty years away is not waited for**, though the script means to wait for
a little longer than that. -/
theorem deadline_overtaken :
    let c := { Config.standard with timeout := 946080000000 }
    c.validate = .ok () ∧ ∃ e, play c .callWaitingMissed = .ok e ∧ e.Ends .ringing none true 0 ∧
      ¬e.Ends .disconnected (some .incomingMissed) false 1 := by
  intro c
  have hvalid : c.validate = .ok () := by decide +kernel
  have hlong : Clock.longest ≤ c.timeout.toNat := by decide +kernel
  have hends := overtaken_ends hlong
  refine ⟨hvalid, _, rfl, hends, fun hmissed => ?_⟩
  cases hends.hangups.symm.trans hmissed.hangups

end Endings

end Scenario

end CdmaCall
