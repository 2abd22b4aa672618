import CdmaCall.Proofs.Session.Deliveries
import CdmaCall.Proofs.Session.Isolation
import CdmaCall.Proofs.Waiting.Start

/-!
# Clones

A clone shares the leg of its original, and with it the phone, the cue player and the clock, but
nothing of the original's own state: it is a new connection, and what it shows follows from the
present state of the leg (`cloned_build`). From then on the two are as apart as any two connections
of the session (`clone_isolated`).
-/

namespace CdmaCall

section Defs

/-- The phase of a new connection on a leg in this state, if it has a leg. -/
def firstPhase (state : Option LegState) : Phase :=
  if state = some .disconnected then .disconnected else (state.bind Scene.phaseOf).getD .new

/-- The cause of a new connection on a leg in this state, if it has a leg. -/
def firstCause (state : Option LegState) : Option Cause :=
  if state = some .disconnected then some .normal else none

/-- Connection `k` is new and has the given options, on a leg in the given state if it has one. -/
structure Conn.New (o : Options) (leg : Option LegId) (state : Option LegState) (k : Conn) :
    Prop where
  options : k.options = o
  leg : k.leg = leg
  opened : k.closed = false
  queue : k.tones.queue = []
  unconfirmed : k.tones.pending = false
  unarmed : k.guard.armed = none
  uncorrected : k.correction.made = false
  mailbox : k.mailbox = {}
  phase : k.phase = firstPhase state
  cause : k.cause = firstCause state
  waiting : k.waiting = (state == some .waiting)

/-- The state of the leg to which connection `c` is bound. -/
def World.legStateAt (w : World) (c : ConnId) : Option LegState :=
  ((w.legAt c).bind (w.legs[·]?)).map (·.state)

end Defs

namespace Scene

variable {s : Scene} {leg : Leg} {l : LegId} {o : Options} {p : Phase}

/-! ### What a new connection makes of its leg -/

theorem new_of_phaseOf (hconn : s.conn = { Conn.fresh o with leg := some l })
    (hleg : s.leg = some leg) (hp : phaseOf leg.state = some p) :
    s.update.leg = some leg ∧ s.update.conn.New o (some l) (some leg.state) := by
  have hlive : s.conn.isLive = true := by rw [hconn]; rfl
  have hthere : leg.state ≠ .disconnected := by
    intro hstate
    rw [hstate] at hp
    cases hp
  have hphase : Phase.new ≠ p ∧ p.isTerminal = false := by
    cases hs : leg.state <;> rw [hs] at hp <;> cases hp <;> decide
  have hupdate : s.update = (s.mark (leg.state == .waiting)).enter p := by
    unfold update setPhase
    rw [if_pos hlive, hleg]
    simp [hthere, hp, mark, hconn, Conn.fresh, hphase.1]
  rw [hupdate, enter_eq (s.mark (leg.state == .waiting)) p hlive]
  refine ⟨hleg, ?_⟩
  constructor <;>
    simp [mark, hconn, Conn.fresh, firstPhase, firstCause, hthere, hp, hphase.2, legWaits, hleg]

/-- A leg that is gone ends the call at once. -/
theorem new_of_disconnected (hconn : s.conn = { Conn.fresh o with leg := some l })
    (hleg : s.leg = some leg) (hstate : leg.state = .disconnected) :
    s.update.leg = some leg ∧ s.update.conn.New o (some l) (some leg.state) := by
  have hlive : s.conn.isLive = true := by rw [hconn]; rfl
  have hupdate : s.update = (s.mark (leg.state == .waiting)).disconnect .normal := by
    unfold update
    rw [if_pos hlive, hleg]
    simp [hstate]
  have hopen : s.conn.closed = false := by rw [hconn]; rfl
  have hphase : s.conn.phase.isTerminal = false := by rw [hconn]; rfl
  have hdisarm : (s.mark (leg.state == .waiting)).disarm = s.mark (leg.state == .waiting) := by
    refine disarm_self ?_
    rw [mark, hconn]
    rfl
  rw [hupdate, disconnect_eq (s.mark (leg.state == .waiting)) .normal hopen hphase, hdisarm]
  refine ⟨hleg, ?_⟩
  constructor <;> simp [mark, hconn, Conn.fresh, firstPhase, firstCause, hstate]

/-- **A new connection follows its leg**, and has nothing else to go by. -/
theorem new_update (hconn : s.conn = { Conn.fresh o with leg := some l })
    (hleg : s.leg = some leg) :
    (s.update.mark s.update.legWaits).conn.New o (some l) (some leg.state) := by
  obtain ⟨huleg, hnew⟩ : s.update.leg = some leg ∧
      s.update.conn.New o (some l) (some leg.state) := by
    rcases hp : phaseOf leg.state with _ | p
    · by_cases hstate : leg.state = .disconnected
      · exact new_of_disconnected hconn hleg hstate
      · have hlive : s.conn.isLive = true := by rw [hconn]; rfl
        have hupdate : s.update = s.mark (leg.state == .waiting) := by
          unfold update
          rw [if_pos hlive, hleg]
          simp [hstate, hp]
        rw [hupdate]
        refine ⟨hleg, ?_⟩
        constructor <;> simp [mark, hconn, Conn.fresh, firstPhase, firstCause, hstate, hp]
    · exact new_of_phaseOf hconn hleg hp
  exact { hnew with waiting := by simp [mark, legWaits, huleg] }

end Scene

namespace World

open Scene

variable {w start : World} {c : ConnId} {k : Conn} {o : Options} {leg : Option LegId}
  {before : List Op}

/-! ### How a clone is made -/

section Making

theorem new_build (hw : w.Orderly) (hleg : ∀ l, leg = some l → l < w.legs.length) :
    ∃ s, Within (w.build leg o).2 w.conns.length s ∧
      s.conn.New o leg ((leg.bind (w.legs[·]?)).map (·.state)) ∧
      (∀ t ∈ s.clock.pending, t ∈ w.clock.pending) ∧ s.clock.now = w.clock.now := by
  cases leg with
  | none =>
    obtain ⟨s, hin, hconn⟩ : ∃ s, Within { w with conns := w.conns ++ [Conn.fresh o] }
        w.conns.length s ∧ s.conn = Conn.fresh o := exists_within (by simp)
    have hnone : s.leg = none := by simp [hin.leg, hconn, Conn.fresh]
    refine ⟨s.mark s.legWaits, ?_, ?_, fun t ht => hin.clock ▸ ht, by rw [← hin.clock]; rfl⟩
    · show Within (onScene _ _ _) _ _
      rw [onScene_of_within hin]
      exact hin.putScene (Anchored.of_path (path_mark s s.legWaits))
    · constructor <;>
        simp [mark, legWaits, hnone, hconn, Conn.fresh, firstPhase, firstCause]
  | some l =>
    have hlt : l < w.legs.length := hleg l rfl
    have hget : w.legs[l]? = some w.legs[l] := List.getElem?_eq_getElem hlt
    obtain ⟨s, hconn, -, htimed, hsleg, hclock, hin⟩ := scene_build (o := o) hw hget
    have hpath : Path true s (s.register.update.mark s.register.update.legWaits) :=
      ((path_register s).toFull.trans (path_update _)).trans (path_mark _ _).toFull
    refine ⟨_, hin, ?_, fun t ht => hclock ▸ mem_path hpath ht,
      (onward_path htimed hpath).now.trans (by rw [hclock])⟩
    show Conn.New o (some l) (((some l).bind (w.legs[·]?)).map (·.state)) _
    rw [Option.bind_some, hget]
    exact new_update (s := s.register) hconn hsleg

theorem settleCourse_of_due (h : ∀ t ∈ w.clock.pending, w.clock.now < t.due) :
    w.settleCourse = [.pass w.clock.now] := timerCourse_of_late h _

theorem settle_of_due (h : ∀ t ∈ w.clock.pending, w.clock.now < t.due) : w.settle = w := by
  rw [settle_eq, settleCourse_of_due h]
  rfl

theorem perform_cloneConn (hk : w.conns[c]? = some k) :
    w.perform (.cloneConn c) = (.made w.conns.length, (w.build k.leg k.options).2) := by
  rw [perform, cloneConn, hk]
  rfl

/-- **A clone is new** but for its options and its leg. -/
theorem new_clone (hw : w.Reachable) (hk : w.conns[c]? = some k) :
    ∃ k', (w.step (.cloneConn c)).2.conns[w.conns.length]? = some k' ∧
      k'.New k.options k.leg (w.legStateAt c) := by
  obtain ⟨s₀, hin₀, hconn₀⟩ := exists_within hk
  have hleg : w.legAt c = k.leg := hin₀.legAt.trans (by rw [hconn₀])
  have hbound (l : LegId) (hl : k.leg = some l) : l < w.legs.length :=
    hw.orderly.lt_legs hin₀ (by rw [hconn₀, hl])
  obtain ⟨s, hin, hnew, hpending, hnow⟩ := new_build (o := k.options) hw.orderly hbound
  have hstep : (w.step (.cloneConn c)).2 = (w.build k.leg k.options).2 := by
    show (w.perform (.cloneConn c)).2.settle = _
    rw [perform_cloneConn hk]
    refine settle_of_due fun t ht => ?_
    rw [← hin.clock] at ht ⊢
    rw [hnow]
    exact hw.due t (hpending t ht)
  rw [hstep]
  exact ⟨s.conn, hin.conn, by rw [World.legStateAt, hleg]; exact hnew⟩

/-- What a call can do depends on the options and the leg. -/
theorem capabilities_congr {w' : World} {c' : ConnId} {k' : Conn} (h : SameNetwork w w')
    (hk : w.conns[c]? = some k) (hk' : w'.conns[c']? = some k') (hsame : w'.conns[c]? = some k)
    (hoptions : k'.options = k.options) (hleg : k'.leg = k.leg) :
    (w'.viewOf c').map (·.snapshot.capabilities) = (w.viewOf c).map (·.snapshot.capabilities) := by
  obtain ⟨s, hin, rfl⟩ := exists_within hk
  obtain ⟨s₁, hin₁, hconn₁⟩ := exists_within hsame
  obtain ⟨s', hin', rfl⟩ := exists_within hk'
  have hbearer : s'.bearer = s.bearer := by
    have hlegs : w'.legAt c' = w'.legAt c := by rw [hin'.legAt, hin₁.legAt, hleg, hconn₁]
    have hsame : w'.bearerAt c = w.bearerAt c :=
      h.bearerAt (by rw [hin₁.legAt, hin.legAt, hconn₁])
    rw [← hin'.bearerAt, ← hin.bearerAt, ← hsame, World.bearerAt, World.bearerAt, hlegs]
  have hcapabilities : s'.capabilities = s.capabilities := by
    unfold capabilities isPacketVoice
    rw [hbearer, hoptions]
  unfold World.viewOf
  rw [scene?_eq_some_iff.2 hin', scene?_eq_some_iff.2 hin]
  exact congrArg some hcapabilities

end Making

/-- **Clones are isolated.** To clone a connection leaves it and every other one as it was. The
clone is open and has nothing to do or to wait for, and all that it shows comes from the options and
from the leg as it is. However the session goes on, a request about one connection leaves every
other one as it was, so does whatever else happens to one of them, and whatever arrives at a
connection is due to it. -/
theorem clone_isolated (hstart : start.Fresh) (hw : w = (start.run before).2)
    (hk : w.conns[c]? = some k) :
    let w' := (w.step (.cloneConn c)).2
    (w.step (.cloneConn c)).1 = .made w.conns.length ∧
    (∀ j, j < w.conns.length → SameFor j w w') ∧
    (∃ k', w'.conns[w.conns.length]? = some k' ∧ k'.New k.options k.leg (w.legStateAt c)) ∧
    (w'.viewOf w.conns.length).map (·.snapshot.capabilities) =
      (w.viewOf c).map (·.snapshot.capabilities) ∧
    ∀ ops, let v := (w'.run ops).2
      (∀ op i j, op.about? v = some i → j ≠ i → SameFor j v (v.step op).2) ∧
      (∀ m ∈ w'.story ops, ∀ i j, m.what.subject? = some i → j ≠ i → SameFor j m.before m.after) ∧
      ∀ op pre m post j e,
        v.moments (v.course op ++ (v.perform op).2.settleCourse) = pre ++ m :: post →
        m.gets j e = true →
        v.Due op (start.story (before ++ .cloneConn c :: ops) ++ pre) m j e := by
  intro w'
  have hreachable : w.Reachable := ⟨start, before, hstart, hw⟩
  have habout : (Op.cloneConn c).about? w = some w.conns.length := rfl
  have hapart : Apart w.conns.length w w' := apart_step hreachable habout
  have hlt : c < w.conns.length := (List.getElem?_eq_some_iff.1 hk).1
  obtain ⟨k', hk', hnew⟩ := new_clone hreachable hk
  refine ⟨congrArg Prod.fst (perform_cloneConn hk), fun j hj => hapart.sameFor hj.ne,
    ⟨k', hk', hnew⟩, capabilities_congr hapart.network hk hk' ((hapart.conns c hlt.ne).trans hk)
      hnew.options hnew.leg, fun ops => ?_⟩
  set v := (w'.run ops).2
  have hv : v = (start.run (before ++ .cloneConn c :: ops)).2 := by
    rw [run_append, ← hw]
    rfl
  have hstory : start.story (before ++ .cloneConn c :: ops) =
      start.story (before ++ [.cloneConn c]) ++ w'.story ops := by
    rw [List.append_cons, story_append, run_append, ← hw]
    rfl
  exact ⟨fun op i j hop hj => (apart_step ⟨start, _, hstart, hv⟩ hop).sameFor hj,
    fun m hm i j hsubject hj => (apart_happen (orderly_story hstart m
      (hstory ▸ List.mem_append_right _ hm)) hsubject).sameFor hj,
    fun op pre m post j e hmoments hgets => due_of_gets hstart hv hmoments hgets⟩

/-- A call with an outstanding burst and another digit in its queue is cloned, and the clone sends a
burst to the same phone. The first confirmation is due to the original. -/
theorem clone_isolated_served :
    let start := served (Leg.outgoing "5550100" (some 0))
    let before : List Op := [.connect (some 0) {}, .drive 0, .play 0 '1', .play 0 '2']
    let w := (start.run before).2
    let v := ((w.step (.cloneConn 0)).2.run [.play 1 '3']).2
    start.Fresh ∧ w.conns[0]?.map (·.tones.queue) = some ['2'] ∧
    (∃ k, (w.step (.cloneConn 0)).2.conns[1]? = some k ∧ k.tones.queue = []) ∧
    SameFor 0 v (v.step (.play 1 '4')).2 ∧
    v.Due (.confirm 0) (start.story (before ++ [.cloneConn 0, .play 1 '3'])) ⟨v, .confirm 0⟩ 0
      .burstConfirmed := by
  intro start before w v
  have hqueue : w.conns[0]?.map (·.tones.queue) = some ['2'] := by decide +kernel
  have hlength : w.conns.length = 1 := by decide +kernel
  have hcourse : (v.course (.confirm 0)).head? = some (.confirm 0) := by decide +kernel
  have hgets : Moment.gets 0 .burstConfirmed ⟨v, .confirm 0⟩ = true := by decide +kernel
  have hstart : start.Fresh := fresh_served _
  have hw : w = (start.run before).2 := rfl
  have hv : v = ((w.step (.cloneConn 0)).2.run [.play 1 '3']).2 := rfl
  -- From here on the worlds matter by what is known of them only.
  clear_value start before w v
  subst hv
  obtain ⟨k, hk, -⟩ := Option.map_eq_some_iff.1 hqueue
  obtain ⟨-, -, ⟨k', hk', hnew⟩, -, hlater⟩ := clone_isolated hstart hw hk
  obtain ⟨hsame, -, hdue⟩ := hlater [.play 1 '3']
  obtain ⟨hs, hsplit⟩ := List.head?_eq_some_iff.1 hcourse
  rw [hlength] at hk'
  refine ⟨hstart, hqueue, ⟨k', hk', hnew.queue⟩, hsame (.play 1 '4') 1 0 rfl (by decide), ?_⟩
  have harrives := hdue (.confirm 0) [] _ _ 0 .burstConfirmed (by rw [hsplit]; rfl) hgets
  rwa [List.append_nil] at harrives

end World

end CdmaCall
