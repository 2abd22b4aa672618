import CdmaCall.Proofs.Waiting.Verdict

/-!
# How the deadline of a waiting call is set

A new connection on a circuit switched leg that waits sets its deadline before anything else
happens to it (`awaits_connect`). Until somebody handles its events the deadline waits, on the clock
or in the mailbox.
-/

namespace CdmaCall

namespace Scene

variable {s s' : Scene} {o : Options} {leg : Leg}

/-- A connection to which nothing has happened that concerns deadlines. -/
structure Newborn (s : Scene) (o : Options) : Prop where
  opened : s.conn.closed = false
  live : s.conn.phase.isTerminal = false
  cause : s.conn.cause = none
  guard : s.conn.guard = { timeout := o.timeout }
  timers : s.deadlines = []
  mailbox : s.conn.mailbox = {}
  idle : s.conn.driven = false

theorem Steady.newborn (h : Steady s s') (hs : s.Newborn o) : s'.Newborn o :=
  ⟨h.closed.trans hs.opened, h.terminal.trans hs.live, h.cause.trans hs.cause,
    h.guard.trans hs.guard, h.deadlines.trans hs.timers, h.mailbox.trans hs.mailbox,
    h.driven.trans hs.idle⟩

theorem setPhase_leg (s : Scene) (p : Phase) : (s.setPhase p).leg = s.leg := by
  unfold setPhase
  split_ifs
  · rfl
  · by_cases hlive : s.conn.isLive = true
    · rw [enter_eq s p hlive]
    · unfold enter
      rw [if_neg hlive]

/-- A call that waits rings. -/
theorem update_waiting (hopen : s.conn.closed = false) (hlive : s.conn.phase.isTerminal = false)
    (hleg : s.leg = some leg) (hwaits : leg.state = .waiting) :
    Steady s s.update ∧ s.update.leg = some leg := by
  have hupdate : s.update = (s.mark true).setPhase .ringing := by
    have hisLive : s.conn.isLive = true := by simp [Conn.isLive, hopen, hlive]
    unfold update
    rw [if_pos hisLive, hleg]
    simp [hwaits, phaseOf]
  rw [hupdate, setPhase_leg]
  exact ⟨Steady.of_path ((path_mark s true).trans (path_setPhase _ (by decide))), hleg⟩

theorem Newborn.disarm_eq (h : s.Newborn o) : s.disarm = s := disarm_self (by rw [h.guard])

/-- Setting the deadline of a new connection. -/
theorem Newborn.arm (h : s.Newborn o) (hleg : s.leg.isSome = true)
    (hrunning : s.clock.running = true) :
    s.arm.2.Awaiting ⟨1, s.clock.nextId⟩ (s.clock.now + Clock.bounded o.timeout) := by
  rw [arm_eq, if_pos hrunning, h.disarm_eq]
  refine ⟨h.opened, h.live, h.cause, hleg, ?_, ?_, ?_, ?_⟩
  · simp [rearm, putGuard, h.guard]
  · have happend : s.rearm.deadlines = s.deadlines ++
        [⟨s.clock.nextId, s.clock.now + Clock.bounded s.conn.guard.timeout,
          ⟨s.id, .missed (s.conn.guard.generation + 1)⟩⟩] := by
      simp [Scene.deadlines, rearm, Clock.start, putGuard, Event.isMissed]
    rw [happend, h.timers, h.guard]
    rfl
  · simp [rearm, putGuard, h.mailbox]
  · simp [rearm, putGuard, h.mailbox]

end Scene

namespace World

open Scene

variable {w : World} {c : ConnId} {s : Scene} {a : Deadline} {due limit : ℕ} {l : LegId}
  {leg : Leg} {o : Options}

/-! ## Making the connection -/

section Making

/-- The world in which a new connection is listed and bound to leg `l`, and no more. -/
def founded (w : World) (l : LegId) (o : Options) : World :=
  { w with conns := w.conns ++ [{ Conn.fresh o with leg := some l }] }

/-- What is made of a new connection on leg `l` until its deadline is set: it is registered at its
phone, follows the leg, and is marked. -/
theorem build_founded (o : Options) (hlt : l < w.legs.length) :
    ∃ s, Within (w.founded l o) w.conns.length s ∧ s.conn = { Conn.fresh o with leg := some l } ∧
      (w.build (some l) o).2 = (w.founded l o).putScene w.conns.length
        (s.register.update.mark s.register.update.legWaits) := by
  set c := w.conns.length
  -- Without a leg there is no phone to be unsubscribed from.
  set w₀ : World := { w with conns := w.conns ++ [Conn.fresh o] }
  obtain ⟨s₀, hs₀, hconn₀⟩ : ∃ s, Within w₀ c s ∧ s.conn = Conn.fresh o :=
    exists_within (by simp [w₀, c])
  have hunbound : w₀.onScene c unregister = w₀ := by
    have hsame : s₀.unregister = s₀ := by
      have hphone : s₀.phone = none := by simp [hs₀.phone, hs₀.leg, hconn₀, Conn.fresh]
      cases s₀
      simp_all [unregister]
    rw [onScene_of_within hs₀, hsame, hs₀.putScene_self]
  have hfounded : w₀.setLeg c l = w.founded l o := by
    have hlast : (w.conns ++ [Conn.fresh o]).modify c (fun k => { k with leg := some l }) =
        w.conns ++ [{ Conn.fresh o with leg := some l }] := by
      rw [List.modify_eq_set_getElem?]
      simp [c]
    unfold setLeg founded
    rw [hlast]
  obtain ⟨s, hs, hconn⟩ : ∃ s, Within (w.founded l o) c s ∧
      s.conn = { Conn.fresh o with leg := some l } :=
    exists_within (by simp [founded, c])
  have hbind : Anchored s s.register.update :=
    Anchored.of_path ((path_register s).toFull.trans (path_update _))
  refine ⟨s, hs, hconn, ?_⟩
  show (w₀.bind c l).onScene c (fun s => s.mark s.legWaits) = _
  unfold World.bind
  rw [if_pos hlt, hunbound, hfounded, onScene_of_within hs, onScene_of_within (hs.putScene hbind)]
  exact hs.putScene_putScene hbind (Anchored.of_path (path_mark _ _))

/-- The scene of a connection that is being made on leg `l`. -/
theorem scene_build (hw : w.Orderly) (hleg : w.legs[l]? = some leg) :
    ∃ s : Scene, s.conn = { Conn.fresh o with leg := some l } ∧ s.Newborn o ∧ s.Timed ∧
      s.leg = some leg ∧ s.clock = w.clock ∧ Within (w.build (some l) o).2 w.conns.length
        (s.register.update.mark s.register.update.legWaits) := by
  have hlt : l < w.legs.length := (List.getElem?_eq_some_iff.1 hleg).1
  obtain ⟨s, hs, hconn, hbuild⟩ := build_founded o hlt
  have hnew : s.Newborn o := by
    refine ⟨by rw [hconn]; rfl, by rw [hconn]; rfl, by rw [hconn]; rfl, by rw [hconn]; rfl,
      ?_, by rw [hconn]; rfl, by rw [hconn]; rfl⟩
    unfold Scene.deadlines
    rw [hs.clock, hs.id]
    refine List.filter_eq_nil_iff.2 fun t ht => ?_
    have htarget : t.job.target ≠ w.conns.length := (hw.targets t ht).ne
    simp [htarget]
  have htimed : s.Timed := by
    refine ⟨hs.clock ▸ hw.clock, fun a ha => ?_, fun a ha => ?_⟩ <;>
      simp [hconn, Conn.fresh] at ha
  have hsleg : s.leg = some leg := by
    rw [hs.leg, hconn]
    exact hleg
  have hpath : Path true s (s.register.update.mark s.register.update.legWaits) :=
    ((path_register s).toFull.trans (path_update _)).trans (path_mark _ _).toFull
  refine ⟨s, hconn, hnew, htimed, hsleg, hs.clock, ?_⟩
  rw [hbuild]
  exact hs.putScene (Anchored.of_path hpath)

/-- The scene of a new connection on a leg that waits when its deadline is about to be set. -/
theorem newborn_build (hw : w.Orderly) (hleg : w.legs[l]? = some leg)
    (hwaits : leg.state = .waiting) :
    ∃ s, Within (w.build (some l) o).2 w.conns.length s ∧ s.Newborn o ∧ s.leg = some leg ∧
      s.conn.waiting = true ∧ s.clock.now = w.clock.now := by
  obtain ⟨s, -, hnew, htimed, hsleg, hclock, hin⟩ := scene_build (o := o) hw hleg
  have hregister : Steady s s.register := Steady.of_path (path_register s)
  have hnew' := hregister.newborn hnew
  obtain ⟨hupdate, huleg⟩ := update_waiting hnew'.opened hnew'.live hsleg hwaits
  set u := s.register.update
  have hmark : Path false u (u.mark u.legWaits) := path_mark u _
  have hpath : Path true s (u.mark u.legWaits) :=
    ((path_register s).toFull.trans (path_update _)).trans hmark.toFull
  have huwaits : u.legWaits = true := by simp [legWaits, huleg, hwaits]
  exact ⟨_, hin, (Steady.of_path hmark).newborn (hupdate.newborn hnew'), huleg, huwaits,
    (onward_path htimed hpath).now.trans (congrArg Clock.now hclock)⟩

/-- **A new connection on a leg that waits has set its deadline.** -/
theorem awaits_connect (hw : w.Orderly) (hleg : w.legs[l]? = some leg)
    (hwaits : leg.state = .waiting) (hbearer : leg.bearer = .circuitSwitched)
    (hmade : (w.connect (some l) o).1 = .ok c) :
    c = w.conns.length ∧ (w.connect (some l) o).2.clock.now = w.clock.now ∧
      ∃ s a, Within (w.connect (some l) o).2 c s ∧
        s.Awaiting a (w.clock.now + Clock.bounded o.timeout) ∧ s.conn.driven = false := by
  obtain ⟨s, hin, hnew, hsleg, hswaits, hnow⟩ := newborn_build (o := o) hw hleg hwaits
  have hpacket : s.isPacketVoice = false := by simp [isPacketVoice, bearer, hsleg, hbearer]
  have hbuild : w.build (some l) o = (w.conns.length, (w.build (some l) o).2) := rfl
  set w' := (w.build (some l) o).2
  unfold connect inScene at hmade ⊢
  rw [hbuild] at hmade ⊢
  dsimp only at hmade ⊢
  rw [scene?_eq_some_iff.2 hin] at hmade ⊢
  simp only [hswaits, hpacket, Bool.not_false, Bool.and_true, if_true] at hmade ⊢
  by_cases hrunning : s.clock.running = true
  · have harm : s.arm = (.ok (), s.rearm) := by rw [arm_eq, if_pos hrunning, hnew.disarm_eq]
    have hawaiting := hnew.arm (by rw [hsleg]; rfl) hrunning
    have hanchored : Anchored s s.rearm := ⟨rfl, rfl, rfl, rfl, rfl, rfl⟩
    rw [harm] at hmade hawaiting ⊢
    obtain rfl := Except.ok.inj hmade
    exact ⟨rfl, hnow, _, _, hin.putScene hanchored, hnow ▸ hawaiting, hnew.idle⟩
  · have harm : s.arm = (.error Guard.noTimers, s.arm.2) :=
      Prod.ext (by rw [arm_eq, if_neg hrunning]) rfl
    rw [harm] at hmade
    cases hmade

end Making

/-! ## Before somebody handles its events -/

section Unattended

/-- Nobody handles the events of connection `c` as they arrive. -/
def Idles (w : World) (c : ConnId) : Prop := ∃ k, w.conns[c]? = some k ∧ k.driven = false

theorem ready_of_idles (h : w.Idles c) : w.ready c = [] := by
  obtain ⟨k, hk, hd⟩ := h
  unfold ready
  rw [hk]
  simp [hd]

theorem Idles.deed (h : w.Idles c) {i : ConnId} {d : Deed} (hd : i = c → ∃ e, d = .post e) :
    (w.happen (.deed i d)).Idles c := by
  obtain ⟨k, hk, hidle⟩ := h
  rcases within_or_le w i with ⟨s, hin⟩ | hle
  · rw [happen, onScene_of_within hin]
    by_cases hi : c = i
    · subst hi
      obtain ⟨e, rfl⟩ := hd rfl
      obtain rfl := hin.conn_eq hk
      exact ⟨_, hin.putScene_same _, hidle⟩
    · exact ⟨k, (putScene_other hi _).trans hk, hidle⟩
  · rw [happen, onScene_of_none hle]
    exact ⟨k, hk, hidle⟩

theorem Idles.expire (h : w.Idles c) (limit : ℕ) : (w.happen (.expire limit)).Idles c := by
  rw [happen]
  cases w.clock.next? limit with
  | none => exact h
  | some next =>
    have hclock : ({ w with clock := next.2 } : World).Idles c := h
    exact hclock.deed fun _ => ⟨_, rfl⟩

/-- An event that is no deadline arrives while the deadline waits in the mailbox. -/
theorem coming_hand (hw : w.Orderly) (h : Within w c s) (hs : s.Coming a) {d : Delivery}
    (hd : d.target = c → d.event.isMissed = false) :
    ∃ t, Within (w.hand d) c t ∧ t.Coming a := by
  by_cases hi : d.target = c
  · obtain ⟨i, e⟩ := d
    obtain rfl : i = c := hi
    rw [hand, onScene_of_within h]
    exact ⟨_, h.putScene (anchored_act s (by simp)), hs.post (hd rfl)⟩
  · obtain ⟨t, ht, hsteady, -⟩ := frame_deed hw h hi (.post d.event)
    exact ⟨t, ht, hsteady.coming hs⟩

theorem Comes.expire (h : w.Comes c due) (hw : w.Orderly) (limit : ℕ) :
    (w.happen (.expire limit)).Comes c due := by
  obtain ⟨hdue, s, a, h, hs⟩ := h
  refine ⟨hdue.trans (now_le_happen hw trivial), ?_⟩
  rw [happen]
  cases hn : w.clock.next? limit with
  | none => exact ⟨s, a, h, hs⟩
  | some next =>
    have hd := event_of_next h hs.timers hn
    obtain ⟨t, ht, hsteady, -⟩ := frame_next hw h hn hd
    obtain ⟨t', ht', hcoming⟩ := coming_hand (hw.next hn) ht (hsteady.coming hs) hd
    exact ⟨t', a, ht', hcoming⟩

/-- The deadline waits on the clock or in the mailbox. -/
def Unheard (w : World) (c : ConnId) (due : ℕ) : Prop := w.Awaits c due ∨ w.Comes c due

/-- What is steady for the connection. -/
theorem Unheard.of_frame {w' : World} (h : w.Unheard c due) (hnow : w.clock.now ≤ w'.clock.now)
    (hframe : ∀ s, Within w c s → ∃ t, Within w' c t ∧ Steady s t) : w'.Unheard c due := by
  rcases h with ⟨s, a, h, hs⟩ | ⟨hdue, s, a, h, hs⟩
  · obtain ⟨t, ht, hsteady⟩ := hframe s h
    exact .inl ⟨t, a, ht, hsteady.awaiting hs⟩
  · obtain ⟨t, ht, hsteady⟩ := hframe s h
    exact .inr ⟨hdue.trans hnow, t, a, ht, hsteady.coming hs⟩

theorem Unheard.fetches (n : ℕ) (h : w.Unheard c due) (hw : w.Orderly) {i : ConnId} (hi : i ≠ c) :
    (w.after (List.replicate n (.deed i .fetch))).Unheard c due := by
  induction n generalizing w with
  | zero => exact h
  | succ n ih =>
    refine ih (h.of_frame (now_deed hw i .fetch).ge fun s hs => ?_) (hw.deed i .fetch)
    obtain ⟨t, ht, hsteady, -⟩ := frame_deed hw hs hi .fetch
    exact ⟨t, ht, hsteady⟩

theorem Idles.fetches (n : ℕ) (h : w.Idles c) {i : ConnId} (hi : i ≠ c) :
    (w.after (List.replicate n (.deed i .fetch))).Idles c := by
  induction n generalizing w with
  | zero => exact h
  | succ n ih => exact ih (h.deed fun he => absurd he hi)

theorem Unheard.pass (h : w.Unheard c due) (hf : (Happening.pass limit).Fits w) :
    (w.happen (.pass limit)).Unheard c due := by
  refine h.of_frame hf.1 fun s hs => ?_
  obtain ⟨t, ht, hsteady, -⟩ := frame_happen (l := .pass limit) hs rfl
  exact ⟨t, ht, hsteady⟩

theorem Unheard.expire (h : w.Unheard c due) (hw : w.Orderly) (limit : ℕ) :
    (w.happen (.expire limit)).Unheard c due := by
  rcases h with h | h
  · by_cases hring : w.Rings c limit
    · obtain ⟨hnow, -, hcoming⟩ := awaits_ring hw h hring
      exact .inr ⟨hnow.ge, hcoming⟩
    · rcases awaits_happen (l := .expire limit) hw h trivial trivial
        (fun limit' he => by cases he; exact hring) with ⟨hawaits, -⟩ | ⟨-, -, d, hd, -⟩
      · exact .inl hawaits
      · cases hd
  · exact .inr (h.expire hw limit)

/-- **The timers of an advance** leave a deadline that nobody handles in the mailbox. -/
theorem Unheard.timers {fuel : ℕ} (h : w.Unheard c due) (hidle : w.Idles c) (hw : w.Orderly)
    (hf : w.Fitting (timerCourse limit fuel w)) :
    (w.after (timerCourse limit fuel w)).Unheard c due ∧
      (w.after (timerCourse limit fuel w)).Idles c := by
  induction fuel generalizing w with
  | zero => exact ⟨h.pass hf.1, hidle⟩
  | succ fuel ih =>
    cases hn : w.clock.next? limit with
    | none =>
      rw [timerCourse_none hn] at hf ⊢
      exact ⟨h.pass hf.1, hidle⟩
    | some next =>
      obtain ⟨d, clock⟩ := next
      rw [timerCourse_some hn] at hf ⊢
      set w' := w.happen (.expire limit)
      have hw' : w'.Orderly := hw.happen trivial
      obtain ⟨-, hrest⟩ := fitting_append.1 hf.2
      have hready : (w'.after (w'.ready d.target)).Unheard c due ∧
          (w'.after (w'.ready d.target)).Idles c := by
        have hunheard : w'.Unheard c due := h.expire hw limit
        have hidle' : w'.Idles c := hidle.expire limit
        by_cases hi : d.target = c
        · rw [hi, ready_of_idles hidle']
          exact ⟨hunheard, hidle'⟩
        · obtain ⟨n, hn⟩ := ready_eq_fetches w' d.target
          rw [hn]
          exact ⟨hunheard.fetches n hw' hi, hidle'.fetches n hi⟩
      rw [after_cons, after_append]
      exact ih hready.1 hready.2 (hw'.after (fitting_ready _ _)) hrest

end Unattended

end World

end CdmaCall
