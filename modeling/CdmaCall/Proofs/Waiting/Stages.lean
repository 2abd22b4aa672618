import CdmaCall.Proofs.World.Workload

/-!
# What becomes of a deadline in one scene

Once the deadline of a waiting call is set, its connection is in one of three stages. `Awaiting`: it
is open, live and bound, no cause is recorded, and the guard waits for the only timer there is.
`Coming`: the deadline has come and waits in the mailbox. `Over`: the guard waits for nothing, and
no deadline is on the clock or in the mailbox.

While the deadline has not come, a deed leaves it alone, calls it off, or ends the call for another
cause (`Awaiting.act`). When it is handled, the leg is hung up and the call ends as missed
(`Coming.missed`). What is over stays over (`Over.act`).
-/

namespace CdmaCall

/-- Whether an event is the deadline of a waiting call. -/
def Event.isMissed : Event → Bool
  | .missed _ => true
  | _ => false

/-- Whether a deed neither sets nor delivers a deadline, and does not end the call without giving a
cause. -/
def Deed.isOrdinary : Deed → Bool
  | .arm | .enter .disconnected => false
  | .handle e | .post e => !e.isMissed
  | _ => true

namespace Scene

variable {s s' s'' : Scene} {full : Bool} {a : Deadline} {due : ℕ}

/-! ## Definitions -/

section Defs

/-- The deadlines of the connection that are on the clock. -/
def deadlines (s : Scene) : List (Timer Delivery) :=
  s.clock.pending.filter fun t => t.job.target == s.id && t.job.event.isMissed

/-- The deadline `a`, due at `due`, has not come and has not been called off. -/
structure Awaiting (s : Scene) (a : Deadline) (due : ℕ) : Prop where
  opened : s.conn.closed = false
  live : s.conn.phase.isTerminal = false
  cause : s.conn.cause = none
  leg : s.leg.isSome = true
  armed : s.conn.guard.armed = some a
  timer : s.deadlines = [⟨a.timer, due, ⟨s.id, .missed a.generation⟩⟩]
  mail : ∀ e ∈ s.conn.mailbox.waiting, e.isMissed = false
  receiver : s.conn.mailbox.receiverGone = false

/-- The deadline `a` has come, and waits in the mailbox with other events around it. -/
structure Coming (s : Scene) (a : Deadline) : Prop where
  opened : s.conn.closed = false
  live : s.conn.phase.isTerminal = false
  cause : s.conn.cause = none
  leg : s.leg.isSome = true
  armed : s.conn.guard.armed = some a
  timers : s.deadlines = []
  receiver : s.conn.mailbox.receiverGone = false
  mail : ∃ front back, s.conn.mailbox.waiting = front ++ .missed a.generation :: back ∧
    ∀ e ∈ front ++ back, e.isMissed = false

/-- There is no deadline any more. -/
structure Over (s : Scene) : Prop where
  unarmed : s.conn.guard.armed = none
  timers : s.deadlines = []
  mail : ∀ e ∈ s.conn.mailbox.waiting, e.isMissed = false

/-- Nothing changes for the deadline. -/
structure Steady (s s' : Scene) : Prop where
  id : s'.id = s.id
  guard : s'.conn.guard = s.conn.guard
  deadlines : s'.deadlines = s.deadlines
  cause : s'.conn.cause = s.conn.cause
  terminal : s'.conn.phase.isTerminal = s.conn.phase.isTerminal
  closed : s'.conn.closed = s.conn.closed
  leg : s'.leg.isSome = s.leg.isSome
  mailbox : s'.conn.mailbox = s.conn.mailbox
  driven : s'.conn.driven = s.conn.driven

/-- What most deeds can make of a deadline. -/
inductive Outcome (s s' : Scene) : Prop
  | steady (h : Steady s s')
  | ended (cause : Cause) (hcause : cause ≠ .incomingMissed) (s₁ : Scene)
      (h : Steady s s₁ ∨ Steady s.disarm s₁) (heq : s' = s₁.disconnect cause)

end Defs

/-! ## Steady changes -/

section Changes

namespace Steady

theorem refl (s : Scene) : Steady s s := ⟨rfl, rfl, rfl, rfl, rfl, rfl, rfl, rfl, rfl⟩

theorem trans (h : Steady s s') (h' : Steady s' s'') : Steady s s'' :=
  ⟨h'.id.trans h.id, h'.guard.trans h.guard, h'.deadlines.trans h.deadlines,
    h'.cause.trans h.cause, h'.terminal.trans h.terminal, h'.closed.trans h.closed,
    h'.leg.trans h.leg, h'.mailbox.trans h.mailbox, h'.driven.trans h.driven⟩

/-- A burst may start a timer, but no deadline. -/
theorem perform (s : Scene) (a : Action) : Steady s (s.perform a) := by
  unfold Scene.perform
  cases s.phone with
  | none => exact refl s
  | some p =>
    dsimp only
    split
    · exact ⟨rfl, rfl, rfl, rfl, rfl, rfl, rfl, rfl, rfl⟩
    · refine ⟨rfl, rfl, ?_, rfl, rfl, rfl, rfl, rfl, rfl⟩
      simp [Scene.deadlines, Clock.start, Event.isMissed]

theorem of_bit (h : Bit false s s') : Steady s s' := by
  cases h with
  | putPhase =>
    rename_i p hp hlive
    have hphase : p.isTerminal = false := by simpa using hp
    exact ⟨rfl, rfl, rfl, rfl, hphase.trans hlive.symm, rfl, rfl, rfl, rfl⟩
  | perform => exact perform s _
  | hangUp =>
    unfold Scene.hangUp
    cases hl : s.leg with
    | none => exact refl s
    | some leg => exact ⟨rfl, rfl, rfl, rfl, rfl, rfl, by simp [hl], rfl, rfl⟩
  | correct =>
    unfold onLineControl
    cases hl : s.leg with
    | none => exact refl s
    | some leg => exact ⟨rfl, rfl, rfl, rfl, rfl, rfl, by simp [hl], rfl, rfl⟩
  | _ => exact ⟨rfl, rfl, rfl, rfl, rfl, rfl, rfl, rfl, rfl⟩

theorem of_path (h : Path false s s') : Steady s s' :=
  Path.keeps (fun _ _ hb (ht : Steady s _) => ht.trans (of_bit hb)) h (refl s)

theorem of_keyBit (h : KeyBit s s') : Steady s s' := by
  cases h with
  | quiet h => exact of_bit h
  | queue => exact ⟨rfl, rfl, rfl, rfl, rfl, rfl, rfl, rfl, rfl⟩
  | send digits =>
    have htones : Steady s (s.putTones { s.conn.tones with pending := true }) :=
      ⟨rfl, rfl, rfl, rfl, rfl, rfl, rfl, rfl, rfl⟩
    exact htones.trans (perform _ _)

theorem of_keyPath (h : KeyPath s s') : Steady s s' :=
  KeyPath.keeps (fun _ _ hb (ht : Steady s _) => ht.trans (of_keyBit hb)) h (refl s)

theorem onBurstConfirmed (s : Scene) : Steady s s.onBurstConfirmed := by
  have htones (t : Transmitter) : Steady s (s.putTones t) :=
    ⟨rfl, rfl, rfl, rfl, rfl, rfl, rfl, rfl, rfl⟩
  rcases onBurstConfirmed_cases s with ⟨-, h⟩ | ⟨-, -, h⟩
  · rw [h]
    exact htones _
  · rw [h]
    exact ((htones _).trans (refl _)).trans (perform _ _)

/-- An event that is no deadline. -/
theorem handle (s : Scene) {e : Event} (he : e.isMissed = false) : Steady s (s.handle e) := by
  unfold Scene.handle
  split_ifs
  · exact refl s
  · cases e with
    | missed generation => cases he
    | burstConfirmed => exact onBurstConfirmed s
    | lineControl => exact of_path (path_onLineControl s)

theorem awaiting (h : Steady s s') (hs : s.Awaiting a due) : s'.Awaiting a due where
  opened := h.closed.trans hs.opened
  live := h.terminal.trans hs.live
  cause := h.cause.trans hs.cause
  leg := h.leg.trans hs.leg
  armed := by rw [h.guard, hs.armed]
  timer := by rw [h.deadlines, h.id, hs.timer]
  mail := by rw [h.mailbox]; exact hs.mail
  receiver := by rw [h.mailbox, hs.receiver]

theorem coming (h : Steady s s') (hs : s.Coming a) : s'.Coming a where
  opened := h.closed.trans hs.opened
  live := h.terminal.trans hs.live
  cause := h.cause.trans hs.cause
  leg := h.leg.trans hs.leg
  armed := by rw [h.guard, hs.armed]
  timers := by rw [h.deadlines, hs.timers]
  receiver := by rw [h.mailbox, hs.receiver]
  mail := by rw [h.mailbox]; exact hs.mail

theorem stillOver (h : Steady s s') (hs : s.Over) : s'.Over :=
  ⟨by rw [h.guard, hs.unarmed], by rw [h.deadlines, hs.timers], by rw [h.mailbox]; exact hs.mail⟩

end Steady

end Changes

/-! ## Calling a deadline off -/

section CallingOff

theorem Over.disarm_eq (h : s.Over) : s.disarm = s := disarm_self h.unarmed

theorem Awaiting.disarm (h : s.Awaiting a due) : s.disarm.Over := by
  refine ⟨disarm_armed s, ?_, h.mail⟩
  have hcancel : s.disarm.deadlines = s.deadlines.filter (·.id != a.timer) := by
    unfold Scene.disarm Guard.disarm Scene.deadlines
    rw [h.armed]
    simp only [Clock.cancel, List.filter_filter]
    exact List.filter_congr fun t _ => Bool.and_comm _ _
  rw [hcancel, h.timer]
  simp

theorem Awaiting.disconnect (h : s.Awaiting a due) (cause : Cause) :
    (s.disconnect cause).Over ∧ (s.disconnect cause).conn.cause = some cause := by
  have hover := h.disarm
  rw [disconnect_eq s cause h.opened h.live]
  exact ⟨⟨hover.unarmed, hover.timers, hover.mail⟩, rfl⟩

end CallingOff

/-! ## Deeds -/

section Deeds

theorem outcome_update (s : Scene) : Outcome s s.update := by
  rcases update_cases s with h | ⟨s₁, h, heq⟩
  · exact .steady (Steady.of_path h)
  · exact .ended .normal (by decide) s₁ (.inl (Steady.of_path h)) heq

theorem outcome_reject (s : Scene) : Outcome s s.reject := by
  rcases reject_cases s with h | ⟨s₁, cause, hcause, h, heq⟩
  · exact .steady (Steady.of_path h)
  · exact .ended cause hcause s₁ (h.imp Steady.of_path Steady.of_path) heq

/-- Answering aside, deeds that leave the mailbox alone leave the deadline alone, or end the
call. -/
theorem outcome_act (s : Scene) {d : Deed} (hd : d.isOrdinary = true)
    (hmail : d.touchesMail = false) (hanswer : d ≠ .answer) : Outcome s (s.act d) := by
  cases d with
  | play digit => exact .steady (Steady.of_keyPath (keyPath_playTone s digit))
  | keys digits => exact .steady (Steady.of_keyPath (keyPath_pressKeys digits s))
  | stop => exact .steady (Steady.of_path (path_stopTone s))
  | reject => exact outcome_reject s
  | answer => exact absurd rfl hanswer
  | update => exact outcome_update s
  | enter phase =>
    refine .steady (Steady.of_path (path_enter s fun hp => ?_))
    cases phase <;> simp [Phase.isTerminal, Deed.isOrdinary] at hp hd
  | forceDialing dialing =>
    cases dialing with
    | true => exact .steady (Steady.of_path (path_setPhase s (by decide)))
    | false => exact outcome_update s
  | conference => exact .steady (Steady.of_path (path_conference s))
  | handle e => exact .steady (Steady.handle s (by simpa [Deed.isOrdinary] using hd))
  | register => exact .steady (Steady.of_path (path_register s))
  | unregister => exact .steady (Steady.of_path (path_unregister s))
  | mark => exact .steady (Steady.of_path (path_mark s _))
  | arm => cases hd
  | _ => cases hmail

theorem over_bit (h : Bit full s s') (hs : s.Over) : s'.Over := by
  cases h with
  | perform =>
    rename_i a h
    rw [perform_eq_of_not_burst s h]
    exact ⟨hs.unarmed, hs.timers, hs.mail⟩
  | disarm =>
    rw [hs.disarm_eq]
    exact hs
  | expire => exact ⟨rfl, hs.timers, hs.mail⟩
  | hangUp => unfold hangUp; cases s.leg <;> exact ⟨hs.unarmed, hs.timers, hs.mail⟩
  | correct => unfold onLineControl; cases s.leg <;> exact ⟨hs.unarmed, hs.timers, hs.mail⟩
  | _ => exact ⟨hs.unarmed, hs.timers, hs.mail⟩

theorem over_path (h : Path full s s') (hs : s.Over) : s'.Over :=
  Path.keeps (fun _ _ => over_bit) h hs

/-- An end that is over does not change again. -/
theorem disconnect_terminal (cause : Cause) (h : s.conn.phase.isTerminal = true) :
    s.disconnect cause = s := by
  unfold disconnect
  rw [if_pos h]

/-- What is over after a deed, and which cause is recorded. -/
structure Settled (s s' : Scene) : Prop where
  stillOver : s'.Over
  stays : s.conn.phase.isTerminal = true →
    s'.conn.phase.isTerminal = true ∧ s'.conn.cause = s.conn.cause
  cause : s'.conn.cause = s.conn.cause ∨ ∃ x, x ≠ .incomingMissed ∧ s'.conn.cause = some x

/-- It is all in the connection and the clock. -/
theorem Settled.congr (h : Settled s s') (hid : s''.id = s'.id) (hconn : s''.conn = s'.conn)
    (hclock : s''.clock = s'.clock) : Settled s s'' := by
  have hdeadlines : s''.deadlines = s'.deadlines := by
    unfold Scene.deadlines
    rw [hid, hclock]
  have hover : s''.Over := ⟨by rw [hconn]; exact h.stillOver.unarmed,
    hdeadlines.trans h.stillOver.timers, by rw [hconn]; exact h.stillOver.mail⟩
  exact ⟨hover, by rw [hconn]; exact h.stays, by rw [hconn]; exact h.cause⟩

theorem Settled.trans (h : Settled s s') (h' : Settled s' s'') : Settled s s'' := by
  refine ⟨h'.stillOver, fun ht => ?_, ?_⟩
  · obtain ⟨hterm, hcause⟩ := h.stays ht
    obtain ⟨hterm', hcause'⟩ := h'.stays hterm
    exact ⟨hterm', hcause'.trans hcause⟩
  · rcases h'.cause with hcause | hother
    · rw [hcause]
      exact h.cause
    · exact .inr hother

theorem Steady.settled (h : Steady s s') (hs : s.Over) : Settled s s' :=
  ⟨h.stillOver hs, fun ht => ⟨h.terminal.trans ht, h.cause⟩, .inl h.cause⟩

theorem setPhase_cause (s : Scene) (p : Phase) : (s.setPhase p).conn.cause = s.conn.cause := by
  unfold setPhase
  split_ifs
  · rfl
  · by_cases hlive : s.conn.isLive = true
    · rw [enter_eq s p hlive]
    · unfold enter
      rw [if_neg hlive]

theorem disconnect_cause (s : Scene) (cause : Cause) (hlive : ¬s.conn.phase.isTerminal = true) :
    (s.disconnect cause).conn.cause = some cause := by
  unfold disconnect
  rw [if_neg hlive]
  exact setPhase_cause _ _

theorem Settled.disconnect {s₁ : Scene} (h : Settled s s₁) (cause : Cause)
    (hcause : cause ≠ .incomingMissed) : Settled s (s₁.disconnect cause) := by
  have hover := over_path (path_disconnect s₁ cause) h.stillOver
  by_cases ht : s₁.conn.phase.isTerminal = true
  · rw [disconnect_terminal cause ht]
    exact h
  · exact ⟨hover, fun hs => absurd (h.stays hs).1 ht,
      .inr ⟨cause, hcause, disconnect_cause s₁ cause ht⟩⟩

theorem Outcome.settled (h : Outcome s s') (hs : s.Over) : Settled s s' := by
  cases h with
  | steady h => exact h.settled hs
  | ended cause hcause s₁ h heq =>
    rw [hs.disarm_eq, or_self_iff] at h
    rw [heq]
    exact (h.settled hs).disconnect cause hcause

theorem answer_steady (s : Scene) (hs : s.disarm = s) : Steady s s.answer := by
  by_cases hlive : s.conn.isLive = true
  · have hpath := answer_cases s hlive
    rw [hs] at hpath
    exact Steady.of_path hpath
  · unfold answer
    rw [if_neg hlive]
    exact Steady.refl s

theorem Settled.steady {s₁ : Scene} (h : Settled s s₁) (h' : Steady s₁ s') : Settled s s' :=
  ⟨h'.stillOver h.stillOver,
    fun ht => ⟨h'.terminal.trans (h.stays ht).1, h'.cause.trans (h.stays ht).2⟩, h'.cause ▸ h.cause⟩

theorem Over.putMail (h : s.Over) {m : Mailbox} (hm : ∀ e ∈ m.waiting, e.isMissed = false) :
    Settled s (s.putMail m) :=
  ⟨⟨h.unarmed, h.timers, hm⟩, fun ht => ⟨ht, rfl⟩, .inl rfl⟩

theorem Over.fetch (h : s.Over) : Settled s s.fetch := by
  have hmail := h.mail
  unfold Scene.fetch
  cases hw : s.conn.mailbox.waiting with
  | nil => exact (Steady.refl s).settled h
  | cons e rest =>
    rw [hw] at hmail
    have hrest := h.putMail (m := { s.conn.mailbox with waiting := rest })
      fun e' he' => hmail e' (List.mem_cons_of_mem _ he')
    exact hrest.steady (Steady.handle _ (hmail e (List.mem_cons_self ..)))

theorem Over.post (h : s.Over) {e : Event} (he : e.isMissed = false) :
    Settled s (s.act (.post e)) := by
  by_cases hacc : s.conn.mailbox.accepts = true
  · rw [act_post s e hacc]
    refine h.putMail fun e' he' => ?_
    rcases List.mem_append.1 he' with he' | he'
    · exact h.mail e' he'
    · rw [List.mem_singleton.1 he', he]
  · rw [act_post_of_not s e hacc]
    exact (Steady.refl s).settled h

/-- **What is over stays over**, and a call that has ended keeps its cause. -/
theorem Over.act (h : s.Over) {d : Deed} (hd : d.isOrdinary = true) : Settled s (s.act d) := by
  by_cases hmail : d.touchesMail = false
  · by_cases hanswer : d = .answer
    · subst hanswer
      exact (answer_steady s h.disarm_eq).settled h
    · exact (outcome_act s hd hmail hanswer).settled h
  · cases d with
    | close =>
      show Settled s s.close
      by_cases hclosed : s.conn.closed = true
      · unfold close
        rw [if_pos hclosed]
        exact (Steady.refl s).settled h
      · rw [close_eq s (by simpa using hclosed), h.disarm_eq]
        exact ⟨⟨h.unarmed, h.timers, h.mail⟩, fun ht => ⟨ht, rfl⟩, .inl rfl⟩
    | fetch => exact h.fetch
    | post e => exact h.post (by simpa [Deed.isOrdinary] using hd)
    | attend => exact ⟨⟨h.unarmed, h.timers, h.mail⟩, fun ht => ⟨ht, rfl⟩, .inl rfl⟩
    | retire => exact h.putMail (by simp [Mailbox.dropReceiver])
    | _ => exact absurd rfl hmail

theorem Outcome.awaiting (h : Outcome s s') (hs : s.Awaiting a due) :
    s'.Awaiting a due ∨ s'.Over ∧ ∃ x, x ≠ .incomingMissed ∧ s'.conn.cause = some x := by
  cases h with
  | steady h => exact .inl (h.awaiting hs)
  | ended cause hcause s₁ h heq =>
    subst heq
    rcases h with h | h
    · obtain ⟨hover, hset⟩ := (h.awaiting hs).disconnect cause
      exact .inr ⟨hover, cause, hcause, hset⟩
    · have hlive : ¬s₁.conn.phase.isTerminal = true := by
        rw [h.terminal]
        exact (Bool.eq_false_iff.1 hs.live)
      exact .inr ⟨over_path (path_disconnect s₁ cause) (h.stillOver hs.disarm), cause, hcause,
        disconnect_cause s₁ cause hlive⟩

theorem Awaiting.putMail (h : s.Awaiting a due) {m : Mailbox}
    (hm : ∀ e ∈ m.waiting, e.isMissed = false) (hreceiver : m.receiverGone = false) :
    (s.putMail m).Awaiting a due :=
  ⟨h.opened, h.live, h.cause, h.leg, h.armed, h.timer, hm, hreceiver⟩

theorem Awaiting.fetch (h : s.Awaiting a due) : s.fetch.Awaiting a due := by
  have hmail := h.mail
  unfold Scene.fetch
  cases hw : s.conn.mailbox.waiting with
  | nil => exact h
  | cons e rest =>
    rw [hw] at hmail
    have hrest := h.putMail (m := { s.conn.mailbox with waiting := rest })
      (fun e' he' => hmail e' (List.mem_cons_of_mem _ he')) h.receiver
    exact (Steady.handle _ (hmail e (List.mem_cons_self ..))).awaiting hrest

theorem Awaiting.post (h : s.Awaiting a due) {e : Event} (he : e.isMissed = false) :
    (s.act (.post e)).Awaiting a due := by
  by_cases hacc : s.conn.mailbox.accepts = true
  · rw [act_post s e hacc]
    refine h.putMail (fun e' he' => ?_) h.receiver
    rcases List.mem_append.1 he' with he' | he'
    · exact h.mail e' he'
    · rw [List.mem_singleton.1 he', he]
  · rw [act_post_of_not s e hacc]
    exact h

/-- **A deadline that has not come** is left alone, called off by answering or closing, or void
because the call ended for another cause. -/
theorem Awaiting.act (h : s.Awaiting a due) {d : Deed} (hd : d.isOrdinary = true)
    (hretire : d ≠ .retire) :
    (s.act d).Awaiting a due ∧ d ≠ .answer ∧ d ≠ .close ∨
      (s.act d).Over ∧ (s.act d).conn.cause ≠ some .incomingMissed ∧
        (d = .answer ∨ d = .close ∨ (s.act d).conn.cause.isSome = true) ∧
        d ≠ .fetch ∧ ∀ e, d ≠ .post e := by
  by_cases hanswer : d = .answer
  · subst hanswer
    have hlive : s.conn.isLive = true := by simp [Conn.isLive, h.opened, h.live]
    have hsteady : Steady s.disarm (s.act .answer) := Steady.of_path (answer_cases s hlive)
    have hcause : (s.act .answer).conn.cause = none := hsteady.cause.trans h.cause
    exact .inr ⟨hsteady.stillOver h.disarm, by simp [hcause], .inl rfl, by decide, by simp⟩
  by_cases hclose : d = .close
  · subst hclose
    have hover := h.disarm
    have hcause := h.cause
    refine .inr ?_
    rw [Scene.act, close_eq s h.opened]
    refine ⟨⟨hover.unarmed, hover.timers, hover.mail⟩, ?_, .inr (.inl rfl), by decide, by simp⟩
    show s.conn.cause ≠ some .incomingMissed
    rw [hcause]
    simp
  by_cases hmail : d.touchesMail = false
  · rcases (outcome_act s hd hmail hanswer).awaiting h with hs | ⟨hover, x, hx, hcause⟩
    · exact .inl ⟨hs, hanswer, hclose⟩
    · refine .inr ⟨hover, ?_, .inr (.inr ?_), ?_, fun e => ?_⟩
      · rw [hcause]
        simpa using hx
      · rw [hcause]
        rfl
      · rintro rfl
        cases hmail
      · rintro rfl
        cases hmail
  · refine .inl ⟨?_, hanswer, hclose⟩
    cases d with
    | fetch => exact h.fetch
    | post e => exact h.post (by simpa [Deed.isOrdinary] using hd)
    | attend =>
      exact ⟨h.opened, h.live, h.cause, h.leg, h.armed, h.timer, h.mail, h.receiver⟩
    | retire => exact absurd rfl hretire
    | close => exact absurd rfl hclose
    | _ => exact absurd rfl hmail

/-- The guard accepts its deadline, once, and a bound leg is hung up for it. -/
theorem handle_missed_eq (s : Scene) {leg : Leg} (hopen : s.conn.closed = false)
    (harmed : s.conn.guard.armed = some a) (hleg : s.leg = some leg) :
    s.handle (.missed a.generation) =
      (s.putGuard { s.conn.guard with armed := none }).hangUp.2.disconnect .incomingMissed := by
  unfold handle onMissed Guard.expire
  simp only [hopen, harmed, Bool.false_eq_true, if_false, beq_self_eq_true, if_true]
  have hdisarm : (s.putGuard { s.conn.guard with armed := none }).disarm =
      s.putGuard { s.conn.guard with armed := none } := rfl
  have huleg : (s.putGuard { s.conn.guard with armed := none }).leg = some leg := hleg
  unfold clearWaiting
  rw [hdisarm]
  dsimp only
  rw [huleg]
  rfl

/-- **A deadline that is handled** hangs up the leg, whether or not the network agrees, and the call
has ended as missed. -/
theorem Coming.missed {back : List Event} (h : s.Coming a)
    (hw : s.conn.mailbox.waiting = .missed a.generation :: back)
    (hback : ∀ e ∈ back, e.isMissed = false) :
    s.fetch.Over ∧ s.fetch.conn.phase = .disconnected ∧
      s.fetch.conn.cause = some .incomingMissed ∧ s.fetch.leg = s.leg.map (·.hangUp.2) := by
  obtain ⟨leg, hleg⟩ := Option.isSome_iff_exists.1 h.leg
  set u := (s.putMail { s.conn.mailbox with waiting := back }).putGuard
    { s.conn.guard with armed := none } with hu
  have hover : u.Over := ⟨rfl, h.timers, hback⟩
  have hfetch : s.fetch = u.hangUp.2.disconnect .incomingMissed := by
    unfold Scene.fetch
    rw [hw]
    exact handle_missed_eq (s.putMail { s.conn.mailbox with waiting := back }) h.opened h.armed hleg
  have hsteady : Steady u u.hangUp.2 := Steady.of_path (Path.of_bit (Bit.hangUp u))
  have hopen : u.hangUp.2.conn.closed = false := hsteady.closed.trans h.opened
  have hlive : u.hangUp.2.conn.phase.isTerminal = false := hsteady.terminal.trans h.live
  have hleg' : u.hangUp.2.leg = s.leg.map (·.hangUp.2) := by
    have huleg : u.leg = some leg := hleg
    unfold hangUp
    rw [huleg, hleg]
    rfl
  refine ⟨hfetch ▸ over_path (path_disconnect _ _) (hsteady.stillOver hover), ?_, ?_, ?_⟩
  · rw [hfetch, disconnect_eq _ _ hopen hlive]
  · rw [hfetch, disconnect_eq _ _ hopen hlive]
  · rw [hfetch, disconnect_eq _ _ hopen hlive]
    exact hleg'

/-- The next event is handled before the deadline, or it is the deadline. -/
theorem Coming.fetch (h : s.Coming a) :
    s.conn.mailbox.waiting.head?.any Event.isMissed = false ∧ s.fetch.Coming a ∨
      s.conn.mailbox.waiting.head?.any Event.isMissed = true ∧ s.fetch.Over ∧
        s.fetch.conn.phase = .disconnected ∧ s.fetch.conn.cause = some .incomingMissed ∧
        s.fetch.leg = s.leg.map (·.hangUp.2) := by
  obtain ⟨front, back, hw, hrest⟩ := h.mail
  cases front with
  | nil =>
    refine .inr ⟨by rw [hw]; rfl, h.missed hw hrest⟩
  | cons e front =>
    have he : e.isMissed = false := hrest e (List.mem_cons_self ..)
    have hput : (s.putMail { s.conn.mailbox with
        waiting := front ++ .missed a.generation :: back }).Coming a :=
      ⟨h.opened, h.live, h.cause, h.leg, h.armed, h.timers, h.receiver, front, back, rfl,
        fun e' he' => hrest e' (List.mem_cons_of_mem _ he')⟩
    have hfetch : s.fetch = (s.putMail { s.conn.mailbox with
        waiting := front ++ .missed a.generation :: back }).handle e := by
      unfold Scene.fetch
      rw [hw]
      rfl
    refine .inl ⟨by rw [hw]; exact he, ?_⟩
    rw [hfetch]
    exact (Steady.handle _ he).coming hput

/-- What arrives meanwhile waits behind the deadline. -/
theorem Coming.post (h : s.Coming a) {e : Event} (he : e.isMissed = false) :
    (s.act (.post e)).Coming a := by
  by_cases hacc : s.conn.mailbox.accepts = true
  · obtain ⟨front, back, hw, hrest⟩ := h.mail
    rw [act_post s e hacc]
    refine ⟨h.opened, h.live, h.cause, h.leg, h.armed, h.timers, h.receiver, front, back ++ [e],
      ?_, ?_⟩
    · simp [putMail, hw]
    · intro e' he'
      rw [← List.append_assoc] at he'
      rcases List.mem_append.1 he' with he' | he'
      · exact hrest e' he'
      · rw [List.mem_singleton.1 he', he]
  · rw [act_post_of_not s e hacc]
    exact h

/-- A deadline that arrives waits behind the events that came before. -/
theorem Awaiting.come (h : s.Awaiting a due) (hacc : s.conn.mailbox.accepts = true)
    (clock : Clock Delivery) (hclock : ({ s with clock } : Scene).deadlines = []) :
    (({ s with clock } : Scene).act (.post (.missed a.generation))).Coming a := by
  rw [act_post ({ s with clock } : Scene) _ hacc]
  exact ⟨h.opened, h.live, h.cause, h.leg, h.armed, hclock, h.receiver, s.conn.mailbox.waiting, [],
    rfl, by simpa using h.mail⟩

end Deeds

end Scene

end CdmaCall
