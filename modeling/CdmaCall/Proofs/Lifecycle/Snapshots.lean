import CdmaCall.Proofs.Lifecycle.Notices
import CdmaCall.Proofs.Session.Isolation
import CdmaCall.Proofs.Waiting.Clearing

/-!
# Views are well formed

What a view of a connection shows fits together at every moment of a session: digits wait for a
confirmation only, a deadline runs for a bound call that has not ended, a cause belongs to an ended
call, and an ended call does not wait (`wellFormed_during`). Each part is kept by every deed:
`awaited_act` for the digits, `atRest_act` for the waiting flag. The flag of an ended call could be
set only where a connection is made, and there `atRest_course` looks at what its leg says. It stays
clear for good, whatever the leg does and whichever leg the connection is bound to
(`snapshots_wellFormed`).
-/

namespace CdmaCall

section Defs

/-- A view in which the parts of a connection agree with each other. -/
structure ConnView.WellFormed (v : ConnView) : Prop where
  /-- Digits wait for a confirmation. -/
  queued : 0 < v.snapshot.queued → v.snapshot.confirmationPending = true
  /-- A deadline is set for an open, bound connection only, until the call gets a cause. -/
  armed : v.snapshot.timerArmed = true →
    v.snapshot.closed = false ∧ v.bound = true ∧ v.snapshot.cause = none
  /-- A call with a cause has ended. -/
  cause : v.snapshot.cause.isSome = true → v.snapshot.phase = .disconnected
  /-- A call that has ended does not wait. -/
  waiting : v.snapshot.phase = .disconnected → v.snapshot.waiting = false

/-- If the call of this connection has ended, it does not wait. -/
def Conn.AtRest (k : Conn) : Prop := k.phase.isTerminal = true → k.waiting = false

/-- Digits of this connection wait only while a confirmation is outstanding. -/
def Conn.Awaited (k : Conn) : Prop := k.tones.queue ≠ [] → k.tones.pending = true

/-- If the call of connection `c` has ended, it does not wait. -/
def World.AtRest (c : ConnId) (w : World) : Prop := ∀ k, w.conns[c]? = some k → k.AtRest

/-- The deadline of connection `c` is set only while it is bound to a leg. -/
def World.ArmedBound (c : ConnId) (w : World) : Prop :=
  ∀ k, w.conns[c]? = some k → k.guard.armed.isSome = true → k.leg.isSome = true

end Defs

namespace Scene

variable {s s' : Scene} {d : Deed} {full : Bool}

/-! ### Digits that wait -/

theorem awaited_keyPath (h : KeyPath s s') (hs : s.conn.Awaited) : s'.conn.Awaited := by
  refine KeyPath.keeps (R := fun u => u.conn.Awaited) (fun u u' hbit hu => ?_) h hs
  cases hbit with
  | quiet hbit =>
    rw [Conn.Awaited, tones_bit hbit]
    exact hu
  | queue queue hbusy => exact fun _ => hbusy
  | send digits =>
    rw [Conn.Awaited, tones_perform]
    exact fun _ => rfl

theorem awaited_handle (hs : s.conn.Awaited) (e : Event) : (s.handle e).conn.Awaited := by
  by_cases he : e = .burstConfirmed
  · subst he
    unfold handle
    split_ifs
    · exact hs
    · rcases onBurstConfirmed_cases s with ⟨-, h⟩ | ⟨-, -, h⟩
      · rw [h]
        exact fun hne => absurd rfl hne
      · rw [h, Conn.Awaited, tones_perform]
        exact fun _ => rfl
  · rw [Conn.Awaited, tones_path (path_handle s he)]
    exact hs

theorem awaited_act (hs : s.conn.Awaited) (d : Deed) : (s.act d).conn.Awaited := by
  by_cases hbits : d.ofBits = true
  · rw [Conn.Awaited, tones_path (path_act s hbits)]
    exact hs
  cases d with
  | play digit => exact awaited_keyPath (keyPath_playTone s digit) hs
  | keys digits => exact awaited_keyPath (keyPath_pressKeys digits s) hs
  | close =>
    by_cases hclosed : s.conn.closed = true
    · rw [act, close, if_pos hclosed]
      exact hs
    · rw [act, close_eq s (by simpa using hclosed)]
      exact fun hne => absurd rfl hne
  | handle e => exact awaited_handle hs e
  | fetch =>
    unfold act fetch
    cases s.conn.mailbox.waiting with
    | nil => exact hs
    | cons e rest =>
      exact awaited_handle (s := s.putMail { s.conn.mailbox with waiting := rest }) hs e
  | arm =>
    rw [act, arm_eq]
    split_ifs <;> exact hs
  | post | attend | retire => exact hs
  | _ => exact absurd rfl hbits

/-! ### The waiting flag of an ended call -/

theorem conn_hangUp (s : Scene) : s.hangUp.2.conn = s.conn := by
  unfold hangUp
  cases s.leg <;> rfl

theorem waiting_playTone (s : Scene) (c : Char) :
    (s.playTone c).2.conn.waiting = s.conn.waiting := by
  unfold playTone
  split_ifs
  · rfl
  · cases Keypad.digit c with
    | error e => rfl
    | ok digit =>
      cases s.phone with
      | none => rfl
      | some phone =>
        show ((s.putTones _).perform? _).conn.waiting = _
        rw [conn_perform?]
        rfl

theorem waiting_stopTone (s : Scene) : s.stopTone.conn.waiting = s.conn.waiting := by
  unfold stopTone
  split_ifs
  · rfl
  · rw [conn_perform?]

theorem waiting_pressKeys (cs : List Char) (s : Scene) :
    (s.pressKeys cs).2.conn.waiting = s.conn.waiting := by
  induction cs generalizing s with
  | nil => rfl
  | cons c cs ih =>
    have hplay := waiting_playTone s c
    rw [pressKeys]
    cases hp : s.playTone c with
    | mk r s' =>
      rw [hp] at hplay
      cases r with
      | error e => exact hplay
      | ok _ => exact (ih s'.stopTone).trans ((waiting_stopTone s').trans hplay)

/-- An ended call is not cleared once more. -/
theorem waiting_clearWaiting (cause : Cause) (hs : s.conn.phase.isTerminal = true) :
    (s.clearWaiting cause).conn.waiting = s.conn.waiting := by
  have hphase : s.disarm.hangUp.2.conn.phase.isTerminal = true := by
    rw [conn_hangUp]
    exact hs
  unfold clearWaiting
  dsimp only
  split
  · rfl
  · rw [hangUpAndDisconnect, disconnect_terminal cause hphase, conn_hangUp]
    rfl

/-- Of the events only a deadline can concern the waiting flag, as it may clear the call. -/
theorem waiting_handle_of_clearWaiting (hclear : ∀ guard,
    ((s.putGuard guard).clearWaiting .incomingMissed).conn.waiting = s.conn.waiting) (e : Event) :
    (s.handle e).conn.waiting = s.conn.waiting := by
  unfold handle
  split_ifs
  · rfl
  cases e with
  | missed generation =>
    show (s.onMissed generation).conn.waiting = _
    unfold onMissed
    rcases s.conn.guard.expire generation with ⟨_ | _, guard⟩
    · rfl
    · exact hclear guard
  | burstConfirmed =>
    show ((s.putTones _).perform? _).conn.waiting = _
    rw [conn_perform?]
    rfl
  | lineControl =>
    show s.onLineControl.conn.waiting = _
    unfold onLineControl
    cases s.leg <;> rfl

theorem waiting_handle (hs : s.conn.phase.isTerminal = true) (e : Event) :
    (s.handle e).conn.waiting = s.conn.waiting :=
  waiting_handle_of_clearWaiting (fun guard =>
    waiting_clearWaiting (s := s.putGuard guard) .incomingMissed hs) e

/-- **Nothing sets the waiting flag of an ended call**, unless it is set to what the leg says. -/
theorem waiting_act (hs : s.conn.phase.isTerminal = true) {d : Deed} (hd : d ≠ .mark) :
    (s.act d).conn.waiting = s.conn.waiting := by
  have hlive : ¬s.conn.isLive = true := by simp [Conn.isLive, hs]
  have hupdate : s.update = s := by rw [update, if_neg hlive]
  cases d with
  | play digit => exact waiting_playTone s digit
  | keys digits => exact waiting_pressKeys digits s
  | stop => exact waiting_stopTone s
  | reject => rw [act, reject, if_neg hlive]
  | answer => rw [act, answer, if_neg hlive]
  | update => rw [act, hupdate]
  | close =>
    show s.close.conn.waiting = _
    unfold close
    split_ifs <;> rfl
  | enter phase => rw [act, enter, if_neg hlive]
  | forceDialing dialing =>
    cases dialing with
    | true =>
      show (s.setPhase .dialing).conn.waiting = _
      unfold setPhase enter
      rw [if_neg hlive]
      split_ifs <;> rfl
    | false => exact congrArg (·.conn.waiting) hupdate
  | conference =>
    show s.conference.2.conn.waiting = _
    unfold conference
    split_ifs
    · rw [conn_perform]
    · rfl
  | handle e => exact waiting_handle hs e
  | fetch =>
    show s.fetch.conn.waiting = _
    unfold fetch
    cases s.conn.mailbox.waiting with
    | nil => rfl
    | cons e rest =>
      exact waiting_handle (s := s.putMail { s.conn.mailbox with waiting := rest }) hs e
  | mark => exact absurd rfl hd
  | arm =>
    rw [act, arm_eq]
    split_ifs <;> rfl
  | post | attend | retire | register | unregister => rfl

/-- **A call that ends does not wait**, and does not begin to. -/
theorem atRest_act (hs : s.conn.AtRest) {d : Deed} (hd : d ≠ .mark) :
    (s.act d).conn.AtRest := by
  intro hterm
  by_cases hended : s.conn.phase.isTerminal = true
  · rw [waiting_act hended hd]
    exact hs hended
  · cases effect_act s d with
    | aside h => exact absurd (h.phase ▸ hterm) hended
    | enter u p h hlive _ hs' =>
      rw [hs', enter_eq u p (h.isLive.trans hlive)] at hterm ⊢
      have hp : p.isTerminal = true := hterm
      simp [hp]
    | finish u cause h hlive hs' =>
      have hlive' : u.conn.isLive = true := h.isLive.trans hlive
      rw [hs', disconnect_eq u cause (open_of_isLive hlive') (going_of_isLive hlive')]
    | shut _ hopen hs' =>
      rw [hs', close_eq s hopen] at hterm
      exact absurd hterm hended
    | correct mailbox _ _ hs' =>
      rw [hs'] at hterm
      unfold onLineControl at hterm
      cases hl : (s.putMail mailbox).leg <;> rw [hl] at hterm <;> exact absurd hterm hended
    | register _ hs' =>
      rw [hs'] at hterm
      exact absurd hterm hended
    | unregister _ hs' =>
      rw [hs'] at hterm
      exact absurd hterm hended

end Scene

namespace World

open Scene

variable {w start : World} {c : ConnId} {k : Conn} {x : Happening} {m : Moment} {ops : List Op}
  {hs : List Happening}

/-! ### Connections that are made -/

/-- Whatever any other happening keeps, and the deed `d` brings about, holds in the end. -/
theorem kept_unless {P : World → Prop} {d : Deed}
    (hnext : ∀ w x, x ≠ .deed c d → P w → P (w.happen x))
    (hd : ∀ m ∈ w.moments hs, m.what = .deed c d → P m.after) (hp : P w) : P (w.after hs) := by
  induction hs generalizing w with
  | nil => exact hp
  | cons x hs ih =>
    have hrest : ∀ m ∈ (w.happen x).moments hs, m.what = .deed c d → P m.after :=
      fun m hm => hd m (List.mem_cons_of_mem _ hm)
    by_cases hx : x = .deed c d
    · exact ih hrest (hd ⟨w, x⟩ (List.mem_cons_self ..) hx)
    · exact ih hrest (hnext w x hx hp)

theorem AtRest.next (hw : w.AtRest c) (hx : x ≠ .deed c .mark) : (w.happen x).AtRest c := by
  intro k' hk'
  cases hk : w.conns[c]? with
  | none =>
    obtain ⟨o, rfl⟩ := fresh_happen hk hk'
    exact fun _ => rfl
  | some k =>
    obtain ⟨k₁, hk₁, hchange⟩ := change_happen hk x
    obtain rfl := Option.some.inj (hk'.symm.trans hk₁)
    cases hchange with
    | none h => exact h ▸ hw k hk
    | deed s d hin hs hd h =>
      subst hs h
      exact atRest_act (hw _ hk) fun hmark => hx (by rw [hd, hmark])
    | mail e h => exact h ▸ hw k hk
    | leg l _ h => exact h ▸ hw k hk

/-- The waiting flag is set to what the leg says only when a connection is made. -/
theorem mark_mem {op : Op} (h : .deed c .mark ∈ w.course op) :
    (∃ leg? o, op = .connect leg? o) ∨ ∃ i, op = .cloneConn i := by
  have hnot {i : ConnId} {d : Deed} (he : Happening.deed c .mark = .deed i d) (hd : d ≠ .mark) :
      False := hd (Happening.deed.inj he).2.symm
  cases op with
  | connect leg? o => exact .inl ⟨leg?, o, rfl⟩
  | cloneConn i => exact .inr ⟨i, rfl⟩
  | advance ms => rcases mem_timerCourse h with ⟨i, he⟩ | he | he <;> cases he
  | confirm p =>
    rw [course, confirmCourse] at h
    split at h
    · cases h
    · rcases List.mem_cons.1 h with he | h
      · cases he
      · cases mem_ready h
  | broadcast p => obtain ⟨i, he | he⟩ := mem_broadcastCourse h <;> cases he
  | rebind i l =>
    rw [course] at h
    split at h
    · cases h
    · split_ifs at h
      · cases h
      · unfold bindCourse at h
        split_ifs at h
        · simp at h
        · cases h
  | drain i =>
    rw [course, drainCourse] at h
    split at h
    · cases h
    · cases List.eq_of_mem_replicate h
  | drive i => obtain he | he | ⟨he, -⟩ := mem_driveCourse h <;> cases he
  | _ => simp [course] at h

/-- A connection that is made on a leg that is gone does not wait. -/
theorem atRest_build (hw : w.Orderly) {leg? : Option LegId} {o : Options}
    (hm : m ∈ w.moments (w.buildCourse leg? o)) (hwhat : m.what = .deed c .mark) :
    m.after.AtRest c := by
  obtain ⟨first, hcourse, hfirst⟩ : ∃ first,
      w.buildCourse leg? o = first ++ [.deed w.conns.length .mark] ∧
        .deed c .mark ∉ first := by
    refine ⟨_, rfl, ?_⟩
    cases leg? with
    | none => simp
    | some l =>
      dsimp only
      unfold bindCourse
      split_ifs <;> simp
  rw [hcourse, moments_append] at hm
  rcases List.mem_append.1 hm with hm | hm
  · exact absurd (hwhat ▸ what_mem hm) hfirst
  · obtain rfl := List.mem_singleton.1 hm
    obtain rfl := (Happening.deed.inj hwhat).1
    have hafter : Moment.after ⟨w.after first, .deed w.conns.length .mark⟩ =
        (w.build leg? o).2 := by
      rw [build_eq, hcourse, after_append]
      rfl
    rw [hafter]
    intro k hk hterm
    obtain ⟨s, hin, rfl⟩ := exists_within hk
    by_contra hwaits
    have hnew := (waits_of_build hw hin (by simpa using hwaits)).1
    rw [hnew.live] at hterm
    cases hterm

theorem atRest_course (hw : w.Orderly) {op : Op} (hm : m ∈ w.moments (w.course op))
    (hwhat : m.what = .deed c .mark) : m.after.AtRest c := by
  rcases mark_mem (hwhat ▸ what_mem hm) with ⟨leg?, o, rfl⟩ | ⟨i, rfl⟩
  · rw [course, connectCourse, moments_append] at hm
    rcases List.mem_append.1 hm with hm | hm
    · exact atRest_build hw hm hwhat
    · rcases mem_armCourse (hwhat ▸ what_mem hm) with he | he <;> cases he
  · rw [course] at hm
    split at hm
    · cases hm
    · exact atRest_build hw hm hwhat

theorem atRest_story (ops : List Op) (hw : w.Orderly) :
    ∀ m ∈ w.story ops, m.what = .deed c .mark → m.after.AtRest c := by
  induction ops generalizing w with
  | nil => simp [story, history, moments]
  | cons op ops ih =>
    intro m hm hwhat
    rw [story_cons, moments_append] at hm
    rcases List.mem_append.1 hm with hm | hm
    · rcases List.mem_append.1 hm with hm | hm
      · exact atRest_course hw hm hwhat
      · rcases mem_timerCourse (hwhat ▸ what_mem hm) with ⟨i, he⟩ | he | he <;> cases he
    · exact ih (hw.step op) m hm hwhat

theorem ArmedBound.next (hw : w.ArmedBound c) (hx : x ≠ .deed c .arm) :
    (w.happen x).ArmedBound c := by
  intro k' hk' harmed
  obtain ⟨a, ha⟩ := Option.isSome_iff_exists.1 harmed
  obtain ⟨k, hk, harmed, -, hleg | ⟨l, hleg, -⟩, -⟩ := armed_happen hx hk' ha
  · rw [hleg]
    exact hw k hk (by rw [harmed]; rfl)
  · rw [hleg]
    rfl

theorem armedBound_of_sets (h : m.Sets c) : m.after.ArmedBound c := by
  obtain ⟨k, l, -, hk, -, -, hl, -⟩ := h.waits
  obtain ⟨s, hin, rfl⟩ := exists_within hk
  intro k' hk' _
  rw [Moment.after, h.what, hin.conn_deed] at hk'
  obtain rfl := Option.some.inj hk'
  have hsame : (s.act .arm).conn.leg = s.conn.leg := (anchored_act s (by simp)).bound
  rw [hsame, hl]
  rfl

/-! ### Views -/

/-- Any part of a run is made of moments of its story. -/
theorem mem_story_of_during {n : ℕ} (hm : m ∈ w.moments ((w.history ops).take n)) :
    m ∈ w.story ops := by
  rw [moments_take] at hm
  exact List.mem_of_mem_take hm

theorem atRest_during (hstart : start.Fresh) (ops : List Op) (n : ℕ) :
    (start.during ops n).AtRest c :=
  kept_unless (fun _ _ hx hw => AtRest.next hw hx)
    (fun _ hm => atRest_story ops hstart.orderly _ (mem_story_of_during hm))
    fun k hk => by simp [hstart.conns] at hk

theorem armedBound_during (hstart : start.Fresh) (ops : List Op) (n : ℕ) :
    (start.during ops n).ArmedBound c :=
  kept_unless (fun _ _ hx hw => ArmedBound.next hw hx)
    (fun _ hm hwhat => armedBound_of_sets
      (sets_story ops hstart.orderly _ (mem_story_of_during hm) hwhat))
    fun k hk => by simp [hstart.conns] at hk

theorem awaited_during (hstart : start.Fresh) (ops : List Op) (n : ℕ)
    (hk : (start.during ops n).conns[c]? = some k) : k.Awaited := by
  refine kept_from_start (P := fun _ k => k.Awaited) ?_ ?_ _ hstart.conns hk
  · exact fun _ o hne => absurd rfl hne
  · rintro _ w x k k' - hchange hawaited
    cases hchange with
    | none h => exact h ▸ hawaited
    | deed s d _ hs _ h =>
      subst hs h
      exact awaited_act hawaited d
    | mail e h => exact h ▸ hawaited
    | leg l _ h => exact h ▸ hawaited

/-- **At every moment of a session every view is well formed.** -/
theorem wellFormed_during (hstart : start.Fresh) (ops : List Op) (n : ℕ) {v : ConnView}
    (hv : (start.during ops n).viewOf c = some v) : v.WellFormed := by
  obtain ⟨s, hs, rfl⟩ := Option.map_eq_some_iff.1 hv
  have hin := scene?_eq_some_iff.1 hs
  obtain ⟨l, hl⟩ := exists_life _ hstart.conns hin.conn
  have hphase : s.conn.phase = l.phase := congrArg Standing.phase hl
  have hcause : s.conn.cause = l.cause := congrArg Standing.cause hl
  refine ⟨fun hqueued => ?_, fun harmed => ?_, fun hsome => ?_, fun hended => ?_⟩
  · exact awaited_during hstart ops n hin.conn (List.ne_nil_of_length_pos hqueued)
  · obtain ⟨a, ha⟩ := Option.isSome_iff_exists.1 harmed
    obtain ⟨hopen, hnone, -⟩ := accounted_during hstart ops n c s.conn a hin.conn ha
    exact ⟨hopen, armedBound_during hstart ops n s.conn hin.conn harmed, hnone⟩
  · show s.conn.phase = .disconnected
    have hsome' : l.cause.isSome = true := hcause ▸ hsome
    rw [hphase, Life.phase]
    cases he : l.ended with
    | none => simp [Life.cause, he] at hsome'
    | some cause => rfl
  · refine atRest_during hstart ops n s.conn hin.conn ?_
    rw [show s.conn.phase = .disconnected from hended]
    rfl

/-- **Views are well formed, and an ended call never waits again.** -/
theorem snapshots_wellFormed (hstart : start.Fresh) (ops : List Op) {n m : ℕ} (hnm : n ≤ m)
    {v : ConnView} (hv : (start.during ops n).viewOf c = some v) :
    v.WellFormed ∧ ∃ v', (start.during ops m).viewOf c = some v' ∧
      (v.snapshot.phase = .disconnected →
        v'.snapshot.phase = .disconnected ∧ v'.snapshot.waiting = false) := by
  refine ⟨wellFormed_during hstart ops n hv, ?_⟩
  obtain ⟨s, hs, rfl⟩ := Option.map_eq_some_iff.1 hv
  have hin := scene?_eq_some_iff.1 hs
  obtain ⟨k', hk', hfollows⟩ := exists_follows (((start.history ops).take m).drop n) hin.conn
  rw [← during_of_le start ops hnm] at hk'
  obtain ⟨s', hin', rfl⟩ := exists_within hk'
  have hv' : (start.during ops m).viewOf c = some s'.view := by
    rw [viewOf, scene?_eq_some_iff.2 hin']
    rfl
  refine ⟨s'.view, hv', fun hended => ?_⟩
  have hterm : s.conn.standing.phase.isTerminal = true := by
    rw [show s.conn.standing.phase = .disconnected from hended]
    rfl
  have hended' : s'.conn.phase = .disconnected := (hfollows.ended hterm).1.trans hended
  exact ⟨hended', (wellFormed_during hstart ops m hv').waiting hended'⟩

/-- Two legs that wait; the first refuses to be released. -/
def servedStubborn : World :=
  { phones := [{ id := 0 }],
    legs := [{ Leg.waiting "5550100" (some 0) with refusesHangup := true },
      Leg.waiting "5550101" (some 0)] }

theorem fresh_servedStubborn : servedStubborn.Fresh :=
  ⟨rfl, rfl, by simp [servedStubborn], by simp [servedStubborn], by simp [servedStubborn]⟩

/-- A rejected call whose leg goes on waiting does not wait, nor does it on another such leg. -/
theorem snapshots_wellFormed_served :
    let ops : List Op := [.connect (some 0) { direction := .incoming }, .reject 0, .rebind 0 1]
    servedStubborn.Fresh ∧ ∃ v, (servedStubborn.during ops 9).viewOf 0 = some v ∧
      v.snapshot.cause = some .incomingRejected ∧ v.WellFormed ∧
      (servedStubborn.during ops 9).legs.map (·.state) = [.waiting, .waiting] ∧
      (servedStubborn.during ops 14).legAt 0 = some 1 ∧
      (servedStubborn.during ops 14).legs.map (·.state) = [.waiting, .waiting] ∧
      ∃ v', (servedStubborn.during ops 14).viewOf 0 = some v' ∧
        v'.snapshot.phase = .disconnected ∧ v'.snapshot.waiting = false := by
  intro ops
  have hrejected : ((servedStubborn.during ops 9).viewOf 0).map
      (fun v => (v.snapshot.phase, v.snapshot.cause)) =
        some (.disconnected, some .incomingRejected) := by decide +kernel
  obtain ⟨v, hv, heq⟩ := Option.map_eq_some_iff.1 hrejected
  obtain ⟨hended, hcause⟩ := Prod.mk.inj heq
  obtain ⟨hwell, v', hv', hlater⟩ :=
    snapshots_wellFormed fresh_servedStubborn ops (show 9 ≤ 14 by decide) hv
  exact ⟨fresh_servedStubborn, v, hv, hcause, hwell, by decide +kernel, by decide +kernel,
    by decide +kernel, v', hv', hlater hended⟩

end World

end CdmaCall
