import CdmaCall.Proofs.Connection.Deeds

/-!
# What a deed does to what others rely on

A connection shares its leg, its phone and the cue player with others, and tells of its life. A deed
leaves all of that as it is (`Aside`), or it has one `Effect` on it: a phase is entered, the call
ends, the connection is closed, a line control record is taken in, or the subscription to these
records begins or ends (`effect_act`).
-/

namespace CdmaCall

/-- Whether a request is about a subscription to line control records. -/
def Action.isBooking : Action → Bool
  | .register _ | .unregister _ => true
  | _ => false

/-- The subscriptions of a phone, and the requests for them in order. -/
def Phone.book (p : Phone) : List ConnId × List Action :=
  (p.subscribers, p.actions.filter (·.isBooking))

/-- What is recorded and is no booking leaves the book as it is. -/
theorem Phone.book_perform (p : Phone) (c : ConnId) {a : Action} (ha : a.isBooking = false) :
    (p.perform c a).2.book = p.book := by
  have hrecord : (p.record a).book = p.book := by simp [book, record, ha]
  unfold perform
  split
  · exact hrecord
  · exact hrecord
  · exact hrecord

/-- Tones have nothing to do with subscriptions. -/
theorem Transmitter.not_booking_play (t : Transmitter) (mode : ToneMode) (holding : Bool)
    (digit : Char) : ∀ a ∈ (t.play mode holding digit).2.2, a.isBooking = false := by
  intro a ha
  cases mode with
  | continuous =>
    obtain rfl := Option.some.inj ha
    rfl
  | burst =>
    by_cases hpending : t.pending = true
    · simp [play, hpending] at ha
    · simp only [play, if_neg hpending, Option.mem_def, Option.some.injEq] at ha
      rw [← ha]
      rfl

theorem Transmitter.not_booking_confirmed (t : Transmitter) (hasPhone : Bool) :
    ∀ a ∈ (t.confirmed hasPhone).2.2, a.isBooking = false := by
  intro a ha
  by_cases hempty : t.queue.isEmpty = true
  · simp [confirmed, hempty] at ha
  · cases hasPhone with
    | false => simp [confirmed, hempty] at ha
    | true =>
      simp only [confirmed, if_neg hempty, if_true, Option.mem_def, Option.some.injEq] at ha
      rw [← ha]
      rfl

/-- A leg but for its state and how often it was asked to hang up. -/
def Leg.bare (l : Leg) : Leg := { l with state := .idle, hangups := 0 }

namespace Scene

variable {s s' s'' u : Scene} {d : Deed} {p : Phase} {cause : Cause}

/-- The event that a deed handles, if it handles one. -/
def event? (s : Scene) : Deed → Option Event
  | .handle e => some e
  | .fetch => s.conn.mailbox.waiting.head?
  | _ => none

/-- The leg stays the same, apart from requests to hang it up, and so do the correction, the
subscriptions of the phone and the time. -/
structure Unmoved (s s' : Scene) : Prop where
  anchored : Anchored s s'
  correction : s'.conn.correction = s.conn.correction
  leg : s'.leg.map Leg.bare = s.leg.map Leg.bare
  phone : s'.phone.map Phone.book = s.phone.map Phone.book
  now : s'.clock.now = s.clock.now

/-- The life of the connection and the cue stay the same as well. -/
structure Aside (s s' : Scene) : Prop extends Unmoved s s' where
  phase : s'.conn.phase = s.conn.phase
  cause : s'.conn.cause = s.conn.cause
  closed : s'.conn.closed = s.conn.closed
  notices : s'.conn.notices = s.conn.notices
  player : s'.player = s.player

/-- What a deed does to what others rely on. Only a report of the end of a call enters
`Phase.disconnected` like any other phase. -/
inductive Effect (d : Deed) (s s' : Scene) : Prop
  | aside (h : Aside s s')
  | enter (u : Scene) (p : Phase) (h : Aside s u) (hlive : s.conn.isLive = true)
      (hp : p.isTerminal = true → d = .enter p) (hs' : s' = u.enter p)
  | finish (u : Scene) (cause : Cause) (h : Aside s u) (hlive : s.conn.isLive = true)
      (hs' : s' = u.disconnect cause)
  | shut (hd : d = .close) (hopen : s.conn.closed = false) (hs' : s' = s.close)
  | correct (mailbox : Mailbox) (he : s.event? d = some .lineControl)
      (hopen : s.conn.closed = false) (hs' : s' = (s.putMail mailbox).onLineControl)
  | register (hd : d = .register) (hs' : s' = s.register)
  | unregister (hd : d = .unregister) (hs' : s' = s.unregister)

/-! ### Steps that leave it as it is -/

namespace Unmoved

theorem refl (s : Scene) : Unmoved s s := ⟨Anchored.refl s, rfl, rfl, rfl, rfl⟩

theorem trans (h : Unmoved s s') (h' : Unmoved s' s'') : Unmoved s s'' :=
  ⟨h.anchored.trans h'.anchored, h'.correction.trans h.correction, h'.leg.trans h.leg,
    h'.phone.trans h.phone, h'.now.trans h.now⟩

end Unmoved

namespace Aside

theorem refl (s : Scene) : Aside s s := ⟨Unmoved.refl s, rfl, rfl, rfl, rfl, rfl⟩

theorem trans (h : Aside s s') (h' : Aside s' s'') : Aside s s'' :=
  ⟨h.toUnmoved.trans h'.toUnmoved, h'.phase.trans h.phase, h'.cause.trans h.cause,
    h'.closed.trans h.closed, h'.notices.trans h.notices, h'.player.trans h.player⟩

theorem isLive (h : Aside s s') : s'.conn.isLive = s.conn.isLive := by
  rw [Conn.isLive, Conn.isLive, h.closed, h.phase]

/-- Tones, guard, mailbox and waiting flag are nobody else's, and timers may be started. -/
theorem inner (s : Scene) (waiting : Bool) (tones : Transmitter) (guard : Guard)
    (mailbox : Mailbox) (driven : Bool) (clock : Clock Delivery)
    (hnow : clock.now = s.clock.now) :
    Aside s { s with clock, conn := { s.conn with waiting, tones, guard, mailbox, driven } } :=
  ⟨⟨⟨rfl, rfl, rfl, rfl, rfl, rfl⟩, rfl, rfl, rfl, hnow⟩, rfl, rfl, rfl, rfl, rfl⟩

theorem mark (s : Scene) (b : Bool) : Aside s (s.mark b) := inner s b _ _ _ _ _ rfl

theorem putTones (s : Scene) (t : Transmitter) : Aside s (s.putTones t) :=
  inner s _ t _ _ _ _ rfl

theorem putGuard (s : Scene) (g : Guard) : Aside s (s.putGuard g) := inner s _ _ g _ _ _ rfl

theorem putMail (s : Scene) (m : Mailbox) : Aside s (s.putMail m) := inner s _ _ _ m _ _ rfl

theorem disarm (s : Scene) : Aside s s.disarm := by
  have hnow : (s.conn.guard.disarm s.clock).2.2.now = s.clock.now := by
    unfold Guard.disarm
    cases s.conn.guard.armed <;> rfl
  exact inner s _ _ (s.conn.guard.disarm s.clock).2.1 _ _ _ hnow

theorem arm (s : Scene) : Aside s s.arm.2 := by
  rw [arm_eq]
  split_ifs
  · exact (disarm s).trans (inner s.disarm _ _ _ _ _ _ rfl)
  · exact (disarm s).trans (putGuard s.disarm _)

theorem perform (s : Scene) {a : Action} (ha : a.isBooking = false) : Aside s (s.perform a) := by
  have hanchored := Anchored.perform s a
  unfold Scene.perform at hanchored ⊢
  cases hp : s.phone with
  | none => exact refl s
  | some phone =>
    have hbook := phone.book_perform s.id ha
    cases hperform : phone.perform s.id a with
    | mk delay phone' =>
      rw [hperform] at hbook
      simp only [hp, hperform] at hanchored ⊢
      cases delay <;>
        exact ⟨⟨hanchored, rfl, rfl, by simp [hp, hbook], rfl⟩, rfl, rfl, rfl, rfl, rfl⟩

theorem perform? (s : Scene) {a : Option Action} (ha : ∀ b ∈ a, b.isBooking = false) :
    Aside s (s.perform? a) := by
  cases a with
  | none => exact refl s
  | some a => exact perform s (ha a rfl)

theorem hangUp (s : Scene) : Aside s s.hangUp.2 := by
  have hbare : s.hangUp.2.leg.map Leg.bare = s.leg.map Leg.bare := by
    unfold Scene.hangUp Leg.hangUp
    cases hl : s.leg with
    | none => simp [hl]
    | some leg => by_cases hr : leg.refusesHangup = true <;> simp [hr, Leg.bare]
  refine ⟨⟨Anchored.hangUp s, ?_, hbare, ?_, ?_⟩, ?_, ?_, ?_, ?_, ?_⟩
  all_goals
    unfold Scene.hangUp
    cases s.leg <;> rfl

theorem playTone (s : Scene) (c : Char) : Aside s (s.playTone c).2 := by
  unfold Scene.playTone
  split_ifs
  · exact refl s
  · cases Keypad.digit c with
    | error e => exact refl s
    | ok digit =>
      cases hp : s.phone with
      | none => exact refl s
      | some phone =>
        exact (putTones s _).trans (perform? _ (Transmitter.not_booking_play _ _ _ _))

theorem stopTone (s : Scene) : Aside s s.stopTone := by
  unfold Scene.stopTone
  split_ifs
  · exact refl s
  · refine perform? s fun a ha => ?_
    cases hm : s.toneMode with
    | continuous => simp [hm, Transmitter.stop] at ha; rw [← ha]; rfl
    | burst => simp [hm, Transmitter.stop] at ha

theorem pressKeys (cs : List Char) (s : Scene) : Aside s (s.pressKeys cs).2 := by
  induction cs generalizing s with
  | nil => exact refl s
  | cons c cs ih =>
    have h := playTone s c
    rw [Scene.pressKeys]
    cases hp : s.playTone c with
    | mk r s' =>
      rw [hp] at h
      cases r with
      | error e => exact h
      | ok _ => exact (h.trans (stopTone s')).trans (ih _)

theorem answer (s : Scene) : Aside s s.answer := by
  unfold Scene.answer
  dsimp only
  split_ifs
  · exact disarm s
  · exact (disarm s).trans (perform _ rfl)
  · exact refl s

theorem conference (s : Scene) : Aside s s.conference.2 := by
  unfold Scene.conference
  split_ifs
  · exact perform s (rfl : Action.conference.isBooking = false)
  · exact refl s

theorem onBurstConfirmed (s : Scene) : Aside s s.onBurstConfirmed :=
  (putTones s _).trans (perform? _ (Transmitter.not_booking_confirmed _ _))

end Aside

/-! ### Steps that do not -/

theorem effect_enter (s : Scene) (hp : p.isTerminal = true → d = .enter p) :
    Effect d s (s.enter p) := by
  by_cases hlive : s.conn.isLive = true
  · exact .enter s p (.refl s) hlive hp rfl
  · unfold Scene.enter
    rw [if_neg hlive]
    exact .aside (.refl s)

theorem effect_setPhase (h : Aside s u) (hp : p.isTerminal = true → d = .enter p) :
    Effect d s (u.setPhase p) := by
  unfold setPhase
  split_ifs
  · exact .aside h
  · by_cases hlive : s.conn.isLive = true
    · exact .enter u p h hlive hp rfl
    · unfold Scene.enter
      rw [if_neg (h.isLive ▸ hlive)]
      exact .aside h

/-- A call that has ended does not end again. -/
theorem effect_disconnect (h : Aside s u) (hopen : s.conn.closed = false) (cause : Cause) :
    Effect d s (u.disconnect cause) := by
  by_cases hterm : s.conn.phase.isTerminal = true
  · unfold disconnect
    rw [if_pos (h.phase ▸ hterm)]
    exact .aside h
  · exact .finish u cause h (by simp [Conn.isLive, hopen, hterm]) rfl

theorem effect_clearWaiting (h : Aside s u) (hopen : s.conn.closed = false) (cause : Cause) :
    Effect d s (u.clearWaiting cause) := by
  have hdisarm := h.trans (.disarm u)
  unfold clearWaiting
  dsimp only
  split
  · exact .aside hdisarm
  · exact effect_disconnect (hdisarm.trans (.hangUp _)) hopen cause

theorem open_of_isLive {k : Conn} (h : k.isLive = true) : k.closed = false := by
  simpa using (Bool.and_eq_true_iff.1 h).1

theorem going_of_isLive {k : Conn} (h : k.isLive = true) : k.phase.isTerminal = false := by
  simpa using (Bool.and_eq_true_iff.1 h).2

theorem effect_update (s : Scene) : Effect d s s.update := by
  unfold update
  split_ifs with hlive
  · cases s.leg with
    | none => exact .aside (.refl s)
    | some leg =>
      have hmark := Aside.mark s (leg.state == .waiting)
      dsimp only
      split_ifs
      · exact effect_disconnect hmark (open_of_isLive hlive) .normal
      · cases hp : phaseOf leg.state with
        | none => exact .aside hmark
        | some p => exact effect_setPhase hmark fun hterm => by simp [phaseOf_live hp] at hterm
  · exact .aside (.refl s)

theorem effect_reject (s : Scene) : Effect d s s.reject := by
  unfold reject
  split_ifs with hlive
  · have hopen := open_of_isLive hlive
    have hhang := Aside.hangUp s
    cases s.leg with
    | none => exact effect_disconnect (.refl s) hopen .localClearing
    | some leg =>
      dsimp only
      split
      · cases hr : s.hangUp with
        | mk r s' =>
          rw [hr] at hhang
          cases r with
          | ok _ => exact .aside hhang
          | error e => exact effect_disconnect hhang hopen .incomingRejected
      · exact effect_clearWaiting (.refl s) hopen .incomingRejected
      · exact effect_disconnect hhang hopen .localClearing
  · exact .aside (.refl s)

theorem effect_onMissed (h : Aside s u) (hopen : s.conn.closed = false) (generation : ℕ) :
    Effect d s (u.onMissed generation) := by
  unfold onMissed Guard.expire
  cases u.conn.guard.armed with
  | none => exact .aside h
  | some a =>
    dsimp only
    by_cases ha : (a.generation == generation) = true
    · rw [if_pos ha]
      exact effect_clearWaiting (h.trans (.putGuard u _)) hopen .incomingMissed
    · rw [if_neg ha]
      exact .aside h

/-- Whatever handles an event hands it over, apart from the mailbox. -/
theorem act_of_event {e : Event} (he : s.event? d = some e) :
    ∃ mailbox, s.act d = (s.putMail mailbox).handle e := by
  cases d with
  | handle e' =>
    obtain rfl := Option.some.inj he
    exact ⟨s.conn.mailbox, rfl⟩
  | fetch =>
    obtain ⟨rest, hw⟩ := List.head?_eq_some_iff.1 he
    refine ⟨{ s.conn.mailbox with waiting := rest }, ?_⟩
    show s.fetch = _
    unfold fetch
    rw [hw]
  | _ => cases he

theorem effect_event {e : Event} (he : s.event? d = some e) : Effect d s (s.act d) := by
  obtain ⟨mailbox, hact⟩ := act_of_event he
  have hmail := Aside.putMail s mailbox
  rw [hact]
  unfold handle
  split_ifs with hclosed
  · exact .aside hmail
  · have hopen : (s.putMail mailbox).conn.closed = false := by simpa using hclosed
    cases e with
    | missed generation => exact effect_onMissed hmail hopen generation
    | burstConfirmed => exact .aside (hmail.trans (.onBurstConfirmed _))
    | lineControl => exact .correct mailbox he hopen rfl

/-- **What a deed does to what others rely on.** -/
theorem effect_act (s : Scene) (d : Deed) : Effect d s (s.act d) := by
  cases d with
  | play digit => exact .aside (.playTone s digit)
  | keys digits => exact .aside (.pressKeys digits s)
  | stop => exact .aside (.stopTone s)
  | reject => exact effect_reject s
  | answer => exact .aside (.answer s)
  | update => exact effect_update s
  | close =>
    by_cases hclosed : s.conn.closed = true
    · have hsame : s.act .close = s := by rw [act, close, if_pos hclosed]
      rw [hsame]
      exact .aside (.refl s)
    · exact .shut rfl (by simpa using hclosed) rfl
  | enter phase => exact effect_enter s fun _ => rfl
  | forceDialing dialing =>
    cases dialing with
    | true => exact effect_setPhase (.refl s) fun hp => by cases hp
    | false => exact effect_update s
  | conference => exact .aside (.conference s)
  | handle e => exact effect_event rfl
  | fetch =>
    cases hw : s.conn.mailbox.waiting with
    | nil =>
      have hsame : s.act .fetch = s := by rw [act, fetch, hw]
      rw [hsame]
      exact .aside (.refl s)
    | cons e rest => exact effect_event (e := e) (by rw [event?, hw]; rfl)
  | post e => exact .aside (.putMail s _)
  | attend => exact .aside (.inner s _ _ _ _ true _ rfl)
  | retire => exact .aside (.putMail s _)
  | register => exact .register rfl rfl
  | unregister => exact .unregister rfl rfl
  | mark => exact .aside (.mark s _)
  | arm => exact .aside (.arm s)

/-! ### Legs, phones and the cue -/

theorem unmoved_enter (s : Scene) (p : Phase) : Unmoved s (s.enter p) := by
  by_cases hlive : s.conn.isLive = true
  · rw [enter_eq s p hlive]
    exact ⟨⟨rfl, rfl, rfl, rfl, rfl, rfl⟩, rfl, rfl, rfl, rfl⟩
  · unfold Scene.enter
    rw [if_neg hlive]
    exact .refl s

theorem unmoved_disconnect (s : Scene) (cause : Cause) : Unmoved s (s.disconnect cause) := by
  unfold disconnect setPhase
  split_ifs
  · exact .refl s
  · exact (Aside.disarm s).toUnmoved.trans ⟨⟨rfl, rfl, rfl, rfl, rfl, rfl⟩, rfl, rfl, rfl, rfl⟩
  · have hcause : Unmoved s (s.disarm.putCause cause) :=
      (Aside.disarm s).toUnmoved.trans ⟨⟨rfl, rfl, rfl, rfl, rfl, rfl⟩, rfl, rfl, rfl, rfl⟩
    exact (hcause.trans (unmoved_enter _ _)).trans
      ⟨⟨rfl, rfl, rfl, rfl, rfl, rfl⟩, rfl, rfl, rfl, rfl⟩

/-- Nothing that happens to a life moves the leg or the subscription, but closing does. -/
theorem Effect.unmoved_or (h : Effect d s s') : Unmoved s s' ∨
    (d = .close ∧ s.conn.closed = false ∧ s' = s.close) ∨
    (∃ mailbox, s.event? d = some .lineControl ∧ s.conn.closed = false ∧
      s' = (s.putMail mailbox).onLineControl) ∨
    (d = .register ∧ s' = s.register) ∨ d = .unregister ∧ s' = s.unregister := by
  cases h with
  | aside h => exact .inl h.toUnmoved
  | enter u p h _ _ hs' => exact .inl (hs' ▸ h.toUnmoved.trans (unmoved_enter u p))
  | finish u cause h _ hs' => exact .inl (hs' ▸ h.toUnmoved.trans (unmoved_disconnect u cause))
  | shut hd hopen hs' => exact .inr (.inl ⟨hd, hopen, hs'⟩)
  | correct mailbox he hopen hs' => exact .inr (.inr (.inl ⟨mailbox, he, hopen, hs'⟩))
  | register hd hs' => exact .inr (.inr (.inr (.inl ⟨hd, hs'⟩)))
  | unregister hd hs' => exact .inr (.inr (.inr (.inr ⟨hd, hs'⟩)))

/-- What a phase makes of the cue. -/
theorem cue_player (s : Scene) (p : Phase) : (s.cue p).player = s.player.map fun player =>
    if p = .dialing then (if s.isEmergency then player.start else player) else player.stop := by
  unfold cue
  cases hplayer : s.player with
  | none => simp [hplayer]
  | some player =>
    by_cases hp : p = .dialing
    · cases he : s.isEmergency <;> simp [hp, hplayer]
    · simp [hp]

end Scene

end CdmaCall
