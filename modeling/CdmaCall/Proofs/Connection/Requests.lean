import CdmaCall.Proofs.Dtmf.Confirmation
import CdmaCall.Proofs.World.Network

/-!
# What a deed asks of the phone

`Asks s s' as`: from scene `s` to scene `s'` the phone received the requests `as`, and each burst
among them brought one confirmation into being. What a deed may ask for at all depends on the mode
in which digits go out at that moment, except that a confirmation sends the queue in whatever mode
(`Permits`, `asks_act`). Digits enter the queue in burst mode only (`queue_act`), and the timers
that a deed starts are its own: confirmations, and the deadline of a new connection (`starts_act`).
-/

namespace CdmaCall

section Defs

/-- Whether a request to a phone is about tones. -/
def Action.isTone : Action → Bool
  | .startTone _ | .stopTone | .burst .. => true
  | _ => false

/-- Whether a deed asks for digits. -/
def Deed.plays : Deed → Bool
  | .play _ | .keys _ => true
  | _ => false

/-- Whether a deed asks for tones to stop. -/
def Deed.silences : Deed → Bool
  | .stop | .keys _ => true
  | _ => false

namespace Scene

/-- The phone received the requests `as`, and keeps or will send a confirmation for each burst. -/
structure Asks (s s' : Scene) (as : List Action) : Prop where
  id : s'.id = s.id
  actions : s'.phone.map (·.actions) = s.phone.map (·.actions ++ as)
  /-- Without a phone there is nobody to ask. -/
  served : as ≠ [] → s.phone.isSome = true
  tokens : s'.tokens s.id = s.tokens s.id + as.countP (·.isBurst)

/-- All that the phone was asked for satisfies `P`. -/
def AsksOnly (P : Action → Prop) (s s' : Scene) : Prop := ∃ as, Asks s s' as ∧ ∀ a ∈ as, P a

/-- What a deed may ask of the phone. -/
inductive Permits (s : Scene) (d : Deed) : Action → Prop
  | start (digit : Char) (hd : d.plays = true) (hmode : s.toneMode = .continuous) :
      Permits s d (.startTone digit)
  | stop (hd : d.silences = true) (hmode : s.toneMode = .continuous) : Permits s d .stopTone
  | burst (digits : List Char) (on off : ℕ) (hd : d.plays = true) (hmode : s.toneMode = .burst) :
      Permits s d (.burst digits on off)
  /-- The whole queue goes out, and the mode does not matter. -/
  | flush (on off : ℕ) (he : s.event? d = some .burstConfirmed) (hqueue : s.conn.tones.queue ≠ []) :
      Permits s d (.burst s.conn.tones.queue on off)
  | plain {a : Action} (ha : a.isTone = false) : Permits s d a

end Scene

end Defs

namespace Scene

variable {s s' s'' : Scene} {d : Deed} {P Q : Action → Prop} {full : Bool}

/-! ### Requests, one after the other -/

section Asking

theorem Asks.refl (s : Scene) : Asks s s [] := ⟨rfl, by simp, by simp, rfl⟩

theorem Asks.phone {as : List Action} (h : Asks s s' as) :
    s'.phone.isSome = s.phone.isSome := by
  simpa using congrArg Option.isSome h.actions

theorem Asks.trans {as as' : List Action} (h : Asks s s' as) (h' : Asks s' s'' as') :
    Asks s s'' (as ++ as') := by
  refine ⟨h'.id.trans h.id, ?_, fun hne => ?_, ?_⟩
  · have hactions := congrArg (Option.map (· ++ as')) h.actions
    simp only [Option.map_map, Function.comp_def] at hactions
    rw [h'.actions, hactions]
    simp
  · by_cases has : as = []
    · exact h.phone.symm.trans (h'.served fun has' => hne (by rw [has, has', List.append_nil]))
    · exact h.served has
  · have htokens := h'.tokens
    rw [h.id] at htokens
    rw [htokens, h.tokens, List.countP_append, Nat.add_assoc]

theorem AsksOnly.refl (s : Scene) : AsksOnly P s s := ⟨[], .refl s, by simp⟩

theorem AsksOnly.trans (h : AsksOnly P s s') (h' : AsksOnly P s' s'') : AsksOnly P s s'' := by
  obtain ⟨as, has, hall⟩ := h
  obtain ⟨as', has', hall'⟩ := h'
  refine ⟨as ++ as', has.trans has', fun a ha => ?_⟩
  rcases List.mem_append.1 ha with ha | ha
  · exact hall a ha
  · exact hall' a ha

theorem AsksOnly.mono (h : AsksOnly P s s') (hPQ : ∀ a, P a → Q a) : AsksOnly Q s s' := by
  obtain ⟨as, has, hall⟩ := h
  exact ⟨as, has, fun a ha => hPQ a (hall a ha)⟩

/-- Nobody asks the phone for anything. -/
theorem AsksOnly.of_phone (hid : s'.id = s.id) (hphone : s'.phone = s.phone)
    (htokens : s'.tokens s.id = s.tokens s.id) : AsksOnly P s s' :=
  ⟨[], ⟨hid, by simp [hphone], by simp, htokens⟩, by simp⟩

theorem tones_path (h : Path full s s') : s'.conn.tones = s.conn.tones :=
  Path.keeps (fun _ _ hb (ht : _ = s.conn.tones) => (tones_bit hb).trans ht) h rfl

theorem tokens_path (hs : s.Timed) (h : Path full s s') : s'.tokens s.id = s.tokens s.id := by
  have heven := (even_path hs h).tokens
  rw [tones_path h] at heven
  omega

theorem asksOnly_path (hs : s.Timed) (h : Path full s s') (hphone : s'.phone = s.phone) :
    AsksOnly P s s' := .of_phone (Anchored.of_path h).id hphone (tokens_path hs h)

/-- A request brings a confirmation into being if it is a burst. -/
theorem tokens_perform (s : Scene) (a : Action) (hphone : s.phone.isSome = true) :
    (s.perform a).tokens s.id = s.tokens s.id + if a.isBurst then 1 else 0 := by
  cases hburst : a.isBurst with
  | false =>
    rw [perform_eq_of_not_burst s hburst]
    exact congrArg (· + _) (heldFor_map s (f := (·.record a)) (fun _ => rfl) s.id)
  | true =>
    cases a with
    | burst digits on off =>
      exact tokens_burst s { onLength := on, offLength := off } digits hphone
    | _ => cases hburst

theorem actions_perform (p : Phone) (c : ConnId) (a : Action) :
    (p.perform c a).2.actions = p.actions ++ [a] := by
  unfold Phone.perform
  split <;> rfl

theorem asks_perform (s : Scene) (a : Action) (hphone : s.phone.isSome = true) :
    Asks s (s.perform a) [a] := by
  refine ⟨(Anchored.perform s a).id, ?_, fun _ => hphone, ?_⟩
  · obtain ⟨p, hp⟩ := Option.isSome_iff_exists.1 hphone
    have hactions := actions_perform p s.id a
    unfold perform
    rw [hp]
    cases hperform : p.perform s.id a with
    | mk delay p' =>
      rw [hperform] at hactions
      change p'.actions = _ at hactions
      simp only [hperform]
      cases delay <;> simp [hactions]
  · rw [tokens_perform s a hphone, List.countP_singleton]

theorem perform_none (hphone : s.phone = none) (a : Action) : s.perform a = s := by
  simp only [perform, hphone]

theorem asksOnly_perform (s : Scene) {a : Action} (ha : P a) : AsksOnly P s (s.perform a) := by
  cases hphone : s.phone with
  | none =>
    rw [perform_none hphone]
    exact .refl s
  | some p => exact ⟨[a], asks_perform s a (by rw [hphone]; rfl), by simpa using ha⟩

theorem asksOnly_perform? (s : Scene) {a : Option Action} (ha : ∀ b ∈ a, P b) :
    AsksOnly P s (s.perform? a) := by
  cases a with
  | none => exact .refl s
  | some a => exact asksOnly_perform s (ha a rfl)

/-- A phone, if there is one, records one request that is no burst. -/
theorem asksOnly_record (s : Scene) {a : Action} {f : Phone → Phone}
    (hactions : ∀ p, (f p).actions = p.actions ++ [a]) (hheld : ∀ p, (f p).held = p.held)
    (hburst : a.isBurst = false) (ha : P a) : AsksOnly P s { s with phone := s.phone.map f } := by
  have htokens : ({ s with phone := s.phone.map f } : Scene).tokens s.id = s.tokens s.id :=
    congrArg (· + _) (heldFor_map s hheld s.id)
  cases hp : s.phone with
  | none => exact .of_phone rfl hp.symm (by rw [← hp]; exact htokens)
  | some p =>
    rw [← hp]
    refine ⟨[a], ⟨rfl, by simp [hp, hactions], fun _ => by rw [hp]; rfl, ?_⟩, by simpa using ha⟩
    rw [htokens, List.countP_singleton, hburst]
    rfl

theorem asksOnly_register (s : Scene) (ha : P (.register s.id)) : AsksOnly P s s.register :=
  asksOnly_record s (fun _ => rfl) (fun _ => rfl) rfl ha

theorem asksOnly_unregister (s : Scene) (ha : P (.unregister s.id)) : AsksOnly P s s.unregister :=
  asksOnly_record s (fun _ => rfl) (fun _ => rfl) rfl ha

end Asking

/-! ### What leaves the phone alone -/

section Silence

theorem phone_hangUp (s : Scene) : s.hangUp.2.phone = s.phone := by
  unfold hangUp
  cases s.leg <;> rfl

theorem phone_enter (s : Scene) (p : Phase) : (s.enter p).phone = s.phone := by
  by_cases hlive : s.conn.isLive = true
  · rw [enter_eq s p hlive]
  · rw [enter, if_neg hlive]

theorem phone_setPhase (s : Scene) (p : Phase) : (s.setPhase p).phone = s.phone := by
  unfold setPhase
  split_ifs
  · rfl
  · exact phone_enter s p

theorem phone_disconnect (s : Scene) (cause : Cause) : (s.disconnect cause).phone = s.phone := by
  unfold disconnect
  split_ifs
  · rfl
  · exact phone_setPhase (s.disarm.putCause cause) .disconnected

theorem phone_update (s : Scene) : s.update.phone = s.phone := by
  unfold update
  split_ifs
  · cases s.leg with
    | none => rfl
    | some leg =>
      dsimp only
      split_ifs
      · exact phone_disconnect _ _
      · cases phaseOf leg.state with
        | none => rfl
        | some p => exact phone_setPhase _ p
  · rfl

theorem phone_clearWaiting (s : Scene) (cause : Cause) :
    (s.clearWaiting cause).phone = s.phone := by
  unfold clearWaiting
  dsimp only
  split
  · rfl
  · exact (phone_disconnect _ cause).trans (phone_hangUp _)

theorem phone_reject (s : Scene) : s.reject.phone = s.phone := by
  unfold reject
  split_ifs
  · have hhang := phone_hangUp s
    cases s.leg with
    | none => exact phone_disconnect _ _
    | some leg =>
      dsimp only
      split
      · cases hr : s.hangUp with
        | mk r s' =>
          rw [hr] at hhang
          cases r with
          | ok _ => exact hhang
          | error e => exact (phone_disconnect _ _).trans hhang
      · exact phone_clearWaiting _ _
      · exact (phone_disconnect _ _).trans hhang
  · rfl

theorem phone_onMissed (s : Scene) (g : ℕ) : (s.onMissed g).phone = s.phone := by
  unfold onMissed
  split
  · exact phone_clearWaiting _ _
  · rfl

theorem phone_onLineControl (s : Scene) : s.onLineControl.phone = s.phone := by
  unfold onLineControl
  cases s.leg <;> rfl

/-- Only confirmations make events heard on the phone. -/
theorem phone_handle (s : Scene) {e : Event} (he : e ≠ .burstConfirmed) :
    (s.handle e).phone = s.phone := by
  unfold handle
  split_ifs
  · rfl
  · cases e with
    | missed g => exact phone_onMissed s g
    | burstConfirmed => exact absurd rfl he
    | lineControl => exact phone_onLineControl s

end Silence

/-! ### Digits -/

section Digits

/-- The mode depends on the bearer and on what the user prefers. -/
theorem Aside.toneMode (h : Aside s s') : s'.toneMode = s.toneMode := by
  have hbearer : s'.bearer = s.bearer := by
    have hfixed := congrArg (Option.map fun f : Bool × Bearer × String × Option PhoneId => f.2.1)
      (fixed_of_bare h.leg)
    rw [Option.map_map, Option.map_map] at hfixed
    exact congrArg (·.getD .circuitSwitched) hfixed
  rw [Scene.toneMode, Scene.toneMode, hbearer, h.anchored.toneType]

theorem Permits.play {a : Action} {t : Transmitter} {holding : Bool} {digit : Char}
    (hd : d.plays = true) (ha : a ∈ (t.play s.toneMode holding digit).2.2) : s.Permits d a := by
  cases hmode : s.toneMode with
  | continuous =>
    rw [hmode] at ha
    obtain rfl := Option.some.inj ha
    exact .start digit hd hmode
  | burst =>
    rw [hmode] at ha
    by_cases hpending : t.pending = true
    · simp [Transmitter.play, hpending] at ha
    · simp only [Transmitter.play, if_neg hpending, Option.mem_def, Option.some.injEq] at ha
      rw [← ha]
      exact .burst _ _ _ hd hmode

theorem asks_playTone (s : Scene) (c : Char) (hd : d.plays = true) :
    AsksOnly (s.Permits d) s (s.playTone c).2 := by
  unfold playTone
  split_ifs
  · exact .refl s
  · cases Keypad.digit c with
    | error e => exact .refl s
    | ok digit =>
      cases s.phone with
      | none => exact .refl s
      | some phone =>
        have htones (t : Transmitter) : AsksOnly (s.Permits d) s (s.putTones t) :=
          .of_phone rfl rfl rfl
        exact (htones _).trans (asksOnly_perform? _ fun a ha => .play hd ha)

theorem asks_stopTone (s : Scene) (hd : d.silences = true) :
    AsksOnly (s.Permits d) s s.stopTone := by
  unfold stopTone
  split_ifs
  · exact .refl s
  · refine asksOnly_perform? s fun a ha => ?_
    cases hmode : s.toneMode with
    | continuous =>
      rw [hmode] at ha
      obtain rfl := Option.some.inj ha
      exact .stop hd hmode
    | burst => simp [hmode, Transmitter.stop] at ha

/-- What is permitted depends on the mode, unless events are handled. -/
theorem Permits.of_mode {a : Action} (hmode : s'.toneMode = s.toneMode) (hd : d.plays = true)
    (h : s'.Permits d a) : s.Permits d a := by
  cases h with
  | start digit hd hm => exact .start digit hd (hmode ▸ hm)
  | stop hd hm => exact .stop hd (hmode ▸ hm)
  | burst digits on off hd hm => exact .burst digits on off hd (hmode ▸ hm)
  | flush on off he =>
    have hnone : s'.event? d = none := by cases d <;> first | rfl | cases hd
    cases hnone.symm.trans he
  | plain ha => exact .plain ha

theorem asks_pressKeys (cs : List Char) (s : Scene) {digits : List Char} :
    AsksOnly (s.Permits (.keys digits)) s (s.pressKeys cs).2 := by
  induction cs generalizing s with
  | nil => exact .refl s
  | cons c cs ih =>
    have hplay := asks_playTone s c (d := .keys digits) rfl
    have haside := Aside.playTone s c
    rw [pressKeys]
    cases hp : s.playTone c with
    | mk r s' =>
      rw [hp] at hplay haside
      cases r with
      | error e => exact hplay
      | ok _ =>
        have hstop := asks_stopTone s' (d := .keys digits) rfl
        have hafter := haside.trans (.stopTone s')
        exact (hplay.trans (hstop.mono fun _ => .of_mode haside.toneMode rfl)).trans
          ((ih s'.stopTone).mono fun _ => .of_mode hafter.toneMode rfl)

/-- Digits wait only in burst mode. -/
theorem queue_playTone (s : Scene) (c : Char) :
    (s.playTone c).2.conn.tones.queue = s.conn.tones.queue ∨ s.toneMode = .burst := by
  unfold playTone
  split_ifs
  · exact .inl rfl
  · cases Keypad.digit c with
    | error e => exact .inl rfl
    | ok digit =>
      cases hphone : s.phone with
      | none => exact .inl rfl
      | some phone =>
        cases hmode : s.toneMode with
        | continuous => exact .inl (congrArg Transmitter.queue (tones_perform _ _))
        | burst => exact .inr rfl

theorem queue_pressKeys (cs : List Char) (s : Scene) :
    (s.pressKeys cs).2.conn.tones.queue = s.conn.tones.queue ∨ s.toneMode = .burst := by
  induction cs generalizing s with
  | nil => exact .inl rfl
  | cons c cs ih =>
    have hplay := queue_playTone s c
    have haside := Aside.playTone s c
    rw [pressKeys]
    cases hp : s.playTone c with
    | mk r s' =>
      rw [hp] at hplay haside
      cases r with
      | error e => exact hplay
      | ok _ =>
        have hstop := congrArg Transmitter.queue (tones_path (path_stopTone s'))
        have hafter := haside.trans (.stopTone s')
        rcases hplay with hplay | hmode
        · rcases ih s'.stopTone with hrest | hmode
          · exact .inl ((hrest.trans hstop).trans hplay)
          · exact .inr (hafter.toneMode ▸ hmode)
        · exact .inr hmode

end Digits

/-! ### Deeds -/

section Deeds

theorem asks_close (hs : s.Timed) : AsksOnly (s.Permits .close) s s.close := by
  by_cases hclosed : s.conn.closed = true
  · rw [close, if_pos hclosed]
    exact .refl s
  · have hun : AsksOnly (s.Permits .close) s s.unregister := asksOnly_unregister s (.plain rfl)
    have htimed := (onward_path hs (path_unregister s)).timed
    have hdisarm : AsksOnly (s.Permits .close) s.unregister s.unregister.disarm :=
      asksOnly_path htimed (Path.of_bit (Bit.disarm _)) rfl
    rw [close_eq s (by simpa using hclosed)]
    exact (hun.trans hdisarm).trans (.of_phone rfl rfl rfl)

/-- A confirmation sends what waits. -/
theorem asks_handle (hs : s.Timed) {e : Event} (he : s.event? d = some e) :
    AsksOnly (s.Permits d) s (s.handle e) := by
  by_cases hburst : e = .burstConfirmed
  · subst hburst
    unfold handle
    split_ifs
    · exact .refl s
    · have htones (u : Scene) (t : Transmitter) : AsksOnly (s.Permits d) u (u.putTones t) :=
        .of_phone rfl rfl rfl
      rcases onBurstConfirmed_cases s with ⟨-, h⟩ | ⟨hqueue, -, h⟩
      · rw [h]
        exact htones s _
      · rw [h]
        exact ((htones s _).trans (htones _ _)).trans (asksOnly_perform _ (.flush _ _ he hqueue))
  · exact asksOnly_path hs (path_handle s hburst) (phone_handle s hburst)

theorem asks_answer (hs : s.Timed) : AsksOnly (s.Permits .answer) s s.answer := by
  have hdisarm : AsksOnly (s.Permits .answer) s s.disarm :=
    asksOnly_path hs (Path.of_bit (Bit.disarm s)) rfl
  unfold answer
  dsimp only
  split_ifs
  · exact hdisarm
  · exact hdisarm.trans (asksOnly_perform _ (.plain rfl))
  · exact .refl s

/-- What is taken out of the mailbox is handled like any other event. -/
theorem asks_fetch (hs : s.Timed) : AsksOnly (s.Permits .fetch) s s.fetch := by
  unfold fetch
  cases hw : s.conn.mailbox.waiting with
  | nil => exact .refl s
  | cons e rest =>
    set u := s.putMail { s.conn.mailbox with waiting := rest }
    have hu : u.Timed := ⟨hs.clock, hs.known, hs.own⟩
    have hmail : AsksOnly (s.Permits .fetch) s u := .of_phone rfl rfl rfl
    refine hmail.trans ((asks_handle (d := .handle e) hu rfl).mono fun a ha => ?_)
    cases ha with
    | flush on off he hqueue =>
      obtain rfl := Option.some.inj he
      exact .flush on off (by rw [event?, hw]; rfl) hqueue
    | plain ha => exact .plain ha
    | start _ hd => cases hd
    | stop hd => cases hd
    | burst _ _ _ hd => cases hd

/-- **What a deed asks of the phone.** -/
theorem asks_act (hs : s.Timed) (d : Deed) : AsksOnly (s.Permits d) s (s.act d) := by
  have hsilent (hd : d.ofBits = true) (hphone : (s.act d).phone = s.phone) :
      AsksOnly (s.Permits d) s (s.act d) := asksOnly_path hs (path_act s hd) hphone
  cases d with
  | play digit => exact asks_playTone s digit rfl
  | keys digits => exact asks_pressKeys digits s
  | stop => exact asks_stopTone s rfl
  | reject => exact hsilent rfl (phone_reject s)
  | answer => exact asks_answer hs
  | update => exact hsilent rfl (phone_update s)
  | close => exact asks_close hs
  | enter phase => exact hsilent rfl (phone_enter s phase)
  | forceDialing dialing =>
    cases dialing with
    | true => exact hsilent rfl (phone_setPhase s .dialing)
    | false => exact hsilent rfl (phone_update s)
  | conference =>
    show AsksOnly _ s s.conference.2
    unfold conference
    split_ifs
    · exact asksOnly_perform s (a := .conference) (.plain rfl)
    · exact .refl s
  | handle e => exact asks_handle hs rfl
  | fetch => exact asks_fetch hs
  | post | attend | retire => exact .of_phone rfl rfl rfl
  | register => exact asksOnly_register s (.plain rfl)
  | unregister => exact asksOnly_unregister s (.plain rfl)
  | mark => exact hsilent rfl rfl
  | arm =>
    have htokens := (even_arm hs).tokens
    have hpending : s.arm.2.conn.tones.pending = s.conn.tones.pending := by
      rw [arm_eq]
      split_ifs <;> rfl
    refine .of_phone rfl rfl ?_
    show s.arm.2.tokens s.id = _
    rw [hpending] at htokens
    omega

theorem queue_handle (s : Scene) (e : Event) :
    (s.handle e).conn.tones.queue = s.conn.tones.queue ∨ (s.handle e).conn.tones.queue = [] := by
  by_cases he : e = .burstConfirmed
  · subst he
    unfold handle
    split_ifs
    · exact .inl rfl
    · rcases onBurstConfirmed_cases s with ⟨-, h⟩ | ⟨-, -, h⟩
      · exact .inr (by rw [h]; rfl)
      · exact .inr (by rw [h, tones_perform]; rfl)
  · exact .inl (congrArg Transmitter.queue (tones_path (path_handle s he)))

/-- **Digits enter the queue in burst mode only.** -/
theorem queue_act (s : Scene) (d : Deed) :
    (s.act d).conn.tones.queue = s.conn.tones.queue ∨ (s.act d).conn.tones.queue = [] ∨
      d.plays = true ∧ s.toneMode = .burst := by
  by_cases hbits : d.ofBits = true
  · exact .inl (congrArg Transmitter.queue (tones_path (path_act s hbits)))
  cases d with
  | play digit => exact (queue_playTone s digit).imp_right fun h => .inr ⟨rfl, h⟩
  | keys digits => exact (queue_pressKeys digits s).imp_right fun h => .inr ⟨rfl, h⟩
  | close =>
    by_cases hclosed : s.conn.closed = true
    · exact .inl (by rw [act, close, if_pos hclosed])
    · exact .inr (.inl (by rw [act, close_eq s (by simpa using hclosed)]; rfl))
  | handle e => exact (queue_handle s e).imp_right .inl
  | fetch =>
    unfold act fetch
    cases s.conn.mailbox.waiting with
    | nil => exact .inl rfl
    | cons e rest => exact (queue_handle (s.putMail _) e).imp_right .inl
  | post | attend | retire => exact .inl rfl
  | arm =>
    left
    rw [act, arm_eq]
    split_ifs <;> rfl
  | _ => exact absurd rfl hbits

end Deeds

/-! ### Timers -/

section Timers

/-- The timers that are started are confirmations for the connection. -/
structure Starts (s s' : Scene) : Prop where
  id : s'.id = s.id
  fresh : ∀ t ∈ s'.clock.pending, t ∈ s.clock.pending ∨ t.job = ⟨s.id, .burstConfirmed⟩

theorem Starts.of_sub (hid : s'.id = s.id)
    (hsub : ∀ t ∈ s'.clock.pending, t ∈ s.clock.pending) : Starts s s' :=
  ⟨hid, fun t ht => .inl (hsub t ht)⟩

theorem Starts.refl (s : Scene) : Starts s s := .of_sub rfl fun _ ht => ht

theorem Starts.trans (h : Starts s s') (h' : Starts s' s'') : Starts s s'' := by
  refine ⟨h'.id.trans h.id, fun t ht => ?_⟩
  rcases h'.fresh t ht with ht | ht
  · exact h.fresh t ht
  · exact .inr (h.id ▸ ht)

theorem starts_perform (s : Scene) (a : Action) : Starts s (s.perform a) := by
  have hid := (Anchored.perform s a).id
  unfold perform at hid ⊢
  cases s.phone with
  | none => exact .refl s
  | some p =>
    rcases hperform : p.perform s.id a with ⟨_ | delay, p'⟩
    · simp only [hperform] at hid ⊢
      exact .of_sub rfl fun _ ht => ht
    · simp only [hperform] at hid ⊢
      refine ⟨rfl, fun t ht => ?_⟩
      rcases List.mem_append.1 ht with ht | ht
      · exact .inl ht
      · exact .inr (by rw [List.mem_singleton.1 ht])

theorem mem_disarm {t : Timer Delivery} (ht : t ∈ s.disarm.clock.pending) :
    t ∈ s.clock.pending := by
  unfold disarm Guard.disarm at ht
  cases harmed : s.conn.guard.armed with
  | none => simpa [harmed] using ht
  | some a =>
    simp only [harmed] at ht
    exact (Clock.mem_cancel.1 ht).1

/-- Bits start no timers. -/
theorem mem_bit (h : Bit full s s') {t : Timer Delivery} (ht : t ∈ s'.clock.pending) :
    t ∈ s.clock.pending := by
  cases h with
  | perform =>
    rename_i a h
    rwa [perform_eq_of_not_burst s h] at ht
  | disarm => exact mem_disarm ht
  | hangUp => unfold hangUp at ht; cases hl : s.leg <;> simpa [hl] using ht
  | correct => unfold onLineControl at ht; cases hl : s.leg <;> simpa [hl] using ht
  | _ => exact ht

theorem mem_path (h : Path full s s') {t : Timer Delivery} (ht : t ∈ s'.clock.pending) :
    t ∈ s.clock.pending :=
  Path.keeps (R := fun u => t ∈ u.clock.pending → t ∈ s.clock.pending)
    (fun _ _ hb hu ht => hu (mem_bit hb ht)) h (fun ht => ht) ht

theorem starts_path (h : Path full s s') : Starts s s' :=
  .of_sub (Anchored.of_path h).id fun _ ht => mem_path h ht

theorem starts_keyBit (h : KeyBit s s') : Starts s s' := by
  cases h with
  | quiet h => exact starts_path (Path.of_bit h)
  | queue => exact .of_sub rfl fun _ ht => ht
  | send digits =>
    have htones : Starts s (s.putTones { s.conn.tones with pending := true }) :=
      .of_sub rfl fun _ ht => ht
    exact htones.trans (starts_perform _ _)

theorem starts_keyPath (h : KeyPath s s') : Starts s s' :=
  KeyPath.keeps (fun _ _ hb (ht : Starts s _) => ht.trans (starts_keyBit hb)) h (.refl s)

theorem starts_handle (s : Scene) (e : Event) : Starts s (s.handle e) := by
  by_cases he : e = .burstConfirmed
  · subst he
    have htones (u : Scene) (t : Transmitter) : Starts u (u.putTones t) :=
      .of_sub rfl fun _ ht => ht
    unfold handle
    split_ifs
    · exact .refl s
    · rcases onBurstConfirmed_cases s with ⟨-, h⟩ | ⟨-, -, h⟩
      · rw [h]
        exact htones s _
      · rw [h]
        exact ((htones s _).trans (htones _ _)).trans (starts_perform _ _)
  · exact starts_path (path_handle s he)

/-- **What a deed starts** are confirmations and the deadline of its own connection. -/
theorem starts_act (s : Scene) (d : Deed) : ∀ t ∈ (s.act d).clock.pending,
    t ∈ s.clock.pending ∨ t.job = ⟨s.id, .burstConfirmed⟩ ∨
      d = .arm ∧ t.job = ⟨s.id, .missed (s.conn.guard.generation + 1)⟩ := by
  have hplain (h : Starts s (s.act d)) : ∀ t ∈ (s.act d).clock.pending,
      t ∈ s.clock.pending ∨ t.job = ⟨s.id, .burstConfirmed⟩ ∨
        d = .arm ∧ t.job = ⟨s.id, .missed (s.conn.guard.generation + 1)⟩ :=
    fun t ht => (h.fresh t ht).imp_right .inl
  by_cases hbits : d.ofBits = true
  · exact hplain (starts_path (path_act s hbits))
  cases d with
  | play digit => exact hplain (starts_keyPath (keyPath_playTone s digit))
  | keys digits => exact hplain (starts_keyPath (keyPath_pressKeys digits s))
  | close =>
    by_cases hclosed : s.conn.closed = true
    · exact hplain (by rw [act, close, if_pos hclosed]; exact .refl s)
    · have hclose : s.act .close = _ := close_eq s (by simpa using hclosed)
      rw [hclose] at hplain ⊢
      exact hplain (.of_sub rfl fun _ ht => mem_disarm ht)
  | handle e => exact hplain (starts_handle s e)
  | fetch =>
    refine hplain ?_
    unfold act fetch
    cases s.conn.mailbox.waiting with
    | nil => exact .refl s
    | cons e rest =>
      have hmail : Starts s (s.putMail { s.conn.mailbox with waiting := rest }) :=
        .of_sub rfl fun _ ht => ht
      exact hmail.trans (starts_handle _ e)
  | post | attend | retire => exact fun _ ht => .inl ht
  | arm =>
    intro t ht
    rw [act, arm_eq] at ht
    split_ifs at ht
    · rcases List.mem_append.1 ht with ht | ht
      · exact .inl (mem_disarm ht)
      · refine .inr (.inr ⟨rfl, ?_⟩)
        rw [List.mem_singleton.1 ht]
        unfold disarm Guard.disarm
        cases s.conn.guard.armed <;> rfl
    · exact .inl (mem_disarm ht)
  | _ => exact absurd rfl hbits

end Timers

end Scene

end CdmaCall
