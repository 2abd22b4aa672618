import CdmaCall.Proofs.Clock
import CdmaCall.Proofs.Connection.Path
import Mathlib.Order.Nat

/-!
# Deeds

A `Deed` is what is done to one connection at one moment: a request, an event that arrives or is
handled, or one of the steps that making and binding a connection consist of. All but closing leave
the connection anchored.

`Onward s s'` is what every deed does to timers: the time does not pass, timers of other connections
and confirmations kept for them stay, and the deadline that the guard waits for is on the clock
under its own number or on it no more.
-/

namespace CdmaCall

/-- What is done to a connection at one moment. -/
inductive Deed where
  | play (digit : Char)
  | keys (digits : List Char)
  | stop
  | reject
  | answer
  | update
  | close
  | enter (phase : Phase)
  | forceDialing (dialing : Bool)
  | conference
  /-- An event is handed over directly. -/
  | handle (event : Event)
  /-- The first event that waits is handled. -/
  | fetch
  /-- An event arrives in the mailbox. -/
  | post (event : Event)
  /-- Events are handled as they arrive from now on. -/
  | attend
  /-- Nobody receives events any more. -/
  | retire
  | register
  | unregister
  /-- The waiting flag becomes what the leg says. -/
  | mark
  | arm
  deriving DecidableEq, Repr

/-- Whether a deed is about the mailbox. -/
def Deed.touchesMail : Deed → Bool
  | .close | .fetch | .post _ | .attend | .retire => true
  | _ => false

/-- Whether a deed consists of bits. -/
def Deed.ofBits : Deed → Bool
  | .stop | .reject | .answer | .update | .enter _ | .forceDialing _ | .conference | .register
  | .unregister | .mark => true
  | _ => false

theorem Deed.touchesMail_of_bits {d : Deed} (h : d.ofBits = true) : d.touchesMail = false := by
  cases d <;> first | rfl | cases h

namespace Scene

variable {s s' s'' : Scene} {full : Bool}

/-- Do a deed. -/
def act (s : Scene) : Deed → Scene
  | .play digit => (s.playTone digit).2
  | .keys digits => (s.pressKeys digits).2
  | .stop => s.stopTone
  | .reject => s.reject
  | .answer => s.answer
  | .update => s.update
  | .close => s.close
  | .enter phase => s.enter phase
  | .forceDialing dialing => s.forceDialing dialing
  | .conference => s.conference.2
  | .handle e => s.handle e
  | .fetch => s.fetch
  | .post e => s.putMail (s.conn.mailbox.post e).2
  | .attend => { s with conn := { s.conn with driven := true } }
  | .retire => s.putMail s.conn.mailbox.dropReceiver
  | .register => s.register
  | .unregister => s.unregister
  | .mark => s.mark s.legWaits
  | .arm => s.arm.2

theorem path_act (s : Scene) {d : Deed} (h : d.ofBits = true) : Path true s (s.act d) := by
  cases d with
  | stop => exact (path_stopTone s).toFull
  | reject => exact path_reject s
  | answer => exact path_answer s
  | update => exact path_update s
  | enter phase => exact path_enter s fun _ => rfl
  | forceDialing dialing => exact path_forceDialing s dialing
  | conference => exact (path_conference s).toFull
  | register => exact (path_register s).toFull
  | unregister => exact (path_unregister s).toFull
  | mark => exact (path_mark s _).toFull
  | _ => cases h

/-- A confirmation empties the tones, and sends what was queued if there is a phone. -/
theorem onBurstConfirmed_cases (s : Scene) :
    let s₁ := s.putTones s.conn.tones.discard.2
    (s.conn.tones.queue = [] ∨ s.phone.isSome = false) ∧ s.onBurstConfirmed = s₁ ∨
      s.conn.tones.queue ≠ [] ∧ s.phone.isSome = true ∧
        s.onBurstConfirmed = (s₁.putTones { s₁.conn.tones with pending := true }).perform
          (s₁.conn.tones.burstOf s.conn.tones.queue) := by
  unfold onBurstConfirmed Transmitter.confirmed Transmitter.discard
  cases hq : s.conn.tones.queue with
  | nil => exact .inl ⟨.inl rfl, by simp [perform?]⟩
  | cons d ds =>
    cases hp : s.phone.isSome with
    | false => exact .inl ⟨.inr rfl, by simp [perform?]⟩
    | true => exact .inr ⟨by simp, rfl, by simp [perform?]; rfl⟩

/-! ### Staying anchored -/

theorem anchored_act (s : Scene) {d : Deed} (h : d ≠ .close) : Anchored s (s.act d) := by
  by_cases hbits : d.ofBits = true
  · exact Anchored.of_path (path_act s hbits)
  cases d with
  | play digit => exact Anchored.of_keyPath (keyPath_playTone s digit)
  | keys digits => exact Anchored.of_keyPath (keyPath_pressKeys digits s)
  | close => exact absurd rfl h
  | handle e => exact anchored_handle s e
  | fetch => exact anchored_fetch s
  | post | attend | retire | arm => exact ⟨rfl, rfl, rfl, rfl, rfl, rfl⟩
  | _ => exact absurd rfl hbits

theorem act_id (s : Scene) (d : Deed) : (s.act d).id = s.id := by
  by_cases hd : d = .close
  · subst hd
    show s.close.id = s.id
    unfold close
    split_ifs <;> rfl
  · exact (anchored_act s hd).id

/-! ### Timers -/

/-- How many confirmations of bursts of connection `i` the phone keeps. -/
def heldFor (s : Scene) (i : ConnId) : ℕ := (s.phone.map (·.held.count i)).getD 0

/-- The clock is sound, and a timer with the number of the deadline carries that deadline. -/
structure Timed (s : Scene) : Prop where
  clock : s.clock.Sound
  known : ∀ d, s.conn.guard.armed = some d → d.timer < s.clock.nextId
  own : ∀ d, s.conn.guard.armed = some d → ∀ t ∈ s.clock.pending, t.id = d.timer →
    t.job = ⟨s.id, .missed d.generation⟩

/-- What a deed does to timers. -/
structure Onward (s s' : Scene) : Prop where
  id : s'.id = s.id
  timed : s'.Timed
  now : s'.clock.now = s.clock.now
  running : s'.clock.running = s.clock.running
  nextId : s.clock.nextId ≤ s'.clock.nextId
  others : s'.clock.pending.filter (·.job.target != s.id) =
    s.clock.pending.filter (·.job.target != s.id)
  fresh : ∀ t ∈ s'.clock.pending, t ∈ s.clock.pending ∨ s.clock.nextId ≤ t.id
  held : ∀ i, i ≠ s.id → s'.heldFor i = s.heldFor i

namespace Onward

theorem refl (hs : s.Timed) : Onward s s :=
  ⟨rfl, hs, rfl, rfl, le_rfl, rfl, fun _ ht => .inl ht, fun _ _ => rfl⟩

theorem trans (h : Onward s s') (h' : Onward s' s'') : Onward s s'' where
  id := h'.id.trans h.id
  timed := h'.timed
  now := h'.now.trans h.now
  running := h'.running.trans h.running
  nextId := h.nextId.trans h'.nextId
  others := (h.id ▸ h'.others).trans h.others
  fresh t ht := by
    rcases h'.fresh t ht with ht | ht
    · exact h.fresh t ht
    · exact .inr (h.nextId.trans ht)
  held i hi := (h'.held i (h.id ▸ hi)).trans (h.held i hi)

/-- A change that keeps the clock, the guard and the kept confirmations. -/
theorem of_eq (hs : s.Timed) (hid : s'.id = s.id) (hclock : s'.clock = s.clock)
    (hguard : s'.conn.guard = s.conn.guard) (hheld : ∀ i, s'.heldFor i = s.heldFor i) :
    Onward s s' where
  id := hid
  timed := ⟨hclock ▸ hs.clock, by rw [hclock, hguard]; exact hs.known,
    by rw [hclock, hguard, hid]; exact hs.own⟩
  now := by rw [hclock]
  running := by rw [hclock]
  nextId := by rw [hclock]
  others := by rw [hclock]
  fresh t ht := .inl (hclock ▸ ht)
  held i _ := hheld i

end Onward

theorem perform_eq_of_not_burst (s : Scene) {a : Action} (h : a.isBurst = false) :
    s.perform a = { s with phone := s.phone.map (·.record a) } := by
  unfold perform Phone.perform
  cases hp : s.phone with
  | none => cases s; simp_all
  | some phone => cases a <;> first | rfl | simp [Action.isBurst] at h

theorem heldFor_map (s : Scene) {f : Phone → Phone} (hf : ∀ p, (f p).held = p.held) (i : ConnId) :
    ({ s with phone := s.phone.map f } : Scene).heldFor i = s.heldFor i := by
  unfold heldFor
  cases s.phone <;> simp [hf]

theorem onward_disarm (hs : s.Timed) : Onward s s.disarm := by
  unfold disarm Guard.disarm
  cases harm : s.conn.guard.armed with
  | none => exact Onward.of_eq hs rfl rfl rfl fun _ => rfl
  | some d =>
    refine ⟨rfl, ⟨hs.clock.cancel _, by simp [putGuard], by simp [putGuard]⟩, rfl, rfl, le_rfl,
      ?_, fun t ht => .inl (Clock.mem_cancel.1 ht).1, fun _ _ => rfl⟩
    simp only [Clock.cancel, List.filter_filter]
    refine List.filter_congr fun t ht => ?_
    by_cases hid : t.id = d.timer
    · simp [hid, hs.own d harm t ht hid]
    · simp [hid]

theorem onward_bit (hs : s.Timed) (h : Bit full s s') : Onward s s' := by
  cases h with
  | perform =>
    rename_i a h
    rw [perform_eq_of_not_burst s h]
    exact Onward.of_eq hs rfl rfl rfl (heldFor_map s fun _ => rfl)
  | disarm => exact onward_disarm hs
  | expire =>
    exact ⟨rfl, ⟨hs.clock, by simp [putGuard], by simp [putGuard]⟩, rfl, rfl, le_rfl, rfl,
      fun _ ht => .inl ht, fun _ _ => rfl⟩
  | hangUp =>
    unfold Scene.hangUp
    cases s.leg <;> exact Onward.of_eq hs rfl rfl rfl fun _ => rfl
  | correct =>
    unfold onLineControl
    cases s.leg <;> exact Onward.of_eq hs rfl rfl rfl fun _ => rfl
  | register => exact Onward.of_eq hs rfl rfl rfl (heldFor_map s fun _ => rfl)
  | unregister => exact Onward.of_eq hs rfl rfl rfl (heldFor_map s fun _ => rfl)
  | _ => exact Onward.of_eq hs rfl rfl rfl fun _ => rfl

theorem onward_path (hs : s.Timed) (h : Path full s s') : Onward s s' :=
  Path.keeps (fun _ _ hb (ht : Onward s _) => ht.trans (onward_bit ht.timed hb)) h
    (Onward.refl hs)

/-- A timer of the connection itself is started. -/
theorem onward_start (hs : s.Timed) (delay : ℕ) (e : Event) (phone : Option Phone)
    (hheld : ∀ i, ({ s with phone } : Scene).heldFor i = s.heldFor i) :
    Onward s { s with phone, clock := s.clock.start delay ⟨s.id, e⟩ } where
  id := rfl
  timed := by
    refine ⟨hs.clock.start _ _, fun d hd => Nat.lt_succ_of_lt (hs.known d hd),
      fun d hd t ht hid => ?_⟩
    rcases List.mem_append.1 ht with ht | ht
    · exact hs.own d hd t ht hid
    · rw [List.mem_singleton.1 ht] at hid
      exact absurd hid (hs.known d hd).ne'
  now := rfl
  running := rfl
  nextId := Nat.le_succ _
  others := by simp [Clock.start]
  fresh t ht := by
    rcases List.mem_append.1 ht with ht | ht
    · exact .inl ht
    · rw [List.mem_singleton.1 ht]
      exact .inr le_rfl
  held i _ := hheld i

/-- A burst that the phone confirms when asked. -/
theorem perform_burst_kept (s : Scene) (t : Transmitter) (digits : List Char) {p : Phone}
    (hp : s.phone = some p) (hd : p.confirmDelay = none) :
    s.perform (t.burstOf digits) =
      { s with phone := some { p.record (t.burstOf digits) with held := p.held ++ [s.id] } } := by
  simp only [perform, hp, Phone.perform, Transmitter.burstOf, hd]

/-- A burst that the phone confirms by itself. -/
theorem perform_burst_delayed (s : Scene) (t : Transmitter) (digits : List Char) {p : Phone}
    {delay : ℕ} (hp : s.phone = some p) (hd : p.confirmDelay = some delay) :
    s.perform (t.burstOf digits) =
      { s with phone := some (p.record (t.burstOf digits))
               clock := s.clock.start delay ⟨s.id, .burstConfirmed⟩ } := by
  simp only [perform, hp, Phone.perform, Transmitter.burstOf, hd]

theorem onward_burst (hs : s.Timed) (t : Transmitter) (digits : List Char) :
    Onward s (s.perform (t.burstOf digits)) := by
  cases hp : s.phone with
  | none =>
    have hnone : s.perform (t.burstOf digits) = s := by simp only [perform, hp]
    rw [hnone]
    exact Onward.refl hs
  | some p =>
    cases hd : p.confirmDelay with
    | none =>
      rw [perform_burst_kept s t digits hp hd]
      refine ⟨rfl, ⟨hs.clock, hs.known, hs.own⟩, rfl, rfl, le_rfl, rfl, fun _ ht => .inl ht,
        fun i hi => ?_⟩
      have hne : s.id ≠ i := fun he => hi he.symm
      simp [heldFor, hp, hne]
    | some delay =>
      rw [perform_burst_delayed s t digits hp hd]
      exact onward_start hs delay _ _ fun i => by simp [heldFor, hp, Phone.record]

theorem onward_keyBit (hs : s.Timed) (h : KeyBit s s') : Onward s s' := by
  cases h with
  | quiet h => exact onward_bit hs h
  | queue => exact Onward.of_eq hs rfl rfl rfl fun _ => rfl
  | send digits =>
    have htones : Onward s (s.putTones { s.conn.tones with pending := true }) :=
      Onward.of_eq hs rfl rfl rfl fun _ => rfl
    exact htones.trans (onward_burst htones.timed _ _)

theorem onward_keyPath (hs : s.Timed) (h : KeyPath s s') : Onward s s' :=
  KeyPath.keeps (fun _ _ hb (ht : Onward s _) => ht.trans (onward_keyBit ht.timed hb)) h
    (Onward.refl hs)

theorem onward_handle (hs : s.Timed) (e : Event) : Onward s (s.handle e) := by
  by_cases he : e = .burstConfirmed
  · subst he
    unfold handle
    split_ifs
    · exact Onward.refl hs
    · have htones : Onward s (s.putTones s.conn.tones.discard.2) :=
        Onward.of_eq hs rfl rfl rfl fun _ => rfl
      rcases onBurstConfirmed_cases s with ⟨-, h⟩ | ⟨-, -, h⟩
      · rw [h]
        exact htones
      · rw [h]
        have hpending : Onward s ((s.putTones s.conn.tones.discard.2).putTones
            { s.conn.tones.discard.2 with pending := true }) :=
          Onward.of_eq hs rfl rfl rfl fun _ => rfl
        exact hpending.trans (onward_burst hpending.timed _ _)
  · exact onward_path hs (path_handle s he)

theorem disarm_self (hunarmed : s.conn.guard.armed = none) : s.disarm = s := by
  unfold disarm Guard.disarm
  rw [hunarmed]
  rfl

theorem disarm_armed (s : Scene) : s.disarm.conn.guard.armed = none := by
  unfold disarm Guard.disarm
  cases h : s.conn.guard.armed <;> simp [putGuard, h]

/-- Set a deadline of the next generation; there is none to cancel. -/
def rearm (s : Scene) : Scene :=
  { s.putGuard { s.conn.guard with
      generation := s.conn.guard.generation + 1
      armed := some ⟨s.conn.guard.generation + 1, s.clock.nextId⟩ } with
    clock := s.clock.start s.conn.guard.timeout ⟨s.id, .missed (s.conn.guard.generation + 1)⟩ }

/-- Setting a deadline cancels the earlier one, and starts a timer if there can be one. -/
theorem arm_eq (s : Scene) :
    s.arm = if s.clock.running then (.ok (), s.disarm.rearm)
      else (.error Guard.noTimers, s.disarm.putGuard
        { s.disarm.conn.guard with generation := s.conn.guard.generation + 1 }) := by
  unfold arm rearm disarm Guard.arm Guard.disarm
  cases s.conn.guard.armed <;> dsimp only [Clock.cancel] <;> split_ifs <;> rfl

theorem onward_rearm (hs : s.Timed) : Onward s s.rearm := by
  have hstart := onward_start hs s.conn.guard.timeout (.missed (s.conn.guard.generation + 1))
    s.phone fun _ => rfl
  refine { hstart with timed := ⟨hstart.timed.clock, fun d hd => ?_, fun d hd t ht hid => ?_⟩ }
  · obtain rfl := Option.some.inj hd
    exact Nat.lt_succ_self _
  · obtain rfl := Option.some.inj hd
    rcases List.mem_append.1 ht with ht | ht
    · exact absurd hid (hs.clock.young t ht).ne
    · rw [List.mem_singleton.1 ht]
      rfl

theorem onward_arm (hs : s.Timed) : Onward s s.arm.2 := by
  have hdis := onward_disarm hs
  rw [arm_eq]
  split_ifs
  · exact hdis.trans (onward_rearm hdis.timed)
  · refine hdis.trans ⟨rfl, ⟨hdis.timed.clock, ?_, ?_⟩, rfl, rfl, le_rfl, rfl,
      fun _ ht => .inl ht, fun _ _ => rfl⟩ <;> simp [putGuard, disarm_armed]

theorem onward_close (hs : s.Timed) : Onward s s.close := by
  unfold close
  split_ifs
  · exact Onward.refl hs
  · have hun : Onward s s.unregister := onward_path hs (path_unregister s)
    have hplay := hun.trans (onward_path hun.timed (path_play _ (s.player.map CuePlayer.stop)))
    have hdis := hplay.trans (onward_disarm hplay.timed)
    exact hdis.trans (Onward.of_eq hdis.timed rfl rfl rfl fun _ => rfl)

/-- **Timers under any deed.** -/
theorem onward_act (hs : s.Timed) (d : Deed) : Onward s (s.act d) := by
  by_cases hbits : d.ofBits = true
  · exact onward_path hs (path_act s hbits)
  cases d with
  | play digit => exact onward_keyPath hs (keyPath_playTone s digit)
  | keys digits => exact onward_keyPath hs (keyPath_pressKeys digits s)
  | close => exact onward_close hs
  | handle e => exact onward_handle hs e
  | fetch =>
    unfold act fetch
    cases s.conn.mailbox.waiting with
    | nil => exact Onward.refl hs
    | cons e rest =>
      have hmail : Onward s (s.putMail { s.conn.mailbox with waiting := rest }) :=
        Onward.of_eq hs rfl rfl rfl fun _ => rfl
      exact hmail.trans (onward_handle hmail.timed e)
  | post | attend | retire => exact Onward.of_eq hs rfl rfl rfl fun _ => rfl
  | arm => exact onward_arm hs
  | _ => exact absurd rfl hbits

/-! ### Mailboxes -/

theorem act_post (s : Scene) (e : Event) (h : s.conn.mailbox.accepts = true) :
    s.act (.post e) =
      s.putMail { s.conn.mailbox with waiting := s.conn.mailbox.waiting ++ [e] } := by
  rw [act, Mailbox.post, if_pos h]

theorem act_post_of_not (s : Scene) (e : Event) (h : ¬s.conn.mailbox.accepts = true) :
    s.act (.post e) = s := by
  rw [act, Mailbox.post, if_neg h]
  rfl

/-- The same events wait, for a receiver in the same state. -/
structure Undisturbed (s s' : Scene) : Prop where
  mailbox : s'.conn.mailbox = s.conn.mailbox
  driven : s'.conn.driven = s.conn.driven
  closed : s'.conn.closed = s.conn.closed

namespace Undisturbed

theorem refl (s : Scene) : Undisturbed s s := ⟨rfl, rfl, rfl⟩

theorem trans (h : Undisturbed s s') (h' : Undisturbed s' s'') : Undisturbed s s'' :=
  ⟨h'.mailbox.trans h.mailbox, h'.driven.trans h.driven, h'.closed.trans h.closed⟩

theorem perform (s : Scene) (a : Action) : Undisturbed s (s.perform a) := by
  unfold Scene.perform
  cases s.phone with
  | none => exact refl s
  | some phone => dsimp only; split <;> exact ⟨rfl, rfl, rfl⟩

theorem disarm (s : Scene) : Undisturbed s s.disarm := ⟨rfl, rfl, rfl⟩

theorem of_bit (h : Bit full s s') : Undisturbed s s' := by
  cases h with
  | perform => exact perform s _
  | hangUp => unfold Scene.hangUp; cases s.leg <;> exact ⟨rfl, rfl, rfl⟩
  | correct => unfold onLineControl; cases s.leg <;> exact ⟨rfl, rfl, rfl⟩
  | _ => exact ⟨rfl, rfl, rfl⟩

theorem of_path (h : Path full s s') : Undisturbed s s' :=
  Path.keeps (fun _ _ hb (ht : Undisturbed s _) => ht.trans (of_bit hb)) h (refl s)

theorem of_keyBit (h : KeyBit s s') : Undisturbed s s' := by
  cases h with
  | quiet h => exact of_bit h
  | queue => exact ⟨rfl, rfl, rfl⟩
  | send digits =>
    have htones : Undisturbed s (s.putTones { s.conn.tones with pending := true }) :=
      ⟨rfl, rfl, rfl⟩
    exact htones.trans (perform _ _)

theorem of_keyPath (h : KeyPath s s') : Undisturbed s s' :=
  KeyPath.keeps (fun _ _ hb (ht : Undisturbed s _) => ht.trans (of_keyBit hb)) h (refl s)

end Undisturbed

theorem undisturbed_handle (s : Scene) (e : Event) : Undisturbed s (s.handle e) := by
  by_cases he : e = .burstConfirmed
  · subst he
    unfold handle
    split_ifs
    · exact Undisturbed.refl s
    · have htones (t : Transmitter) : Undisturbed s (s.putTones t) := ⟨rfl, rfl, rfl⟩
      rcases onBurstConfirmed_cases s with ⟨-, h⟩ | ⟨-, -, h⟩
      · rw [h]
        exact htones _
      · rw [h]
        exact ((htones _).trans (Undisturbed.refl _)).trans (Undisturbed.perform _ _)
  · exact Undisturbed.of_path (path_handle s he)

theorem undisturbed_act (s : Scene) {d : Deed} (h : d.touchesMail = false) :
    Undisturbed s (s.act d) := by
  by_cases hbits : d.ofBits = true
  · exact Undisturbed.of_path (path_act s hbits)
  cases d with
  | play digit => exact Undisturbed.of_keyPath (keyPath_playTone s digit)
  | keys digits => exact Undisturbed.of_keyPath (keyPath_pressKeys digits s)
  | handle e => exact undisturbed_handle s e
  | arm => rw [act, arm_eq]; split_ifs <;> exact ⟨rfl, rfl, rfl⟩
  | close | fetch | post | attend | retire => cases h
  | _ => exact absurd rfl hbits

/-- The first event that waits is taken out, whatever handling it does. -/
theorem mailbox_fetch (s : Scene) :
    s.fetch.conn.mailbox = { s.conn.mailbox with waiting := s.conn.mailbox.waiting.tail } := by
  unfold fetch
  cases hw : s.conn.mailbox.waiting with
  | nil =>
    show s.conn.mailbox = { s.conn.mailbox with waiting := [] }
    rw [← hw]
  | cons e rest => exact (undisturbed_handle _ e).mailbox

theorem mailbox_close (s : Scene) : s.close.conn.mailbox =
    if s.conn.closed then s.conn.mailbox else s.conn.mailbox.shutdown := by
  unfold close
  split_ifs <;> rfl

theorem closed_close (s : Scene) : s.close.conn.closed = true := by
  unfold close
  split_ifs with h
  · exact h
  · rfl

/-- Only closing closes. -/
theorem closed_act (s : Scene) {d : Deed} (h : d ≠ .close) :
    (s.act d).conn.closed = s.conn.closed := by
  cases d with
  | close => exact absurd rfl h
  | fetch =>
    unfold act fetch
    cases s.conn.mailbox.waiting with
    | nil => rfl
    | cons e rest => exact (undisturbed_handle _ e).closed
  | post e => rfl
  | attend => rfl
  | retire => rfl
  | _ => exact (undisturbed_act s rfl).closed

/-- A receiver that is gone does not come back. -/
theorem receiver_act (s : Scene) {d : Deed}
    (h : (s.act d).conn.mailbox.receiverGone = false) :
    d ≠ .retire ∧ s.conn.mailbox.receiverGone = false := by
  refine ⟨fun hd => ?_, ?_⟩
  · subst hd
    cases h
  · rw [← h]
    cases d with
    | fetch =>
      show _ = s.fetch.conn.mailbox.receiverGone
      rw [mailbox_fetch]
    | post e => unfold act Mailbox.post; dsimp only [putMail]; split_ifs <;> rfl
    | attend => rfl
    | retire => cases h
    | close =>
      show _ = s.close.conn.mailbox.receiverGone
      rw [mailbox_close]
      split_ifs <;> rfl
    | _ => exact (congrArg Mailbox.receiverGone (undisturbed_act s rfl).mailbox).symm

end Scene

end CdmaCall
