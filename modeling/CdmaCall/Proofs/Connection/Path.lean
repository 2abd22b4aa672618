import CdmaCall.Connection.Scene
import Mathlib.Data.List.Basic
import Mathlib.Logic.Relation

/-!
# The bits that requests consist of

A `Bit` is the smallest change that a connection makes to its scene. `Path` is any number of bits
one after the other, and what each bit keeps, a path keeps. A bit is light unless it ends the call
or has to do with the deadline: `Bit false` and `Path false` are light, `Bit true` and `Path true`
are any. Playing digits is a `KeyPath`: it is light, and also queues digits and sends bursts. Not
covered here are confirmations of bursts, whatever touches the mailbox, setting a deadline, and
closing.

`Anchored s s'` is the first thing that is kept: the scene stays about the same connection on the
same leg and phone, under the same settings.
-/

namespace CdmaCall

/-- Whether a request to a phone is a burst. -/
def Action.isBurst : Action → Bool
  | .burst .. => true
  | _ => false

namespace Scene

/-- One change of a scene; a light one unless `full`. -/
inductive Bit : Bool → Scene → Scene → Prop
  | mark {full : Bool} (s : Scene) (b : Bool) : Bit full s (s.mark b)
  | putPhase {full : Bool} (s : Scene) (p : Phase) (hlive : s.conn.phase.isTerminal = false)
      (hp : p.isTerminal = true → full = true) : Bit full s (s.putPhase p)
  | putCause (s : Scene) (cause : Cause) : Bit true s (s.putCause cause)
  | notify {full : Bool} (s : Scene) (n : Notice) : Bit full s (s.notify n)
  | play {full : Bool} (s : Scene) (player : Option CuePlayer) : Bit full s { s with player }
  | perform {full : Bool} (s : Scene) {a : Action} (h : a.isBurst = false) :
      Bit full s (s.perform a)
  | disarm (s : Scene) : Bit true s s.disarm
  /-- The deadline was delivered. -/
  | expire (s : Scene) : Bit true s (s.putGuard { s.conn.guard with armed := none })
  | hangUp {full : Bool} (s : Scene) : Bit full s s.hangUp.2
  | correct {full : Bool} (s : Scene) : Bit full s s.onLineControl
  | register {full : Bool} (s : Scene) : Bit full s s.register
  | unregister {full : Bool} (s : Scene) : Bit full s s.unregister

/-- Bits, one after the other. -/
def Path (full : Bool) : Scene → Scene → Prop := Relation.ReflTransGen (Bit full)

/-- One change of a scene while digits are played. -/
inductive KeyBit : Scene → Scene → Prop
  | quiet {s s' : Scene} (h : Bit false s s') : KeyBit s s'
  /-- A digit waits behind a burst. -/
  | queue (s : Scene) (queue : List Char) (hbusy : s.conn.tones.pending = true) :
      KeyBit s (s.putTones { s.conn.tones with queue })
  /-- A burst goes out; none may be outstanding. -/
  | send (s : Scene) (digits : List Char) (hphone : s.phone.isSome = true)
      (hidle : s.conn.tones.pending = false) :
      KeyBit s ((s.putTones { s.conn.tones with pending := true }).perform
        (s.conn.tones.burstOf digits))

/-- Changes while digits are played, one after the other. -/
def KeyPath : Scene → Scene → Prop := Relation.ReflTransGen KeyBit

variable {full : Bool}

namespace Path

variable {s s' s'' : Scene}

theorem refl (s : Scene) : Path full s s := Relation.ReflTransGen.refl

theorem of_bit (h : Bit full s s') : Path full s s' := Relation.ReflTransGen.single h

theorem trans (h : Path full s s') (h' : Path full s' s'') : Path full s s'' :=
  Relation.ReflTransGen.trans h h'

theorem bit (h : Path full s s') (h' : Bit full s' s'') : Path full s s'' :=
  Relation.ReflTransGen.tail h h'

/-- What each bit keeps, a path keeps. -/
theorem keeps {R : Scene → Prop} (hbit : ∀ s s', Bit full s s' → R s → R s') (h : Path full s s')
    (hs : R s) : R s' := by
  induction h with
  | refl => exact hs
  | tail _ hb ih => exact hbit _ _ hb ih

/-- A light path is a path. -/
theorem toFull (h : Path false s s') : Path true s s' := by
  refine keeps (fun t t' hb (ht : Path true s t) => ?_) h (refl s)
  cases hb with
  | mark => exact ht.bit (Bit.mark t _)
  | putPhase =>
    rename_i hlive
    exact ht.bit (Bit.putPhase t _ hlive fun _ => rfl)
  | notify => exact ht.bit (Bit.notify t _)
  | play => exact ht.bit (Bit.play t _)
  | perform =>
    rename_i ha
    exact ht.bit (Bit.perform t ha)
  | hangUp => exact ht.bit (Bit.hangUp t)
  | correct => exact ht.bit (Bit.correct t)
  | register => exact ht.bit (Bit.register t)
  | unregister => exact ht.bit (Bit.unregister t)

/-- A path is also one on which digits could be played. -/
theorem keyed (h : Path false s s') : KeyPath s s' := by
  induction h with
  | refl => exact Relation.ReflTransGen.refl
  | tail _ hb ih => exact Relation.ReflTransGen.tail ih (KeyBit.quiet hb)

end Path

namespace KeyPath

variable {s s' s'' : Scene}

theorem refl (s : Scene) : KeyPath s s := Relation.ReflTransGen.refl

theorem of_bit (h : KeyBit s s') : KeyPath s s' := Relation.ReflTransGen.single h

theorem trans (h : KeyPath s s') (h' : KeyPath s' s'') : KeyPath s s'' :=
  Relation.ReflTransGen.trans h h'

/-- What each change keeps, all of them keep. -/
theorem keeps {R : Scene → Prop} (hbit : ∀ s s', KeyBit s s' → R s → R s') (h : KeyPath s s')
    (hs : R s) : R s' := by
  induction h with
  | refl => exact hs
  | tail _ hb ih => exact hbit _ _ hb ih

end KeyPath

/-! ### Steps shared by several requests -/

theorem path_perform? (s : Scene) {a : Option Action} (h : ∀ b ∈ a, b.isBurst = false) :
    Path full s (s.perform? a) := by
  cases a with
  | none => exact Path.refl s
  | some a => exact Path.of_bit (Bit.perform s (h a rfl))

theorem path_play (s : Scene) (player : Option CuePlayer) : Path false s { s with player } :=
  Path.of_bit (Bit.play s player)

theorem path_mark (s : Scene) (b : Bool) : Path false s (s.mark b) := Path.of_bit (Bit.mark s b)

/-- The cue is all that changes. -/
theorem cue_eq (s : Scene) (p : Phase) : s.cue p = { s with player := (s.cue p).player } := by
  unfold cue
  cases hp : s.player with
  | none => cases s; simp_all
  | some player =>
    dsimp only
    split_ifs
    · rfl
    · cases s; simp_all
    · rfl

theorem path_cue (s : Scene) (p : Phase) : Path full s (s.cue p) := by
  unfold cue
  cases s.player with
  | none => exact Path.refl s
  | some player =>
    dsimp only
    split_ifs
    · exact Path.of_bit (Bit.play s _)
    · exact Path.refl s
    · exact Path.of_bit (Bit.play s _)

/-! ### Phases -/

theorem path_enter (s : Scene) {p : Phase} (hp : p.isTerminal = true → full = true) :
    Path full s (s.enter p) := by
  unfold enter
  split_ifs with hlive
  · have hmark : Path full s _ := Path.of_bit (Bit.mark s (!p.isTerminal && s.legWaits))
    have hphase : ((s.mark (!p.isTerminal && s.legWaits)).cue p).conn.phase.isTerminal = false := by
      rw [cue_eq]
      show s.conn.phase.isTerminal = false
      simpa [Conn.isLive] using (Bool.and_eq_true_iff.1 hlive).2
    exact ((hmark.trans (path_cue _ p)).bit (Bit.putPhase _ p hphase hp)).bit (Bit.notify _ _)
  · exact Path.refl s

/-- What entering a phase makes of a live connection. -/
theorem enter_eq (s : Scene) (p : Phase) (hlive : s.conn.isLive = true) :
    s.enter p = { s with
      player := ((s.mark (!p.isTerminal && s.legWaits)).cue p).player
      conn := { s.conn with
        waiting := !p.isTerminal && s.legWaits
        phase := p
        notices := s.conn.notices ++ [⟨s.id, .entered p⟩] } } := by
  unfold enter
  rw [if_pos hlive, cue_eq]
  rfl

theorem path_setPhase (s : Scene) {p : Phase} (hp : p.isTerminal = true → full = true) :
    Path full s (s.setPhase p) := by
  unfold setPhase
  split_ifs
  · exact Path.refl s
  · exact path_enter s hp

theorem path_disconnect (s : Scene) (cause : Cause) : Path true s (s.disconnect cause) := by
  unfold disconnect
  split_ifs
  · exact Path.refl s
  · have hcause := (Path.of_bit (Bit.disarm s)).bit (Bit.putCause _ cause)
    exact (hcause.trans (path_setPhase _ fun _ => rfl)).bit (Bit.notify _ _)

/-- Ending a call calls its deadline off, records the cause and tells of it. -/
theorem disconnect_eq (s : Scene) (cause : Cause) (hopen : s.conn.closed = false)
    (hlive : s.conn.phase.isTerminal = false) : s.disconnect cause =
      { s.disarm with
        player := ((s.disarm.putCause cause).mark false |>.cue .disconnected).player
        conn := { s.disarm.conn with
          cause := some cause
          waiting := false
          phase := .disconnected
          notices := s.conn.notices ++ [⟨s.id, .entered .disconnected⟩] ++
            [⟨s.id, .disconnected cause⟩] } } := by
  have hphase : (s.conn.phase == .disconnected) = false := hlive
  have hset : (s.disarm.putCause cause).setPhase .disconnected =
      (s.disarm.putCause cause).enter .disconnected := by
    unfold setPhase
    show (if (s.conn.phase == .disconnected) = true then _ else _) = _
    rw [if_neg (by simp [hphase])]
  have hcall : (s.disarm.putCause cause).conn.isLive = true := by
    simp only [Conn.isLive, Bool.and_eq_true, Bool.not_eq_true']
    exact ⟨hopen, hlive⟩
  unfold disconnect
  rw [if_neg (by simp [hlive]), hset, enter_eq _ _ hcall]
  rfl

theorem phaseOf_live {state : LegState} {p : Phase} (h : phaseOf state = some p) :
    p.isTerminal = false := by
  cases state <;> cases h <;> rfl

/-- Following the leg is light, unless the leg is gone. -/
theorem update_cases (s : Scene) :
    Path false s s.update ∨ ∃ s₁, Path false s s₁ ∧ s.update = s₁.disconnect .normal := by
  unfold update
  split_ifs
  · cases s.leg with
    | none => exact .inl (Path.refl s)
    | some leg =>
      have hmark : Path false s _ := Path.of_bit (Bit.mark s (leg.state == .waiting))
      dsimp only
      split_ifs
      · exact .inr ⟨_, hmark, rfl⟩
      · cases hp : phaseOf leg.state with
        | none => exact .inl hmark
        | some p => exact .inl (hmark.trans (path_setPhase _ (by simp [phaseOf_live hp])))
  · exact .inl (Path.refl s)

theorem path_update (s : Scene) : Path true s s.update := by
  rcases update_cases s with h | ⟨s₁, h, heq⟩
  · exact h.toFull
  · rw [heq]
    exact h.toFull.trans (path_disconnect _ _)

theorem path_forceDialing (s : Scene) (dialing : Bool) : Path true s (s.forceDialing dialing) := by
  cases dialing with
  | true => exact path_setPhase s fun _ => rfl
  | false => exact path_update s

/-! ### Tones -/

theorem keyPath_playTone (s : Scene) (c : Char) : KeyPath s (s.playTone c).2 := by
  unfold playTone
  split_ifs
  · exact KeyPath.refl s
  · cases Keypad.digit c with
    | error e => exact KeyPath.refl s
    | ok digit =>
      cases hp : s.phone with
      | none => simpa only [hp] using KeyPath.refl s
      | some phone =>
        cases s.toneMode with
        | continuous =>
          have hbit : Bit false s _ :=
            Bit.perform s (rfl : (Action.startTone digit).isBurst = false)
          exact KeyPath.of_bit (KeyBit.quiet hbit)
        | burst =>
          by_cases hpend : s.conn.tones.pending = true
          · simp only [Transmitter.play, if_pos hpend]
            exact KeyPath.of_bit (KeyBit.queue s _ hpend)
          · simp only [Transmitter.play, if_neg hpend]
            exact KeyPath.of_bit (KeyBit.send s _ (by rw [hp]; rfl) (by simpa using hpend))

theorem path_stopTone (s : Scene) : Path false s s.stopTone := by
  unfold stopTone
  split_ifs
  · exact Path.refl s
  · refine path_perform? s fun a ha => ?_
    cases hm : s.toneMode with
    | continuous => simp [hm, Transmitter.stop] at ha; rw [← ha]; rfl
    | burst => simp [hm, Transmitter.stop] at ha

theorem keyPath_pressKeys (cs : List Char) (s : Scene) : KeyPath s (s.pressKeys cs).2 := by
  induction cs generalizing s with
  | nil => exact KeyPath.refl s
  | cons c cs ih =>
    have h := keyPath_playTone s c
    rw [pressKeys]
    cases hp : s.playTone c with
    | mk r s' =>
      rw [hp] at h
      cases r with
      | error e => exact h
      | ok _ => exact (h.trans (path_stopTone s').keyed).trans (ih _)

/-! ### Answering, rejecting and merging -/

theorem path_clearWaiting (s : Scene) (cause : Cause) : Path true s (s.clearWaiting cause) := by
  unfold clearWaiting
  have hdisarm := Path.of_bit (Bit.disarm s)
  dsimp only
  split
  · exact hdisarm
  · exact (hdisarm.bit (Bit.hangUp _)).trans (path_disconnect _ _)

/-- Refusing a call is light only if a ringing leg hangs up. -/
theorem reject_cases (s : Scene) :
    Path false s s.reject ∨ ∃ s₁ cause, cause ≠ .incomingMissed ∧
      (Path false s s₁ ∨ Path false s.disarm s₁) ∧ s.reject = s₁.disconnect cause := by
  have hhang (t : Scene) : Path false t t.hangUp.2 := Path.of_bit (Bit.hangUp t)
  unfold reject
  split_ifs
  · cases hl : s.leg with
    | none => exact .inr ⟨s, .localClearing, by decide, .inl (Path.refl s), rfl⟩
    | some leg =>
      dsimp only
      split
      · have hh := hhang s
        cases hr : s.hangUp with
        | mk r s' =>
          rw [hr] at hh
          cases r with
          | ok _ => exact .inl hh
          | error e => exact .inr ⟨s', .incomingRejected, by decide, .inl hh, rfl⟩
      · have hleg : s.disarm.leg = some leg := hl
        refine .inr ⟨s.disarm.hangUp.2, .incomingRejected, by decide, .inr (hhang _), ?_⟩
        unfold clearWaiting
        dsimp only
        rw [hleg]
        rfl
      · exact .inr ⟨s.hangUp.2, .localClearing, by decide, .inl (hhang s), rfl⟩
  · exact .inl (Path.refl s)

theorem path_reject (s : Scene) : Path true s s.reject := by
  rcases reject_cases s with h | ⟨s₁, cause, -, h, heq⟩
  · exact h.toFull
  · rw [heq]
    rcases h with h | h
    · exact h.toFull.trans (path_disconnect _ _)
    · exact ((Path.of_bit (Bit.disarm s)).trans h.toFull).trans (path_disconnect _ _)

/-- Taking a call voids the deadline, and is light apart from that. -/
theorem answer_cases (s : Scene) (hlive : s.conn.isLive = true) :
    Path false s.disarm s.answer := by
  unfold answer
  rw [if_pos hlive]
  dsimp only
  split_ifs
  · exact Path.refl _
  · exact Path.of_bit (Bit.perform _ rfl)

theorem path_answer (s : Scene) : Path true s s.answer := by
  by_cases hlive : s.conn.isLive = true
  · exact (Path.of_bit (Bit.disarm s)).trans (answer_cases s hlive).toFull
  · unfold answer
    rw [if_neg hlive]
    exact Path.refl s

theorem path_conference (s : Scene) : Path false s s.conference.2 := by
  unfold conference
  split_ifs
  · exact Path.of_bit (Bit.perform s (rfl : Action.conference.isBurst = false))
  · exact Path.refl s

/-! ### Binding -/

theorem path_register (s : Scene) : Path false s s.register := Path.of_bit (Bit.register s)

theorem path_unregister (s : Scene) : Path false s s.unregister := Path.of_bit (Bit.unregister s)

/-- What closing makes of an open connection. -/
theorem close_eq (s : Scene) (hopen : s.conn.closed = false) : s.close =
    { s.disarm with
      phone := s.phone.map (·.unregister s.id)
      player := s.player.map CuePlayer.stop
      conn := { s.disarm.conn with
        tones := s.conn.tones.discard.2
        correction := s.conn.correction.reset
        mailbox := s.conn.mailbox.shutdown
        leg := none
        closed := true
        notices := s.conn.notices ++ [⟨s.id, .closed⟩] } } := by
  unfold close
  rw [if_neg (by simp [hopen])]
  rfl

/-! ### Events -/

theorem path_onMissed (s : Scene) (generation : ℕ) : Path true s (s.onMissed generation) := by
  unfold onMissed Guard.expire
  cases s.conn.guard.armed with
  | none => exact Path.refl s
  | some d =>
    dsimp only
    by_cases hd : (d.generation == generation) = true
    · rw [if_pos hd]
      exact (Path.of_bit (Bit.expire s)).trans (path_clearWaiting _ _)
    · rw [if_neg hd]
      exact Path.refl s

theorem path_onLineControl (s : Scene) : Path false s s.onLineControl := Path.of_bit (Bit.correct s)

/-- An event that is no confirmation of a burst. -/
theorem path_handle (s : Scene) {e : Event} (h : e ≠ .burstConfirmed) :
    Path true s (s.handle e) := by
  unfold handle
  split_ifs
  · exact Path.refl s
  · cases e with
    | missed generation => exact path_onMissed s generation
    | burstConfirmed => exact absurd rfl h
    | lineControl => exact Path.of_bit (Bit.correct s)

/-! ### What stays the same -/

/-- The same connection, bound to the same leg with the same phone, under the same settings. -/
structure Anchored (s s' : Scene) : Prop where
  id : s'.id = s.id
  bound : s'.conn.leg = s.conn.leg
  leg : s'.leg.map (·.phone) = s.leg.map (·.phone)
  phone : s'.phone.isSome = s.phone.isSome
  toneType : s'.toneType = s.toneType
  emergency : s'.emergency = s.emergency

namespace Anchored

variable {s s' s'' : Scene}

theorem refl (s : Scene) : Anchored s s := ⟨rfl, rfl, rfl, rfl, rfl, rfl⟩

theorem trans (h : Anchored s s') (h' : Anchored s' s'') : Anchored s s'' :=
  ⟨h'.id.trans h.id, h'.bound.trans h.bound, h'.leg.trans h.leg, h'.phone.trans h.phone,
    h'.toneType.trans h.toneType, h'.emergency.trans h.emergency⟩

theorem leg_isSome (h : Anchored s s') : s'.leg.isSome = s.leg.isSome := by
  simpa using congrArg Option.isSome h.leg

theorem leg_phone (h : Anchored s s') : s'.leg.bind (·.phone) = s.leg.bind (·.phone) := by
  have hleg := h.leg
  cases hs : s.leg <;> cases hs' : s'.leg <;> simp_all

theorem perform (s : Scene) (a : Action) : Anchored s (s.perform a) := by
  unfold Scene.perform
  cases hp : s.phone with
  | none => exact refl s
  | some phone =>
    dsimp only
    split <;> exact ⟨rfl, rfl, rfl, by simp [hp], rfl, rfl⟩

theorem hangUp (s : Scene) : Anchored s s.hangUp.2 := by
  unfold Scene.hangUp
  cases hl : s.leg with
  | none => exact refl s
  | some leg =>
    refine ⟨rfl, rfl, ?_, rfl, rfl, rfl⟩
    unfold Leg.hangUp
    by_cases hr : leg.refusesHangup = true <;> simp [hl, hr]

theorem onLineControl (s : Scene) : Anchored s s.onLineControl := by
  unfold Scene.onLineControl
  cases hl : s.leg with
  | none => exact refl s
  | some leg =>
    refine ⟨rfl, rfl, ?_, rfl, rfl, rfl⟩
    dsimp only [Correction.onRecord]
    split_ifs <;> simp [hl, Leg.resetTime]

theorem of_bit (h : Bit full s s') : Anchored s s' := by
  cases h with
  | perform => exact perform s _
  | hangUp => exact hangUp s
  | correct => exact onLineControl s
  | register => exact ⟨rfl, rfl, rfl, by simp [Scene.register], rfl, rfl⟩
  | unregister => exact ⟨rfl, rfl, rfl, by simp [Scene.unregister], rfl, rfl⟩
  | _ => exact ⟨rfl, rfl, rfl, rfl, rfl, rfl⟩

theorem of_path (h : Path full s s') : Anchored s s' :=
  Path.keeps (fun _ _ hb (ht : Anchored s _) => ht.trans (of_bit hb)) h (refl s)

theorem of_keyBit (h : KeyBit s s') : Anchored s s' := by
  cases h with
  | quiet h => exact of_bit h
  | queue => exact ⟨rfl, rfl, rfl, rfl, rfl, rfl⟩
  | send digits =>
    have htones : Anchored s (s.putTones { s.conn.tones with pending := true }) :=
      ⟨rfl, rfl, rfl, rfl, rfl, rfl⟩
    exact htones.trans (perform _ _)

theorem of_keyPath (h : KeyPath s s') : Anchored s s' :=
  KeyPath.keeps (fun _ _ hb (ht : Anchored s _) => ht.trans (of_keyBit hb)) h (refl s)

end Anchored

theorem anchored_onBurstConfirmed (s : Scene) : Anchored s s.onBurstConfirmed := by
  unfold onBurstConfirmed
  have htones (t : Transmitter) : Anchored s (s.putTones t) := ⟨rfl, rfl, rfl, rfl, rfl, rfl⟩
  dsimp only
  cases (s.conn.tones.confirmed s.phone.isSome).2.2 with
  | none => exact htones _
  | some a => exact (htones _).trans (Anchored.perform _ a)

theorem anchored_handle (s : Scene) (e : Event) : Anchored s (s.handle e) := by
  by_cases he : e = .burstConfirmed
  · subst he
    unfold handle
    split_ifs
    · exact Anchored.refl s
    · exact anchored_onBurstConfirmed s
  · exact Anchored.of_path (path_handle s he)

theorem anchored_fetch (s : Scene) : Anchored s s.fetch := by
  unfold fetch
  cases s.conn.mailbox.waiting with
  | nil => exact Anchored.refl s
  | cons e rest =>
    have hmail : Anchored s (s.putMail { s.conn.mailbox with waiting := rest }) :=
      ⟨rfl, rfl, rfl, rfl, rfl, rfl⟩
    exact hmail.trans (anchored_handle _ e)

end Scene

end CdmaCall
