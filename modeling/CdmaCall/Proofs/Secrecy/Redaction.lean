import CdmaCall.Proofs.Connection.Deeds
import Mathlib.Tactic.Simps.Basic

/-!
# Redaction

`redact` hides every key in what a connection has queued and in what a phone was asked for, and
leaves everything else as it is. A deed of a redacted scene with a redacted digit is the redacted
deed (`act_redact`): no digit decides about anything but what is sent in its place.
-/

namespace CdmaCall

namespace Keypad

/-- Whether a character stands for a key. -/
def accepts (c : Char) : Bool := (digit c).isOk

/-- A key is hidden behind another one. What is no key stays, so that a text has as many bytes as
before. -/
def hide (c : Char) : Char := if isDigit c then holdDigit else c

/-- A key for what stands for a key, and one and the same character for everything else. -/
def mask (c : Char) : Char := if accepts c then holdDigit else ' '

@[simp] theorem hide_holdDigit : hide holdDigit = holdDigit := by decide

/-- Masked characters are keys just if the characters are. -/
@[simp] theorem digit_mask (c : Char) : digit (mask c) = (digit c).map hide := by
  have hhash : digit holdDigit = .ok holdDigit := by decide
  have hblank : digit ' ' = .error .invalidDigit := by decide
  unfold mask accepts
  cases hc : digit c with
  | ok key =>
    have hkey : isDigit key = true := by
      unfold digit at hc
      split_ifs at hc with hd
      exact Except.ok.inj hc ▸ hd
    simp [Except.isOk, Except.toBool, Except.map, hhash, hide, hkey]
  | error e =>
    obtain rfl : e = .invalidDigit := by
      unfold digit at hc
      split_ifs at hc
      exact (Except.error.inj hc).symm
    exact hblank

/-- Keys are single bytes. -/
theorem utf8Size_of_isDigit {c : Char} (hc : isDigit c = true) : c.utf8Size = 1 := by
  rw [Char.utf8Size_eq_one_iff]
  simp only [isDigit, Char.isDigit, Bool.or_eq_true, Bool.and_eq_true, decide_eq_true_eq,
    beq_iff_eq] at hc
  rcases hc with ((⟨_, hle⟩ | rfl) | rfl) | ⟨_, hle⟩
  · exact UInt32.le_trans hle (by decide)
  · decide
  · decide
  · exact UInt32.le_trans hle (by decide)

@[simp] theorem utf8Size_hide (c : Char) : (hide c).utf8Size = c.utf8Size := by
  unfold hide
  split_ifs with hc
  · rw [utf8Size_of_isDigit hc]
    decide
  · rfl

end Keypad

open Keypad

/-- See `Keypad.hide`. -/
@[simps] def Transmitter.redact (t : Transmitter) : Transmitter :=
  { t with queue := t.queue.map hide }

/-- See `Keypad.hide`. -/
def Action.redact : Action → Action
  | .startTone digit => .startTone (hide digit)
  | .burst digits onLength offLength => .burst (digits.map hide) onLength offLength
  | a => a

/-- See `Keypad.hide`. -/
@[simps] def Phone.redact (p : Phone) : Phone := { p with actions := p.actions.map Action.redact }

/-- See `Keypad.hide`. -/
@[simps] def Conn.redact (k : Conn) : Conn := { k with tones := k.tones.redact }

/-- See `Keypad.hide`. -/
@[simps] def Scene.redact (s : Scene) : Scene :=
  { s with conn := s.conn.redact, phone := s.phone.map Phone.redact }

/-- See `Keypad.mask`. -/
def Deed.redact : Deed → Deed
  | .play digit => .play (mask digit)
  | .keys digits => .keys (digits.map mask)
  | d => d

/-! ### Phones and tones -/

theorem Phone.perform_redact (p : Phone) (c : ConnId) (a : Action) :
    p.redact.perform c a.redact = ((p.perform c a).1, (p.perform c a).2.redact) := by
  cases a with
  | burst digits on off =>
    cases hd : p.confirmDelay with
    | none => simp [perform, Action.redact, record, redact, hd]
    | some delay => simp [perform, Action.redact, record, redact, hd]
  | _ => simp [perform, Action.redact, record, redact]

theorem Phone.releaseBurst_redact (p : Phone) :
    p.redact.releaseBurst = p.releaseBurst.map fun taken => (taken.1, taken.2.redact) := by
  unfold releaseBurst
  rw [redact_held]
  cases p.held <;> rfl

namespace Transmitter

variable (t : Transmitter)

theorem play_redact (mode : ToneMode) (holding : Bool) (digit : Char) :
    t.redact.play mode holding (hide digit) =
      ((t.play mode holding digit).1, (t.play mode holding digit).2.1.redact,
        (t.play mode holding digit).2.2.map Action.redact) := by
  cases mode with
  | continuous => rfl
  | burst =>
    have hdigit : (if holding = true then holdDigit else hide digit) =
        hide (if holding = true then holdDigit else digit) := by
      cases holding <;> simp
    by_cases hp : t.pending = true
    · simp [play, redact, hp, hdigit]
    · simp [play, redact, hp, hdigit, burstOf, Action.redact]

theorem stop_redact (mode : ToneMode) : (stop mode).map Action.redact = stop mode := by
  cases mode <;> rfl

theorem confirmed_redact (hasPhone : Bool) :
    (t.redact.confirmed hasPhone).2 =
      ((t.confirmed hasPhone).2.1.redact, (t.confirmed hasPhone).2.2.map Action.redact) := by
  unfold confirmed
  rw [redact_queue, List.isEmpty_map]
  split_ifs
  · rfl
  · rfl
  · rfl

end Transmitter

/-! ### Scenes -/

namespace Scene

variable (s : Scene)

@[simp] theorem isLive_redact (k : Conn) : k.redact.isLive = k.isLive := rfl

@[simp] theorem toneMode_redact : s.redact.toneMode = s.toneMode := rfl

@[simp] theorem mark_redact (b : Bool) : s.redact.mark b = (s.mark b).redact := rfl

@[simp] theorem putTones_redact (t : Transmitter) :
    s.redact.putTones t.redact = (s.putTones t).redact := rfl

@[simp] theorem disarm_redact : s.redact.disarm = s.disarm.redact := rfl

@[simp] theorem isEmergency_redact : s.redact.isEmergency = s.isEmergency := by
  unfold isEmergency
  rw [redact_phone, redact_leg]
  cases s.leg <;> cases s.phone <;> rfl

theorem perform_redact (a : Action) : s.redact.perform a.redact = (s.perform a).redact := by
  unfold perform
  rw [redact_phone]
  cases hp : s.phone with
  | none => simp [redact, hp]
  | some p =>
    dsimp only [Option.map_some]
    rw [Phone.perform_redact, redact_id]
    cases p.perform s.id a with
    | mk delay p' => cases delay <;> rfl

theorem perform?_redact (a : Option Action) :
    s.redact.perform? (a.map Action.redact) = (s.perform? a).redact := by
  cases a with
  | none => rfl
  | some a => exact s.perform_redact a

/-! #### Phases -/

theorem cue_redact (p : Phase) : s.redact.cue p = (s.cue p).redact := by
  unfold cue
  rw [redact_player, isEmergency_redact]
  cases s.player with
  | none => rfl
  | some player => dsimp only; split_ifs <;> rfl

theorem enter_redact (p : Phase) : s.redact.enter p = (s.enter p).redact := by
  unfold enter
  rw [redact_conn, isLive_redact]
  split_ifs
  · show (((s.mark _).redact.cue p).putPhase p).notify _ = _
    rw [cue_redact]
    rfl
  · rfl

theorem setPhase_redact (p : Phase) : s.redact.setPhase p = (s.setPhase p).redact := by
  unfold setPhase
  rw [redact_conn, Conn.redact_phase]
  split_ifs
  · rfl
  · exact s.enter_redact p

theorem disconnect_redact (cause : Cause) :
    s.redact.disconnect cause = (s.disconnect cause).redact := by
  unfold disconnect
  rw [redact_conn, Conn.redact_phase]
  split_ifs
  · rfl
  · show ((s.disarm.putCause cause).redact.setPhase .disconnected).notify _ = _
    rw [setPhase_redact]
    rfl

theorem hangUp_redact : s.redact.hangUp = (s.hangUp.1, s.hangUp.2.redact) := by
  unfold hangUp
  rw [redact_leg]
  cases s.leg <;> rfl

theorem hangUpAndDisconnect_redact (cause : Cause) :
    s.redact.hangUpAndDisconnect cause = (s.hangUpAndDisconnect cause).redact := by
  unfold hangUpAndDisconnect
  rw [hangUp_redact, disconnect_redact]

theorem clearWaiting_redact (cause : Cause) :
    s.redact.clearWaiting cause = (s.clearWaiting cause).redact := by
  unfold clearWaiting
  rw [disarm_redact]
  dsimp only
  rw [redact_leg]
  cases s.disarm.leg with
  | none => rfl
  | some leg => exact s.disarm.hangUpAndDisconnect_redact cause

theorem update_redact : s.redact.update = s.update.redact := by
  unfold update
  rw [redact_conn, isLive_redact, redact_leg]
  split_ifs
  · cases s.leg with
    | none => rfl
    | some leg =>
      dsimp only
      rw [mark_redact]
      split_ifs
      · exact disconnect_redact _ _
      · cases phaseOf leg.state with
        | none => rfl
        | some p => exact setPhase_redact _ p
  · rfl

theorem forceDialing_redact (dialing : Bool) :
    s.redact.forceDialing dialing = (s.forceDialing dialing).redact := by
  cases dialing with
  | true => exact s.setPhase_redact .dialing
  | false => exact s.update_redact

/-! #### Requests of the user -/

theorem playTone_redact (c : Char) :
    s.redact.playTone (mask c) = ((s.playTone c).1, (s.playTone c).2.redact) := by
  unfold playTone
  rw [redact_conn, Conn.redact_closed, digit_mask, redact_phone]
  split_ifs
  · rfl
  · cases digit c with
    | error e => rfl
    | ok digit =>
      cases s.phone with
      | none => rfl
      | some phone =>
        simp only [Except.map, Option.map_some, Conn.redact_tones, toneMode_redact,
          Phone.redact_holding, Transmitter.play_redact, putTones_redact, perform?_redact]

theorem stopTone_redact : s.redact.stopTone = s.stopTone.redact := by
  unfold stopTone
  rw [redact_conn, Conn.redact_closed, toneMode_redact]
  split_ifs
  · rfl
  · have hperform := s.perform?_redact (Transmitter.stop s.toneMode)
    rwa [Transmitter.stop_redact] at hperform

theorem pressKeys_redact (digits : List Char) (s : Scene) :
    s.redact.pressKeys (digits.map mask) =
      ((s.pressKeys digits).1, (s.pressKeys digits).2.redact) := by
  induction digits generalizing s with
  | nil => rfl
  | cons c digits ih =>
    rw [List.map_cons, pressKeys, pressKeys, playTone_redact]
    cases s.playTone c with
    | mk r s' =>
      cases r with
      | error e => rfl
      | ok _ =>
        dsimp only
        rw [stopTone_redact, ih]

theorem reject_redact : s.redact.reject = s.reject.redact := by
  unfold reject
  rw [redact_conn, isLive_redact, redact_leg]
  split_ifs
  · cases s.leg with
    | none => exact s.disconnect_redact .localClearing
    | some leg =>
      dsimp only
      split
      · rw [hangUp_redact]
        cases s.hangUp with
        | mk r s' =>
          cases r with
          | ok _ => rfl
          | error e => exact s'.disconnect_redact .incomingRejected
      · exact s.clearWaiting_redact .incomingRejected
      · exact s.hangUpAndDisconnect_redact .localClearing
  · rfl

theorem answer_redact : s.redact.answer = s.answer.redact := by
  unfold answer
  rw [redact_conn, isLive_redact, disarm_redact]
  dsimp only
  rw [redact_leg]
  split_ifs
  · rfl
  · exact s.disarm.perform_redact .accept
  · rfl

/-- What is done to the phone alone. -/
theorem map_phone_redact {f : Phone → Phone} (hf : ∀ p : Phone, f p.redact = (f p).redact) :
    ({ s.redact with phone := s.redact.phone.map f } : Scene) =
      ({ s with phone := s.phone.map f } : Scene).redact := by
  have hphone : (s.phone.map Phone.redact).map f = (s.phone.map f).map Phone.redact := by
    cases s.phone with
    | none => rfl
    | some p => exact congrArg some (hf p)
  simp [redact, hphone]

theorem register_redact : s.redact.register = s.register.redact := by
  refine s.map_phone_redact fun p => ?_
  simp [Phone.register, Phone.record, Phone.redact, Action.redact]

theorem unregister_redact : s.redact.unregister = s.unregister.redact := by
  refine s.map_phone_redact fun p => ?_
  simp [Phone.unregister, Phone.record, Phone.redact, Action.redact]

theorem close_redact : s.redact.close = s.close.redact := by
  unfold close
  rw [redact_conn, Conn.redact_closed, unregister_redact]
  split_ifs
  · rfl
  · rfl

theorem conference_redact : s.redact.conference = (s.conference.1, s.conference.2.redact) := by
  have hable : (!s.redact.conn.closed && s.redact.isPacketVoice && s.redact.phone.isSome &&
      !(s.redact.leg.map (·.refusesConference)).getD false) = (!s.conn.closed && s.isPacketVoice &&
        s.phone.isSome && !(s.leg.map (·.refusesConference)).getD false) := by
    rw [redact_phone, Option.isSome_map]
    rfl
  unfold conference
  rw [hable]
  split_ifs
  · exact congrArg _ (s.perform_redact .conference)
  · rfl

/-! #### Events -/

theorem onBurstConfirmed_redact : s.redact.onBurstConfirmed = s.onBurstConfirmed.redact := by
  have hconfirmed := s.conn.tones.confirmed_redact s.phone.isSome
  show (s.redact.putTones (s.conn.tones.redact.confirmed s.redact.phone.isSome).2.1).perform?
    (s.conn.tones.redact.confirmed s.redact.phone.isSome).2.2 = _
  rw [redact_phone, Option.isSome_map, hconfirmed, putTones_redact, perform?_redact]
  rfl

theorem onLineControl_redact : s.redact.onLineControl = s.onLineControl.redact := by
  unfold onLineControl
  rw [redact_leg]
  cases s.leg <;> rfl

theorem onMissed_redact (generation : ℕ) :
    s.redact.onMissed generation = (s.onMissed generation).redact := by
  unfold onMissed
  rw [redact_conn, Conn.redact_guard]
  cases s.conn.guard.expire generation with
  | mk yes guard =>
    cases yes with
    | true => exact clearWaiting_redact (s.putGuard guard) .incomingMissed
    | false => rfl

theorem handle_redact (e : Event) : s.redact.handle e = (s.handle e).redact := by
  unfold handle
  rw [redact_conn, Conn.redact_closed]
  split_ifs
  · rfl
  · cases e with
    | missed generation => exact s.onMissed_redact generation
    | burstConfirmed => exact s.onBurstConfirmed_redact
    | lineControl => exact s.onLineControl_redact

theorem fetch_redact : s.redact.fetch = s.fetch.redact := by
  unfold fetch
  rw [redact_conn, Conn.redact_mailbox]
  cases s.conn.mailbox.waiting with
  | nil => rfl
  | cons e rest => exact handle_redact (s.putMail { s.conn.mailbox with waiting := rest }) e

theorem fetches_redact (es : List Event) (s : Scene) :
    es.foldl (fun s _ => s.fetch) s.redact = (es.foldl (fun s _ => s.fetch) s).redact := by
  induction es generalizing s with
  | nil => rfl
  | cons e es ih =>
    rw [List.foldl_cons, fetch_redact, ih]
    rfl

theorem drain_redact : s.redact.drain = (s.drain.1, s.drain.2.redact) :=
  congrArg _ (fetches_redact s.conn.mailbox.waiting s)

theorem receive_redact (e : Event) :
    s.redact.receive e = ((s.receive e).1, (s.receive e).2.redact) := by
  have hpost : s.redact.putMail (s.conn.mailbox.post e).2 =
      (s.putMail (s.conn.mailbox.post e).2).redact := rfl
  unfold receive
  rw [redact_conn, Conn.redact_mailbox]
  dsimp only
  rw [hpost, drain_redact, redact_conn, Conn.redact_driven]
  split_ifs <;> rfl

theorem arm_redact : s.redact.arm = (s.arm.1, s.arm.2.redact) := rfl

/-- **No digit decides about anything:** a deed with a masked digit, done where all keys are hidden,
leads to the same scene with all keys hidden. -/
theorem act_redact (d : Deed) : s.redact.act d.redact = (s.act d).redact := by
  cases d with
  | play digit => exact congrArg Prod.snd (s.playTone_redact digit)
  | keys digits => exact congrArg Prod.snd (pressKeys_redact digits s)
  | stop => exact s.stopTone_redact
  | reject => exact s.reject_redact
  | answer => exact s.answer_redact
  | update => exact s.update_redact
  | close => exact s.close_redact
  | enter p => exact s.enter_redact p
  | forceDialing dialing => exact s.forceDialing_redact dialing
  | conference => exact congrArg Prod.snd s.conference_redact
  | handle e => exact s.handle_redact e
  | fetch => exact s.fetch_redact
  | register => exact s.register_redact
  | unregister => exact s.unregister_redact
  | _ => rfl

end Scene

end CdmaCall
