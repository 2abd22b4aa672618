import CdmaCall.Proofs.Session.Attendance
import CdmaCall.Proofs.Lifecycle.Rejection
import CdmaCall.Proofs.Lifecycle.Snapshots

/-!
# Confirmations commute with other events

A confirmed burst concerns the tones, the phone and the clock of a connection only, and no other
event touches any of these or depends on them (`onBurstConfirmed_equippedAs`, `handle_equippedAs`).
So a confirmation and another event of the same connection may be handled in either order
(`handle_comm`), also if what one of them makes ready runs before the other (`runTimers_comm`), and
of the events that wait in a mailbox only the order among the others matters (`handleAll_arranged`).
Either way the whole world is the same in the end (`confirmations_commute`).
-/

namespace CdmaCall

section Defs

namespace Scene

/-- The connection of `s` with the tones, the mailbox, the phone and the clock of `u`. -/
def equippedAs (s u : Scene) : Scene :=
  { s with
    conn := { s.conn with tones := u.conn.tones, mailbox := u.conn.mailbox }
    phone := u.phone
    clock := u.clock }

/-- Handle events one after the other. -/
def handleAll (s : Scene) (es : List Event) : Scene := es.foldl Scene.handle s

/-- Nothing waits for a connection that handles events as they arrive. -/
def Idle (s : Scene) : Prop :=
  s.conn.driven = true → s.conn.mailbox.accepts = true → s.conn.mailbox.waiting = []

end Scene

namespace World

/-- Whatever is due confirms a burst of connection `c`, for which nothing else is ready. -/
structure OnlyConfirms (w : World) (c : ConnId) : Prop where
  orderly : w.Orderly
  due : ∀ t ∈ w.clock.pending, t.due ≤ w.clock.now → t.job = ⟨c, .burstConfirmed⟩
  idle : ∀ s, w.scene? c = some s → s.Idle

/-- Let the events `es` wait for connection `c`. -/
def enqueue (w : World) (c : ConnId) (es : List Event) : World :=
  w.onScene c fun s => s.putMail { s.conn.mailbox with waiting := es }

end World

end Defs

namespace Scene

variable {s u : Scene} {e : Event}

/-! ### What the events touch -/

theorem hangUp_equippedAs (s u : Scene) : (s.equippedAs u).hangUp.2 = s.hangUp.2.equippedAs u := by
  have hsame : (s.equippedAs u).leg = s.leg := rfl
  unfold hangUp
  rw [hsame]
  cases s.leg <;> rfl

theorem disconnect_equippedAs (hopen : s.conn.closed = false)
    (hunarmed : s.conn.guard.armed = none) (cause : Cause) :
    (s.equippedAs u).disconnect cause = (s.disconnect cause).equippedAs u := by
  by_cases hended : s.conn.phase.isTerminal = true
  · rw [disconnect_terminal cause hended, disconnect_terminal (s := s.equippedAs u) cause hended]
  · have hgoing : s.conn.phase.isTerminal = false := by simpa using hended
    rw [disconnect_eq s cause hopen hgoing, disconnect_eq (s.equippedAs u) cause hopen hgoing,
      disarm_self hunarmed, disarm_self (s := s.equippedAs u) hunarmed, cue_player, cue_player]
    rfl

theorem clearWaiting_equippedAs (hopen : s.conn.closed = false)
    (hunarmed : s.conn.guard.armed = none) (cause : Cause) :
    (s.equippedAs u).clearWaiting cause = (s.clearWaiting cause).equippedAs u := by
  have hsame : (s.equippedAs u).leg = s.leg := rfl
  unfold clearWaiting
  rw [disarm_self hunarmed, disarm_self (s := s.equippedAs u) hunarmed]
  dsimp only
  rw [hsame]
  cases s.leg with
  | none => rfl
  | some leg =>
    show (s.equippedAs u).hangUp.2.disconnect cause = (s.hangUp.2.disconnect cause).equippedAs u
    rw [hangUp_equippedAs]
    exact disconnect_equippedAs (by rw [conn_hangUp, hopen]) (by rw [conn_hangUp, hunarmed]) cause

theorem onMissed_equippedAs (hopen : s.conn.closed = false) (generation : ℕ) :
    (s.equippedAs u).onMissed generation = (s.onMissed generation).equippedAs u := by
  have hsame : (s.equippedAs u).conn.guard = s.conn.guard := rfl
  unfold onMissed
  rw [hsame]
  rcases hexpire : s.conn.guard.expire generation with ⟨_ | _, guard⟩
  · rfl
  · exact clearWaiting_equippedAs (s := s.putGuard guard) hopen (expire_armed hexpire)
      .incomingMissed

theorem onLineControl_equippedAs (hnow : u.clock.now = s.clock.now) :
    (s.equippedAs u).onLineControl = s.onLineControl.equippedAs u := by
  have hsame : (s.equippedAs u).leg = s.leg := rfl
  have htime : (s.equippedAs u).clock.now = s.clock.now := hnow
  unfold onLineControl
  rw [hsame, htime]
  cases s.leg <;> rfl

/-- **What other events do** has nothing to do with the tones, the mailbox, the phone and the
timers. -/
theorem handle_equippedAs (he : e ≠ .burstConfirmed) (hnow : u.clock.now = s.clock.now) :
    (s.equippedAs u).handle e = (s.handle e).equippedAs u := by
  by_cases hclosed : s.conn.closed = true
  · unfold handle
    rw [if_pos hclosed, if_pos (show (s.equippedAs u).conn.closed = true from hclosed)]
  · have hopen : s.conn.closed = false := by simpa using hclosed
    unfold handle
    rw [if_neg hclosed, if_neg (show ¬(s.equippedAs u).conn.closed = true from hclosed)]
    cases e with
    | missed generation => exact onMissed_equippedAs hopen generation
    | burstConfirmed => exact absurd rfl he
    | lineControl => exact onLineControl_equippedAs hnow

/-- Other events keep what a confirmation depends on. -/
theorem handle_equipped (he : e ≠ .burstConfirmed) : s.handle e = (s.handle e).equippedAs s :=
  handle_equippedAs (s := s) (u := s) he rfl

theorem clock_handle (he : e ≠ .burstConfirmed) : (s.handle e).clock = s.clock :=
  congrArg (·.clock) (handle_equipped he)

theorem perform_of_some {phone : Phone} (hphone : s.phone = some phone) (a : Action) :
    s.perform a = { s with
      phone := some (phone.perform s.id a).2
      clock := match (phone.perform s.id a).1 with
        | none => s.clock
        | some delay => s.clock.start delay ⟨s.id, .burstConfirmed⟩ } := by
  unfold perform
  rw [hphone]
  dsimp only
  rcases phone.perform s.id a with ⟨_ | delay, phone'⟩ <;> rfl

theorem perform_equippedAs (hid : s.id = u.id) (a : Action) :
    (s.equippedAs u).perform a = s.equippedAs (u.perform a) := by
  cases hphone : u.phone with
  | none =>
    rw [perform_none hphone, perform_none (s := s.equippedAs u) hphone]
  | some phone =>
    have hs : (s.equippedAs u).phone = some phone := hphone
    rw [perform_of_some hphone, perform_of_some hs]
    cases s
    cases u
    cases hid
    rfl

/-- **What a confirmation does** depends on the tones, the phone and the clock only, and is done to
these only. -/
theorem onBurstConfirmed_equippedAs (hid : s.id = u.id) :
    (s.equippedAs u).onBurstConfirmed = s.equippedAs u.onBurstConfirmed := by
  have htones : (s.equippedAs u).conn.tones = u.conn.tones := rfl
  have hphone : (s.equippedAs u).phone = u.phone := rfl
  unfold onBurstConfirmed
  rw [htones, hphone]
  rcases u.conn.tones.confirmed u.phone.isSome with ⟨n, tones, _ | a⟩
  · rfl
  · exact perform_equippedAs (u := u.putTones tones) hid a

theorem handle_closed (hclosed : s.conn.closed = true) (e : Event) : s.handle e = s := by
  unfold handle
  rw [if_pos hclosed]

theorem handle_burst (hopen : s.conn.closed = false) :
    s.handle .burstConfirmed = s.onBurstConfirmed := by
  unfold handle
  rw [if_neg (by simp [hopen])]

/-- **A confirmation commutes with every other event.** -/
theorem handle_comm (s : Scene) (e : Event) :
    (s.handle .burstConfirmed).handle e = (s.handle e).handle .burstConfirmed := by
  by_cases he : e = .burstConfirmed
  · rw [he]
  by_cases hclosed : s.conn.closed = true
  · rw [handle_closed hclosed, handle_closed hclosed, handle_closed hclosed]
  have hopen : s.conn.closed = false := by simpa using hclosed
  have hopen' : (s.handle e).conn.closed = false := (undisturbed_handle s e).closed.trans hopen
  have hid : (s.handle e).id = s.id := act_id s (.handle e)
  have hnow : s.onBurstConfirmed.clock.now = s.clock.now := (Aside.onBurstConfirmed s).now
  have hfirst : s.onBurstConfirmed = s.equippedAs s.onBurstConfirmed :=
    onBurstConfirmed_equippedAs rfl
  calc (s.handle .burstConfirmed).handle e
      = (s.equippedAs s.onBurstConfirmed).handle e := by rw [handle_burst hopen, ← hfirst]
    _ = (s.handle e).equippedAs s.onBurstConfirmed := handle_equippedAs he hnow
    _ = ((s.handle e).equippedAs s).onBurstConfirmed :=
        (onBurstConfirmed_equippedAs hid).symm
    _ = (s.handle e).handle .burstConfirmed := by
        rw [← handle_equipped he, handle_burst hopen']

/-! ### Events in a row -/

/-- A confirmation may be handled before or after any number of events. -/
theorem handleAll_burst (es : List Event) (s : Scene) :
    (s.handle .burstConfirmed).handleAll es = (s.handleAll es).handle .burstConfirmed := by
  induction es generalizing s with
  | nil => rfl
  | cons e es ih =>
    calc (s.handle .burstConfirmed).handleAll (e :: es)
        = ((s.handle e).handle .burstConfirmed).handleAll es :=
          congrArg (·.handleAll es) (handle_comm s e)
      _ = (s.handleAll (e :: es)).handle .burstConfirmed := ih (s.handle e)

/-- All confirmations may be handled in the end. -/
theorem handleAll_eq (es : List Event) (s : Scene) :
    s.handleAll es = (s.handleAll (es.filter (· != .burstConfirmed))).handleAll
      (List.replicate (es.count .burstConfirmed) .burstConfirmed) := by
  induction es generalizing s with
  | nil => rfl
  | cons e es ih =>
    by_cases he : e = .burstConfirmed
    · subst he
      rw [List.count_cons_self, List.replicate_succ, List.filter_cons_of_neg (by simp)]
      show (s.handle .burstConfirmed).handleAll es = (Scene.handle _ .burstConfirmed).handleAll _
      rw [ih, handleAll_burst]
    · rw [List.count_cons_of_ne he, List.filter_cons_of_pos (by simpa using he)]
      exact ih (s.handle e)

/-- **The order among the other events is all that matters.** -/
theorem handleAll_arranged {es es' : List Event} (hperm : es.Perm es')
    (hothers : es.filter (· != .burstConfirmed) = es'.filter (· != .burstConfirmed)) (s : Scene) :
    s.handleAll es = s.handleAll es' := by
  rw [handleAll_eq es s, handleAll_eq es' s, hothers, hperm.count_eq]

theorem anchored_handleAll (es : List Event) (s : Scene) : Anchored s (s.handleAll es) := by
  induction es generalizing s with
  | nil => exact Anchored.refl s
  | cons e es ih => exact (anchored_handle s e).trans (ih (s.handle e))

/-! ### Events that wait -/

theorem perform_putMail (s : Scene) (m : Mailbox) (a : Action) :
    (s.putMail m).perform a = (s.perform a).putMail m := by
  cases hphone : s.phone with
  | none =>
    rw [perform_none hphone, perform_none (s := s.putMail m) hphone]
  | some phone =>
    rw [perform_of_some hphone, perform_of_some (s := s.putMail m) hphone]
    rfl

theorem onBurstConfirmed_putMail (s : Scene) (m : Mailbox) :
    (s.putMail m).onBurstConfirmed = s.onBurstConfirmed.putMail m := by
  have htones : (s.putMail m).conn.tones = s.conn.tones := rfl
  have hphone : (s.putMail m).phone = s.phone := rfl
  unfold onBurstConfirmed
  rw [htones, hphone]
  rcases s.conn.tones.confirmed s.phone.isSome with ⟨n, tones, _ | a⟩
  · rfl
  · exact perform_putMail (s.putTones tones) m a

/-- No event is handled differently because of what else waits. -/
theorem handle_putMail (s : Scene) (m : Mailbox) (e : Event) :
    (s.putMail m).handle e = (s.handle e).putMail m := by
  by_cases he : e = .burstConfirmed
  · subst he
    by_cases hclosed : s.conn.closed = true
    · rw [handle_closed hclosed, handle_closed (s := s.putMail m) hclosed]
    · have hopen : s.conn.closed = false := by simpa using hclosed
      rw [handle_burst hopen, handle_burst (s := s.putMail m) hopen, onBurstConfirmed_putMail]
  · calc (s.putMail m).handle e
        = (s.handle e).equippedAs (s.putMail m) := handle_equippedAs (u := s.putMail m) he rfl
      _ = ((s.handle e).equippedAs s).putMail m := rfl
      _ = (s.handle e).putMail m := by rw [← handle_equipped he]

theorem foldl_fetch_putMail (es : List Event) (s : Scene) (m : Mailbox) :
    es.foldl (fun s _ => s.fetch) (s.putMail { m with waiting := es }) =
      (s.handleAll es).putMail { m with waiting := [] } := by
  induction es generalizing s with
  | nil => rfl
  | cons e es ih =>
    have hfetch : (s.putMail { m with waiting := e :: es }).fetch =
        (s.handle e).putMail { m with waiting := es } :=
      handle_putMail s { m with waiting := es } e
    rw [List.foldl_cons, hfetch, ih]
    rfl

theorem drain_putMail (s : Scene) (m : Mailbox) (es : List Event) :
    (s.putMail { m with waiting := es }).drain.2 =
      (s.handleAll es).putMail { m with waiting := [] } := foldl_fetch_putMail es s m

theorem receive_burst (h : s.Idle) : (s.receive .burstConfirmed).2 =
    if s.conn.mailbox.accepts then
      if s.conn.driven then s.handle .burstConfirmed
      else s.putMail (s.conn.mailbox.post .burstConfirmed).2
    else s := by
  unfold receive
  by_cases haccepts : s.conn.mailbox.accepts = true
  · rw [if_pos haccepts, if_pos haccepts]
    show (if s.conn.driven then (s.putMail _).drain.2 else s.putMail _) = _
    by_cases hdriven : s.conn.driven = true
    · have hpost : (s.conn.mailbox.post .burstConfirmed).2 =
          { s.conn.mailbox with waiting := [.burstConfirmed] } := by
        unfold Mailbox.post
        rw [if_pos haccepts, h hdriven haccepts]
        rfl
      have hempty : { s.conn.mailbox with waiting := [] } =
          (s.handle .burstConfirmed).conn.mailbox := by
        rw [(undisturbed_handle s .burstConfirmed).mailbox, ← h hdriven haccepts]
      rw [if_pos hdriven, if_pos hdriven, hpost, drain_putMail, hempty]
      rfl
    · rw [if_neg hdriven, if_neg hdriven]
  · rw [if_neg haccepts, if_neg haccepts]

theorem Idle.handle (h : s.Idle) (e : Event) : (s.handle e).Idle := by
  unfold Idle
  rw [(undisturbed_handle s e).mailbox, (undisturbed_handle s e).driven]
  exact h

theorem receive_comm (h : s.Idle) (e : Event) :
    (s.receive .burstConfirmed).2.handle e = ((s.handle e).receive .burstConfirmed).2 := by
  rw [receive_burst h, receive_burst (h.handle e), (undisturbed_handle s e).mailbox,
    (undisturbed_handle s e).driven]
  split_ifs
  · exact handle_comm s e
  · exact handle_putMail s _ e
  · rfl

theorem Idle.receive (h : s.Idle) : (s.receive .burstConfirmed).2.Idle := by
  rw [receive_burst h]
  split_ifs with haccepts hdriven
  · exact h.handle .burstConfirmed
  · exact fun hdriven' => absurd hdriven' hdriven
  · exact h

theorem starts_receive (h : s.Idle) : Starts s (s.receive .burstConfirmed).2 := by
  rw [receive_burst h]
  split_ifs
  · exact starts_handle s _
  · exact .of_sub rfl fun _ ht => ht
  · exact .refl s

theorem now_handle (s : Scene) (e : Event) : (s.handle e).clock.now = s.clock.now := by
  by_cases he : e = .burstConfirmed
  · subst he
    unfold handle
    split_ifs
    · rfl
    · exact (Aside.onBurstConfirmed s).now
  · rw [clock_handle he]

theorem now_receive (h : s.Idle) : (s.receive .burstConfirmed).2.clock.now = s.clock.now := by
  rw [receive_burst h]
  split_ifs
  · exact now_handle s _
  · rfl
  · rfl

theorem anchored_receive (h : s.Idle) : Anchored s (s.receive .burstConfirmed).2 := by
  rw [receive_burst h]
  split_ifs
  · exact anchored_handle s _
  · exact ⟨rfl, rfl, rfl, rfl, rfl, rfl⟩
  · exact Anchored.refl s

end Scene

namespace World

open Scene

variable {w : World} {c : ConnId} {s : Scene} {e : Event}

/-! ### The clock -/

theorem Within.deliver_burst (h : Within w c s) :
    (w.deliver ⟨c, .burstConfirmed⟩).2 = w.putScene c (s.receive .burstConfirmed).2 := by
  show (w.inScene c false fun s => s.receive .burstConfirmed).2 = _
  rw [inScene_snd, onScene_of_within h]

/-- A confirmation that arrives may do so before or after another event. -/
theorem deliver_comm (h : Within w c s) (hidle : s.Idle) (e : Event) :
    ((w.deliver ⟨c, .burstConfirmed⟩).2).onScene c (·.handle e) =
      ((w.onScene c (·.handle e)).deliver ⟨c, .burstConfirmed⟩).2 := by
  have hfirst := anchored_handle s e
  have hreceive := anchored_receive hidle
  rw [h.deliver_burst, onScene_of_within (h.putScene hreceive), onScene_of_within h,
    (h.putScene hfirst).deliver_burst, h.putScene_putScene hreceive (anchored_handle _ e),
    h.putScene_putScene hfirst (anchored_receive (hidle.handle e)), receive_comm hidle e]

theorem onScene_clock (he : e ≠ .burstConfirmed) {clock : Clock Delivery}
    (hnow : clock.now = w.clock.now) :
    ({ w with clock } : World).onScene c (·.handle e) =
      { w.onScene c (·.handle e) with clock } := by
  rcases within_or_le w c with ⟨s, hin⟩ | hle
  · have hframe : ({ s with clock } : Scene).handle e = { s.handle e with clock } :=
      calc ({ s with clock } : Scene).handle e
          = (s.handle e).equippedAs { s with clock } :=
            handle_equippedAs (u := { s with clock }) he (by rw [hin.clock]; exact hnow)
        _ = { (s.handle e).equippedAs s with clock } := rfl
        _ = { s.handle e with clock } := by rw [← handle_equipped he]
    rw [onScene_of_within hin, onScene_of_within (hin.with_clock clock), hframe]
    rfl
  · rw [onScene_of_none hle, onScene_of_none (w := { w with clock }) hle]

theorem clock_onScene (he : e ≠ .burstConfirmed) :
    (w.onScene c (·.handle e)).clock = w.clock := by
  rcases within_or_le w c with ⟨s, hin⟩ | hle
  · rw [onScene_of_within hin, putScene_clock, clock_handle he, hin.clock]
  · rw [onScene_of_none hle]

theorem workload_handle (he : e ≠ .burstConfirmed) :
    (w.onScene c (·.handle e)).workload = w.workload := by
  rcases within_or_le w c with ⟨s, hin⟩ | hle
  · have hload : (s.handle e).load = s.load := by
      rw [handle_equipped he]
      rfl
    have hput := hin.workload (s.handle e)
    rw [onScene_of_within hin]
    omega
  · rw [onScene_of_none hle]

/-- What comes due next is a confirmation for connection `c`, at once. -/
theorem OnlyConfirms.next (h : w.OnlyConfirms c) {d : Delivery} {clock : Clock Delivery}
    (hn : w.clock.next? w.clock.now = some (d, clock)) :
    ∃ s, Within w c s ∧ s.Idle ∧ d = ⟨c, .burstConfirmed⟩ ∧ clock.now = w.clock.now ∧
      (({ w with clock } : World).deliver d).2.OnlyConfirms c ∧
      (({ w with clock } : World).deliver d).2.clock.now = w.clock.now := by
  obtain ⟨t, ht, hjob, hle, -, hclock⟩ := Clock.next?_eq_some hn
  obtain rfl : ⟨c, .burstConfirmed⟩ = d := (h.due t ht hle).symm.trans hjob
  have hnow : clock.now = w.clock.now := by
    rw [hclock]
    exact Nat.le_antisymm hle (h.orderly.clock.ahead t ht)
  have hlt : c < w.conns.length := by
    have htarget := h.orderly.targets t ht
    rwa [hjob] at htarget
  obtain ⟨s, hin, -⟩ := exists_within (List.getElem?_eq_getElem hlt)
  have hidle : s.Idle := h.idle s (scene?_eq_some_iff.2 hin)
  have hin' := hin.with_clock clock
  have hidle' : ({ s with clock } : Scene).Idle := hidle
  have hlater := (orderly_next h.orderly hn).1
  have hreceived := hin'.putScene (anchored_receive hidle')
  have hnow' : ({ s with clock } : Scene).receive .burstConfirmed |>.2.clock.now = w.clock.now :=
    (now_receive hidle').trans hnow
  refine ⟨s, hin, hidle, rfl, hnow, ⟨hlater, ?_, ?_⟩, ?_⟩
  · rw [hin'.deliver_burst, putScene_clock, hnow']
    intro u hu hdue
    rcases (starts_receive hidle').fresh u hu with hu | hu
    · have hu' : u ∈ clock.pending := hu
      rw [hclock] at hu'
      exact h.due u (Clock.mem_cancel.1 hu').1 hdue
    · rwa [show ({ s with clock } : Scene).id = c from hin.id] at hu
  · intro u hu
    rw [hin'.deliver_burst, scene?_eq_some_iff.2 hreceived] at hu
    exact Option.some.inj hu ▸ hidle'.receive
  · rw [hin'.deliver_burst, putScene_clock, hnow']

/-- **What is ready may run before or after another event.** -/
theorem runTimers_comm (he : e ≠ .burstConfirmed) (fuel : ℕ) (h : w.OnlyConfirms c) :
    (runTimers w.clock.now fuel w).onScene c (·.handle e) =
      runTimers w.clock.now fuel (w.onScene c (·.handle e)) := by
  induction fuel generalizing w with
  | zero =>
    show w.onScene c (·.handle e) = { w.onScene c (·.handle e) with
      clock := { (w.onScene c (·.handle e)).clock with now := w.clock.now } }
    rw [clock_onScene he]
    exact onScene_clock he rfl
  | succ fuel ih =>
    unfold runTimers
    rw [clock_onScene he]
    rcases hn : w.clock.next? w.clock.now with _ | ⟨d, clock⟩
    · exact onScene_clock he rfl
    · obtain ⟨s, hin, hidle, rfl, hnow, hnext, hnow'⟩ := h.next hn
      have hlater := ih hnext
      rw [hnow'] at hlater
      dsimp only
      rw [hlater, deliver_comm (hin.with_clock clock) hidle, onScene_clock he hnow]

theorem settle_comm (he : e ≠ .burstConfirmed) (h : w.OnlyConfirms c) :
    w.settle.onScene c (·.handle e) = (w.onScene c (·.handle e)).settle := by
  have hsettle (v : World) : v.settle = runTimers v.clock.now v.workload v := rfl
  rw [hsettle, hsettle, runTimers_comm he _ h, clock_onScene he, workload_handle he]

/-! ### Sessions -/

/-- When a connection of a session has handled a confirmation, nothing but the next one is ready. -/
theorem Reachable.onlyConfirms (h : w.Reachable) (c : ConnId) :
    (w.onScene c (·.handle .burstConfirmed)).OnlyConfirms c := by
  rcases within_or_le w c with ⟨s, hin⟩ | hle
  · have hput : w.onScene c (·.handle .burstConfirmed) =
        w.putScene c (s.handle .burstConfirmed) := onScene_of_within hin _
    refine ⟨h.orderly.deed c (.handle .burstConfirmed), ?_, ?_⟩
    · rw [hput, putScene_clock, now_handle, hin.clock]
      intro t ht hdue
      rcases (starts_handle s _).fresh t ht with ht | ht
      · exact absurd hdue (Nat.not_le.2 (h.due t (hin.clock ▸ ht)))
      · rwa [hin.id] at ht
    · intro u hu
      rw [hput, scene?_eq_some_iff.2 (hin.putScene (anchored_handle s _))] at hu
      rw [← Option.some.inj hu]
      refine Idle.handle (fun hdriven haccepts => ?_) _
      have haccepts' : s.conn.mailbox.shutDown = false ∧ s.conn.mailbox.receiverGone = false := by
        simpa [Mailbox.accepts] using haccepts
      have hopen : s.conn.closed = false :=
        (h.orderly.shut _ (List.mem_of_getElem? hin.conn)).symm.trans haccepts'.1
      exact h.caughtUp c s.conn hin.conn ⟨hdriven, hopen, haccepts'.2⟩
  · rw [onScene_of_none hle]
    refine ⟨h.orderly, fun t ht hdue => absurd hdue (Nat.not_le.2 (h.due t ht)), fun s hs => ?_⟩
    rw [scene?_eq_none_iff.2 hle] at hs
    cases hs

theorem Reachable.step_handle (h : w.Reachable) (he : e ≠ .burstConfirmed) (c : ConnId) :
    w.step (.handle c e) = (.done, w.onScene c (·.handle e)) := by
  show (Reply.done, (w.onScene c (·.handle e)).settle) = _
  rw [settle_of_due fun t ht => ?_]
  rw [clock_onScene he] at ht ⊢
  exact h.due t ht

theorem run_pair (w : World) (op op' : Op) : w.run [op, op'] =
    ([(w.step op).1, ((w.step op).2.step op').1], ((w.step op).2.step op').2) := rfl

theorem perform_comm (w : World) (c : ConnId) (e : Event) :
    ((w.perform (.handle c .burstConfirmed)).2.perform (.handle c e)).2 =
      ((w.perform (.handle c e)).2.perform (.handle c .burstConfirmed)).2 := by
  show (w.onScene c (·.handle .burstConfirmed)).onScene c (·.handle e) =
    (w.onScene c (·.handle e)).onScene c (·.handle .burstConfirmed)
  rw [onScene_onScene w c (fun s => anchored_handle s _) (fun s => anchored_handle s _),
    onScene_onScene w c (fun s => anchored_handle s _) (fun s => anchored_handle s _)]
  exact congrArg (w.onScene c) (funext fun s => handle_comm s e)

theorem Reachable.run_comm (h : w.Reachable) (c : ConnId) (e : Event) :
    w.run [.handle c .burstConfirmed, .handle c e] =
      w.run [.handle c e, .handle c .burstConfirmed] := by
  by_cases he : e = .burstConfirmed
  · rw [he]
  have hburst (v : World) : v.step (.handle c .burstConfirmed) =
      (.done, (v.onScene c (·.handle .burstConfirmed)).settle) := rfl
  have hlater : (w.onScene c (·.handle .burstConfirmed)).settle.Reachable :=
    h.step (.handle c .burstConfirmed)
  have hswap : (w.onScene c (·.handle .burstConfirmed)).onScene c (·.handle e) =
      (w.onScene c (·.handle e)).onScene c (·.handle .burstConfirmed) := perform_comm w c e
  calc w.run [.handle c .burstConfirmed, .handle c e]
      = ([.done, .done],
          (w.onScene c (·.handle .burstConfirmed)).settle.onScene c (·.handle e)) := by
        rw [run_pair, hburst, hlater.step_handle he]
    _ = ([.done, .done],
          ((w.onScene c (·.handle e)).onScene c (·.handle .burstConfirmed)).settle) := by
        rw [settle_comm he (h.onlyConfirms c), hswap]
    _ = w.run [.handle c e, .handle c .burstConfirmed] := by
        rw [run_pair, h.step_handle he, hburst]

theorem drain_arranged (w : World) (c : ConnId) {es es' : List Event} (hperm : es.Perm es')
    (hothers : es.filter (· != .burstConfirmed) = es'.filter (· != .burstConfirmed)) :
    ((w.enqueue c es).step (.drain c)).2 = ((w.enqueue c es').step (.drain c)).2 := by
  have hdrain (es : List Event) : ((w.enqueue c es).perform (.drain c)).2 =
      w.onScene c fun s => (s.handleAll es).putMail { s.conn.mailbox with waiting := [] } := by
    show ((w.enqueue c es).inScene c [] Scene.drain).2 = _
    rw [inScene_snd, enqueue]
    rcases within_or_le w c with ⟨s, hin⟩ | hle
    · have hmail (u : Scene) (m : Mailbox) : Anchored u (u.putMail m) :=
        ⟨rfl, rfl, rfl, rfl, rfl, rfl⟩
      have hdrained := drain_putMail s s.conn.mailbox es
      have hanchored : Anchored (s.putMail { s.conn.mailbox with waiting := es })
          (s.putMail { s.conn.mailbox with waiting := es }).drain.2 := by
        rw [hdrained]
        exact (hmail (s.putMail _) s.conn.mailbox).trans
          ((anchored_handleAll es s).trans (hmail _ _))
      rw [onScene_of_within hin, onScene_of_within (hin.putScene (hmail s _)),
        hin.putScene_putScene (hmail s _) hanchored, onScene_of_within hin, hdrained]
    · rw [onScene_of_none hle, onScene_of_none hle, onScene_of_none hle]
  show ((w.enqueue c es).perform (.drain c)).2.settle =
    ((w.enqueue c es').perform (.drain c)).2.settle
  rw [hdrain, hdrain]
  congr 2
  funext s
  rw [handleAll_arranged hperm hothers]

/-- **Confirmations commute with other events.** In a session, a connection that handles the
confirmation of a burst and another event leaves the world the same in either order: its own state,
its leg, what the phone was asked, the cue, the timers and what was told. That is so if it handles
them one right after the other, if what each makes ready runs first, and if it takes them from its
mailbox, where confirmations may stand anywhere among the other events. -/
theorem confirmations_commute (hw : w.Reachable) (c : ConnId) (e : Event) :
    ((w.perform (.handle c .burstConfirmed)).2.perform (.handle c e)).2 =
        ((w.perform (.handle c e)).2.perform (.handle c .burstConfirmed)).2 ∧
      w.run [.handle c .burstConfirmed, .handle c e] =
        w.run [.handle c e, .handle c .burstConfirmed] ∧
      ∀ es es' : List Event, es.Perm es' →
        es.filter (· != .burstConfirmed) = es'.filter (· != .burstConfirmed) →
        ((w.enqueue c es).step (.drain c)).2 = ((w.enqueue c es').step (.drain c)).2 :=
  ⟨perform_comm w c e, hw.run_comm c e, fun _ _ hperm hothers => drain_arranged w c hperm hothers⟩

/-- A waiting call is missed while a burst is outstanding and a digit waits behind it. -/
theorem confirmations_commute_served :
    let w := ((served (Leg.waiting "5550100" (some 0))).run
      [.connect (some 0) { direction := .incoming }, .play 0 '1', .play 0 '2']).2
    let v := (w.run [.handle 0 (.missed 1), .handle 0 .burstConfirmed]).2
    w.Reachable ∧ (w.run [.handle 0 .burstConfirmed, .handle 0 (.missed 1)]).2 = v ∧
      v.attempts 0 = 1 ∧ v.conns[0]?.map (·.phase) = some .disconnected ∧
      v.phones.map (·.actions.length) = [3] ∧
      ((w.enqueue 0 [.burstConfirmed, .missed 1, .lineControl]).step (.drain 0)).2 =
        ((w.enqueue 0 [.missed 1, .lineControl, .burstConfirmed]).step (.drain 0)).2 := by
  intro w v
  have hreachable : w.Reachable := ⟨_, _, fresh_served _, rfl⟩
  obtain ⟨-, hrun, hdrain⟩ := confirmations_commute hreachable 0 (.missed 1)
  exact ⟨hreachable, congrArg Prod.snd hrun, by decide +kernel, by decide +kernel,
    by decide +kernel, hdrain _ _ (by decide) (by decide)⟩

end World

end CdmaCall
