import CdmaCall.Proofs.Dtmf.Calm
import CdmaCall.Proofs.Dtmf.WaitLoop
import CdmaCall.Proofs.Lifecycle.Snapshots

/-!
# Tones drain

When nobody asks a connection for tones any more, and the phones that serve it confirm by
themselves, its tones drain: one confirmation at most finds digits waiting, and sends them all as
one burst, or drops them where there is no phone; the next one finds nothing and is the last
(`Drains`). All of it is over after twice the time that the slowest phone takes. Letting the timers
come due ends in any case (`Terminates`), and so does the wait of `Scenario.burstDtmf`. The three
together are `tones_drain`.
-/

namespace CdmaCall

section Defs

namespace Scene

/-- What a confirmation makes of a scene. -/
inductive Answered (s s' : Scene) : Prop
  /-- Nothing waits, or nobody could send it. -/
  | finished (hqueue : s.conn.tones.queue = [] ∨ s.phone = none) (hasks : s.Asks s' [])
      (hempty : s'.conn.tones.queue = []) (hidle : s'.conn.tones.pending = false)
  /-- What waits goes out, and a timer is to confirm it. -/
  | flushed (on off delay : ℕ) (t : Timer Delivery) (hqueue : s.conn.tones.queue ≠ [])
      (hphone : s.phone.isSome = true) (hasks : s.Asks s' [.burst s.conn.tones.queue on off])
      (hempty : s'.conn.tones.queue = []) (hbusy : s'.conn.tones.pending = true)
      (hdelay : s.phone.map (·.confirmDelay) = some (some delay)) (ht : t ∈ s'.clock.pending)
      (hjob : t.job = ⟨s.id, .burstConfirmed⟩) (hdue : t.due = s.clock.now + Clock.bounded delay)

end Scene

namespace World

/-- However far the clock is set, all that comes due by then does, with any fuel that is no less
than the workload, and nothing that is due is left. -/
def Terminates (w : World) : Prop := ∀ limit fuel, w.clock.now ≤ limit → w.workload ≤ fuel →
  runTimers limit fuel w = w.advanceTo limit ∧ (w.advanceTo limit).clock.now = limit ∧
    ∀ t ∈ (w.advanceTo limit).clock.pending, limit < t.due

/-- The time that the slowest of the phones takes to confirm a burst by itself. -/
def slowest (w : World) : ℕ := (w.delays.map (·.getD 0)).max?.getD 0

/-- No confirmation for connection `c` is left to be asked for, in this world and in whatever the
requests `ops` make of it. -/
structure Unasked (w : World) (c : ConnId) (ops : List Op) : Prop where
  held : w.heldFor c = 0
  phone : ∀ m ∈ w.story ops, m.before.SelfConfirms c

/-- An outstanding burst of connection `c` is confirmed by `last`, or by `first` if digits wait for
that. -/
structure Draining (w : World) (c : ConnId) (first last : ℕ) : Prop where
  awaited : w.queueOf c ≠ [] → w.busy c = true
  expected : w.busy c = true → w.Expects c (if w.queueOf c = [] then last else first)

end World

namespace Moment

/-- Whether connection `c` handles the confirmation of a burst that is outstanding. -/
def settles (c : ConnId) (m : Moment) : Bool := m.confirms c && m.before.busy c

/-- What connection `c` does when a burst is confirmed while `digits` wait. The last argument tells
whether it sends another one. -/
inductive Answers (c : ConnId) (m : Moment) : List Char → Bool → Prop
  /-- All that waits goes out as one burst. -/
  | flush {digits : List Char} (p : PhoneId) (on off : ℕ) (hdigits : digits ≠ [])
      (hphone : m.before.phoneAt c = some p)
      (hasks : m.before.newActions m.after = [(p, .burst digits on off)]) : Answers c m digits true
  /-- There is no phone to send it. -/
  | drop {digits : List Char} (hdigits : digits ≠ [])
      (hphone : (m.before.phoneAt c).bind (m.before.phones[·]?) = none)
      (hasks : m.before.newActions m.after = []) : Answers c m digits false
  /-- Nothing waits. -/
  | rest (hasks : m.before.newActions m.after = []) : Answers c m [] false

end Moment

/-- **The tones of connection `c` drain.** `Drains c digits busy ms digits' busy'`: at the moments
`ms` a burst was confirmed, one after the other. Before them `digits` waited and a burst was
outstanding if `busy` says so, after them `digits'` and `busy'`. -/
inductive Drains (c : ConnId) : List Char → Bool → List Moment → List Char → Bool → Prop
  | done (digits : List Char) (busy : Bool) : Drains c digits busy [] digits busy
  | next {digits digits' : List Char} {busy busy' : Bool} {m : Moment} {ms : List Moment}
      (hqueue : m.before.queueOf c = digits) (hanswers : m.Answers c digits busy)
      (hempty : m.after.queueOf c = []) (hbusy : m.after.busy c = busy)
      (hrest : Drains c [] busy ms digits' busy') : Drains c digits true (m :: ms) digits' busy'

/-- From the world `w` to `v`, through the moments `ms`, the tones of connection `c` drain. -/
def World.DrainsTo (w : World) (c : ConnId) (ms : List Moment) (v : World) : Prop :=
  Drains c (w.queueOf c) (w.busy c) (ms.filter (·.settles c)) (v.queueOf c) (v.busy c)

end Defs

namespace Scene

variable {s : Scene} {d : Deed} {t : Timer Delivery}

/-! ### Confirmations -/

section Confirming

/-- Whoever handles a confirmation, it comes down to the same. -/
theorem act_confirmation (hopen : s.conn.closed = false)
    (he : s.event? d = some .burstConfirmed) :
    ∃ mailbox, s.act d = (s.putMail mailbox).onBurstConfirmed := by
  have hhandle (mailbox : Mailbox) : (s.putMail mailbox).handle .burstConfirmed =
      (s.putMail mailbox).onBurstConfirmed := by
    unfold handle
    rw [if_neg (by simp [putMail, hopen])]
  cases d with
  | handle e =>
    obtain rfl := Option.some.inj he
    exact ⟨s.conn.mailbox, hhandle s.conn.mailbox⟩
  | fetch =>
    obtain ⟨rest, hw⟩ := List.head?_eq_some_iff.1 he
    refine ⟨{ s.conn.mailbox with waiting := rest }, ?_⟩
    rw [act, fetch, hw]
    exact hhandle _
  | _ => cases he

/-- **A confirmation empties the queue**, and is followed by another one only if it sent it. -/
theorem answered_act (hself : s.SelfConfirming) (hopen : s.conn.closed = false)
    (he : s.event? d = some .burstConfirmed) : s.Answered (s.act d) := by
  obtain ⟨mailbox, hact⟩ := act_confirmation hopen he
  have hquiet (tones : Transmitter) : s.Asks ((s.putMail mailbox).putTones tones) [] :=
    ⟨rfl, by simp [putMail, putTones], by simp, rfl⟩
  rw [hact]
  rcases onBurstConfirmed_cases (s.putMail mailbox) with ⟨hnone, h⟩ | ⟨hqueue, hphone, h⟩
  · have hdropped : s.conn.tones.queue = [] ∨ s.phone = none := by
      refine hnone.imp_right fun hphone => ?_
      exact Option.not_isSome_iff_eq_none.1 (Bool.eq_false_iff.1 hphone)
    rw [h]
    exact .finished hdropped (hquiet _) rfl rfl
  · obtain ⟨p, hp⟩ := Option.isSome_iff_exists.1 hphone
    have hsphone : s.phone = some p := hp
    obtain ⟨delay, hdelay⟩ : ∃ delay, p.confirmDelay = some delay := by
      rw [← Option.ne_none_iff_exists']
      intro hnone
      exact hself (by rw [hsphone, Option.map_some, hnone])
    set u := (s.putMail mailbox).putTones (s.putMail mailbox).conn.tones.discard.2
    have hasks := (hquiet { u.conn.tones with pending := true }).trans
      (asks_perform _ (u.conn.tones.burstOf s.conn.tones.queue) hphone)
    have hburst := perform_burst_delayed (u.putTones { u.conn.tones with pending := true })
      u.conn.tones s.conn.tones.queue hp hdelay
    have hconn := tones_perform (u.putTones { u.conn.tones with pending := true })
      (u.conn.tones.burstOf s.conn.tones.queue)
    rw [h]
    refine .flushed u.conn.tones.onLength u.conn.tones.offLength delay
      ⟨s.clock.nextId, s.clock.now + Clock.bounded delay, ⟨s.id, .burstConfirmed⟩⟩ hqueue hphone
      hasks (congrArg Transmitter.queue hconn) (congrArg Transmitter.pending hconn)
      (by rw [hsphone, Option.map_some, hdelay]) ?_ rfl rfl
    refine (congrArg (_ ∈ ·.clock.pending) hburst).mpr ?_
    exact List.mem_append_right _ (List.mem_singleton_self _)

end Confirming

end Scene

/-! ### One confirmation after the other -/

namespace Drains

variable {c : ConnId} {digits digits' digits'' : List Char} {busy busy' busy'' : Bool}
  {ms ms' : List Moment}

theorem trans (h : Drains c digits busy ms digits' busy')
    (h' : Drains c digits' busy' ms' digits'' busy'') :
    Drains c digits busy (ms ++ ms') digits'' busy'' := by
  induction h with
  | done => exact h'
  | next hqueue hanswers hempty hbusy _ ih => exact .next hqueue hanswers hempty hbusy (ih h')

/-- **Two confirmations at most**: the first may find digits, the next one does not. -/
theorem length_le (h : Drains c digits busy ms digits' busy') :
    ms.length ≤ if busy then (if digits = [] then 1 else 2) else 0 := by
  induction h with
  | done => exact Nat.zero_le _
  | next _ hanswers _ _ _ ih =>
    cases hanswers with
    | flush p on off hdigits => simpa [hdigits] using ih
    | drop hdigits => simpa [hdigits] using ih.trans (Nat.zero_le 1)
    | rest => simpa using ih

theorem length_le_two (h : Drains c digits busy ms digits' busy') : ms.length ≤ 2 := by
  have hle := h.length_le
  split_ifs at hle <;> omega

end Drains

theorem World.DrainsTo.trans {w v u : World} {c : ConnId} {ms ms' : List Moment}
    (h : w.DrainsTo c ms v) (h' : v.DrainsTo c ms' u) : w.DrainsTo c (ms ++ ms') u := by
  unfold World.DrainsTo
  rw [List.filter_append]
  exact Drains.trans h h'

namespace World

open Scene

variable {w start : World} {c : ConnId} {s : Scene} {d : Deed} {x : Happening} {m : Moment}
  {hs : List Happening} {ops : List Op} {first last limit delay : ℕ} {t : Timer Delivery}

/-! ### One moment -/

section Moments

theorem Within.newActions_singleton (h : Within w c s) {s' : Scene} {a : Action} {p : PhoneId}
    (hasks : s.Asks s' [a]) (hp : w.phoneAt c = some p) :
    w.newActions (w.putScene c s') = [(p, a)] := by
  have hlength := h.countP_newActions hasks fun _ => true
  obtain ⟨b, hb⟩ := List.length_eq_one_iff.1 (by simpa using hlength)
  have hmem := (h.mem_newActions hasks).2 ⟨hp, List.mem_singleton_self a⟩
  rw [hb] at hmem ⊢
  rw [List.mem_singleton.1 hmem]

theorem Within.newActions_nil (h : Within w c s) {s' : Scene} (hasks : s.Asks s' []) :
    w.newActions (w.putScene c s') = [] := by
  have hlength := h.countP_newActions hasks fun _ => true
  exact List.eq_nil_of_length_eq_zero (by simpa using hlength)

theorem drainsTo_still (hqueue : (w.happen x).queueOf c = w.queueOf c)
    (hbusy : (w.happen x).busy c = w.busy c) (hsettles : Moment.settles c ⟨w, x⟩ = false) :
    w.DrainsTo c [⟨w, x⟩] (w.happen x) := by
  unfold DrainsTo
  rw [hqueue, hbusy, List.filter_cons_of_neg (by simp [hsettles])]
  exact .done _ _

theorem drainsTo_settled {again : Bool} (hbusy : w.busy c = true)
    (hconfirms : Moment.confirms c ⟨w, x⟩ = true)
    (hanswers : Moment.Answers c ⟨w, x⟩ (w.queueOf c) again)
    (hempty : (w.happen x).queueOf c = []) (hagain : (w.happen x).busy c = again) :
    w.DrainsTo c [⟨w, x⟩] (w.happen x) := by
  have hsettles : Moment.settles c ⟨w, x⟩ = true := by simp [Moment.settles, hconfirms, hbusy]
  unfold DrainsTo
  rw [hbusy, hempty, hagain, List.filter_cons_of_pos hsettles]
  exact .next rfl hanswers hempty hagain (.done [] again)

/-- **Where no confirmation is handled** the tones stay as they are. -/
theorem Draining.still (h : w.Draining c first last) (hm : Moment.Calm c delay ⟨w, x⟩)
    (hconfirms : Moment.confirms c ⟨w, x⟩ = false) :
    (w.happen x).Draining c first last ∧ w.DrainsTo c [⟨w, x⟩] (w.happen x) := by
  obtain ⟨hqueue, hbusy⟩ := tones_happen hm hconfirms
  refine ⟨⟨?_, fun hb => ?_⟩, drainsTo_still hqueue hbusy (by simp [Moment.settles, hconfirms])⟩
  · rw [hqueue, hbusy]
    exact h.awaited
  · rw [hqueue]
    exact (h.expected (hbusy ▸ hb)).happen hm hconfirms

/-- **Where a confirmation is handled** the queue is emptied, and if it was sent the next
confirmation is on the clock. -/
theorem Draining.confirm (h : w.Draining c first last) (hin : Within w c s)
    (hm : Moment.Calm c delay ⟨w, .deed c d⟩) (he : s.event? d = some .burstConfirmed)
    (hlast : first + delay ≤ last) :
    (w.happen (.deed c d)).Draining c first last ∧
      w.DrainsTo c [⟨w, .deed c d⟩] (w.happen (.deed c d)) := by
  have hconfirms : Moment.confirms c ⟨w, .deed c d⟩ = true := by rw [hin.confirms, he]; rfl
  have hqueue := hin.queueOf_deed d
  have hbusy := hin.busy_deed d
  have hafter : Moment.after ⟨w, .deed c d⟩ = w.putScene c (s.act d) := hin.happen_deed d
  have hserves : (w.phoneAt c).bind (w.phones[·]?) = s.phone := by rw [hin.phoneAt, hin.phone]
  have hopen : s.conn.closed = false := (hin.attended.1 hm.attended).opened
  cases answered_act (hin.selfConfirming hm.phone) hopen he with
  | finished hnone hasks hempty hidle =>
    have hnew : w.newActions (Moment.after ⟨w, .deed c d⟩) = [] := hafter ▸ hin.newActions_nil hasks
    rw [hempty] at hqueue
    rw [hidle] at hbusy
    refine ⟨⟨fun hne => absurd hqueue hne, fun hb => by cases hbusy.symm.trans hb⟩, ?_⟩
    by_cases hpending : w.busy c = true
    · refine drainsTo_settled hpending hconfirms ?_ hqueue hbusy
      by_cases hwaits : w.queueOf c = []
      · exact hwaits ▸ .rest hnew
      · exact .drop hwaits (hserves.trans (hnone.resolve_left (hin.queueOf ▸ hwaits))) hnew
    · have hwaits : w.queueOf c = [] := by
        by_contra hne
        exact hpending (h.awaited hne)
      exact drainsTo_still (hqueue.trans hwaits.symm)
        (hbusy.trans (Bool.eq_false_iff.2 hpending).symm) (by simp [Moment.settles, hpending])
  | flushed on off delay' t hne hphone hasks hempty hpending hdelay ht hjob hdue =>
    have hwaits : w.queueOf c ≠ [] := hin.queueOf ▸ hne
    have hnow : w.clock.now ≤ first := by
      have hexpects := h.expected (h.awaited hwaits)
      rw [if_neg hwaits] at hexpects
      exact hexpects.now_le hm.orderly
    obtain ⟨phone, hsphone⟩ := Option.isSome_iff_exists.1 hphone
    obtain ⟨p, hp, -⟩ := Option.bind_eq_some_iff.1 (hserves.trans hsphone)
    have hnew : w.newActions (Moment.after ⟨w, .deed c d⟩) = [(p, .burst (w.queueOf c) on off)] := by
      rw [hafter, hin.queueOf]
      exact hin.newActions_singleton hasks hp
    rw [hempty] at hqueue
    rw [hpending] at hbusy
    refine ⟨⟨fun hne => absurd hqueue hne, fun _ => .inl ⟨t, ?_, hin.id ▸ hjob, ?_⟩⟩,
      drainsTo_settled (h.awaited hwaits) hconfirms (.flush p on off hwaits hp hnew) hqueue hbusy⟩
    · rwa [hin.happen_deed, putScene_clock]
    · have hle : Clock.bounded delay' ≤ delay :=
        (Nat.min_le_left _ _).trans (hm.within delay' (hin.mem_delays hdelay))
      rw [if_pos hqueue, hdue, hin.clock]
      omega

/-- **One moment.** -/
theorem Draining.happen (h : w.Draining c first last) (hm : Moment.Calm c delay ⟨w, x⟩)
    (hlast : first + delay ≤ last) :
    (w.happen x).Draining c first last ∧ w.DrainsTo c [⟨w, x⟩] (w.happen x) := by
  cases hconfirms : Moment.confirms c ⟨w, x⟩ with
  | false => exact h.still hm hconfirms
  | true =>
    obtain ⟨s, d, hin, rfl, he⟩ := confirms_inv hm.attended hconfirms
    exact h.confirm hin hm he hlast

/-- **One moment after the other.** -/
theorem Draining.after (h : w.Draining c first last) (hcalm : ∀ m ∈ w.moments hs, m.Calm c delay)
    (hlast : first + delay ≤ last) :
    (w.after hs).Draining c first last ∧ (∀ m ∈ w.moments hs, m.before.Draining c first last) ∧
      w.DrainsTo c (w.moments hs) (w.after hs) := by
  induction hs generalizing w with
  | nil => exact ⟨h, fun m hm => absurd hm List.not_mem_nil, .done _ _⟩
  | cons x hs ih =>
    obtain ⟨hnext, hdrains⟩ := h.happen (hcalm _ (List.mem_cons_self ..)) hlast
    obtain ⟨hend, hall, hrest⟩ := ih hnext fun m hm => hcalm m (List.mem_cons_of_mem _ hm)
    refine ⟨hend, fun m hm => ?_, hdrains.trans hrest⟩
    rcases List.mem_cons.1 hm with rfl | hm
    · exact h
    · exact hall m hm

/-- **A confirmation that nobody waits for** is followed by nothing. -/
theorem Draining.idle (h : m.before.Draining c first last) (hm : m.Calm c delay)
    (hconfirms : m.confirms c = true) (hidle : m.before.busy c = false) :
    m.before.queueOf c = [] ∧ m.Answers c [] false := by
  have hqueue : m.before.queueOf c = [] := by
    by_contra hne
    cases hidle.symm.trans (h.awaited hne)
  refine ⟨hqueue, ?_⟩
  obtain ⟨s, d, hin, hwhat, he⟩ := confirms_inv hm.attended hconfirms
  have hopen : s.conn.closed = false := (hin.attended.1 hm.attended).opened
  cases answered_act (hin.selfConfirming hm.phone) hopen he with
  | finished _ hasks =>
    have hafter : m.after = m.before.putScene c (s.act d) := by
      rw [Moment.after, hwhat, hin.happen_deed]
    exact .rest (hafter ▸ hin.newActions_nil hasks)
  | flushed _ _ _ _ hne => exact absurd (hin.queueOf.symm.trans hqueue) hne

end Moments

/-! ### Sessions -/

section Sessions

theorem Reachable.awaited (hw : w.Reachable) (hqueue : w.queueOf c ≠ []) : w.busy c = true := by
  obtain ⟨start, ops, hfresh, rfl⟩ := hw
  rcases hk : (start.run ops).2.conns[c]? with _ | k
  · simp [World.queueOf, hk] at hqueue
  · have hawaited : k.Awaited := awaited_during hfresh ops _ (by rwa [during_length])
    rw [World.busy, hk]
    exact hawaited (by simpa [World.queueOf, hk] using hqueue)

/-- **Before the draining.** In a session in which the phones confirm by themselves each outstanding
burst is confirmed in time. -/
theorem Reachable.draining (hw : w.Reachable) (hatt : w.Attended c) (hheld : w.heldFor c = 0)
    (hwithin : w.ConfirmsWithin delay) :
    w.Draining c (w.clock.now + delay) (w.clock.now + 2 * delay) := by
  refine ⟨hw.awaited, fun hbusy => ?_⟩
  obtain ⟨t, ht, hjob⟩ := exists_running hw.backed hatt hw.caughtUp hheld hbusy
  have hdue : t.due ≤ w.clock.now + delay := hw.soon hwithin t ht (by rw [hjob])
  refine .inl ⟨t, ht, hjob, ?_⟩
  split_ifs <;> omega

/-- **After it** nothing waits and nothing is outstanding. -/
theorem Draining.finished (h : w.Draining c first last) (hw : w.Reachable) (hatt : w.Attended c)
    (hfirst : first ≤ last) (hlast : last ≤ w.clock.now) :
    w.queueOf c = [] ∧ w.busy c = false := by
  have hidle : w.busy c = false := by
    rw [Bool.eq_false_iff]
    intro hbusy
    have hlimit : (if w.queueOf c = [] then last else first) ≤ w.clock.now := by
      split_ifs <;> omega
    rcases h.expected hbusy with ⟨t, ht, -, hdue⟩ | ⟨hwaits, -⟩
    · have hahead := hw.due t ht
      omega
    · obtain ⟨k, hk, hatt⟩ := hatt
      simp [World.waiting, hk, hw.caughtUp c k hk hatt] at hwaits
  refine ⟨?_, hidle⟩
  by_contra hne
  cases hidle.symm.trans (h.awaited hne)

/-- A confirmation that waits for an attended connection is that of an outstanding burst, if none is
made up. -/
theorem Balanced.busy (hb : w.Balanced) (hatt : w.Attended c)
    (hwaits : .burstConfirmed ∈ w.waiting c) : w.busy c = true := by
  obtain ⟨k, hk, hatt⟩ := hatt
  have hcount := hb c k hk hatt.opened hatt.received
  have hmem : .burstConfirmed ∈ k.mailbox.waiting := by simpa [World.waiting, hk] using hwaits
  have hpos := List.count_pos_iff.2 hmem
  rw [World.busy, hk, Option.map_some, Option.getD_some]
  by_contra hidle
  rw [if_neg hidle] at hcount
  omega

/-- **No confirmation is handled in vain** where none is made up. -/
theorem settles_of_confirms (hb : m.before.Balanced) (hatt : m.before.Attended c)
    (hgenuine : m.what.Genuine) : m.confirms c = m.settles c := by
  unfold Moment.settles
  cases hconfirms : m.confirms c with
  | false => rfl
  | true =>
    have hwaits : .burstConfirmed ∈ m.before.waiting c := by
      obtain ⟨s, d, hin, hwhat, he⟩ := confirms_inv hatt hconfirms
      rw [hin.waiting]
      cases d with
      | handle e =>
        rw [hwhat] at hgenuine
        exact absurd (congrArg Deed.handle (Option.some.inj he)) hgenuine.1
      | fetch => exact List.mem_of_mem_head? he
      | _ => cases he
    rw [hb.busy hatt hwaits]
    rfl

theorem Orderly.terminates (hw : w.Orderly) : w.Terminates := by
  intro limit fuel hnow hfuel
  refine ⟨?_, due_timers hw le_rfl hnow⟩
  rw [advanceTo, runTimers_eq, runTimers_eq, timerCourse_fuel hw hfuel le_rfl]

theorem confirmsWithin_slowest (w : World) : w.ConfirmsWithin w.slowest :=
  fun _ hdelay => List.le_max?_getD_of_mem (List.mem_map_of_mem (f := (·.getD 0)) hdelay)

/-- Where all phones confirm by themselves no confirmation is left to be asked for. -/
theorem unasked_of_delays (hw : w.Reachable) (hself : none ∉ w.delays) (c : ConnId)
    (ops : List Op) : w.Unasked c ops :=
  ⟨hw.heldFor hself c, fun m hm =>
    selfConfirms_of_delays ((delays_run hw.orderly ops).2 m hm ▸ hself) c⟩

/-- **Tones drain.** In every world that a session reaches, and after any request made there,
letting the timers come due ends. Take any connection that is open and whose events are handled,
and any requests that neither ask it for digits nor close it, while the phones that serve it confirm
by themselves. It handles at most two confirmations of outstanding bursts: the first sends all that
waits as one burst, if there is a phone, and the next one, or the first if nothing waits, finds
nothing and is followed by nothing, as is any other confirmation; but there is no other unless
somebody made one up. After twice the time that the slowest phone takes nothing waits and nothing is
outstanding. So the wait of `Scenario.burstDtmf` ends, whatever the configuration. -/
theorem tones_drain (hstart : start.Fresh) (before : List Op) :
    let w := (start.run before).2
    (w.Terminates ∧ ∀ op, (w.perform op).2.Terminates) ∧
    (∀ c ops, w.Attended c → (∀ op ∈ ops, op.sparesTones c = true) → w.Unasked c ops →
      let v := (w.run ops).2
      let seen := (w.story ops).filter (·.confirms c)
      let awaited := (w.story ops).filter (·.settles c)
      Drains c (w.queueOf c) (w.busy c) awaited (v.queueOf c) (v.busy c) ∧ awaited.length ≤ 2 ∧
      (∀ m ∈ seen, m.before.busy c = false → m.before.queueOf c = [] ∧ m.Answers c [] false) ∧
      ((∀ i, .handle i .burstConfirmed ∉ before ++ ops) → seen = awaited) ∧
      (w.clock.now + 2 * w.slowest ≤ v.clock.now → v.queueOf c = [] ∧ v.busy c = false)) ∧
    ∀ config, (Scenario.burstDtmfRun config).awaitsConfirmation = false := by
  intro w
  have hw : w.Reachable := ⟨start, before, hstart, rfl⟩
  refine ⟨⟨hw.orderly.terminates, fun op => ?_⟩, fun c ops hatt hops hunasked => ?_,
    Scenario.burstDtmfRun_confirmed⟩
  · rw [perform_snd]
    exact (hw.orderly.after (fitting_course hw.orderly op)).terminates
  intro v seen awaited
  have hwithin := w.confirmsWithin_slowest
  have hcalm := calm_moments hw hatt hops hunasked.phone hwithin
  obtain ⟨hend, hall, hdrains⟩ :=
    (hw.draining hatt hunasked.held hwithin).after hcalm (by omega)
  rw [← run_snd] at hend hdrains
  refine ⟨hdrains, Drains.length_le_two hdrains, fun m hm hidle => ?_, fun hgenuine => ?_,
    fun hlast => ?_⟩
  · obtain ⟨hm, hconfirms⟩ := List.mem_filter.1 hm
    exact (hall m hm).idle (hcalm m hm) hconfirms hidle
  · have hbalanced : w.Balanced := (hstart.balanced.run hstart.orderly fun i hi =>
      hgenuine i (List.mem_append_left _ hi)).1
    have hops' : ∀ i, .handle i .burstConfirmed ∉ ops := fun i hi =>
      hgenuine i (List.mem_append_right _ hi)
    refine List.filter_congr fun m hm => settles_of_confirms
      ((hbalanced.run hw.orderly hops').2 m hm) (hcalm m hm).attended ?_
    exact genuine_history hops' _ (what_mem hm)
  · have hattended : v.Attended c := (attended_story hatt (spares_history hatt hops).1).1
    have hv : v.Reachable := ⟨start, before ++ ops, hstart, (run_append start before ops).symm⟩
    exact hend.finished hv hattended (by omega) hlast

/-- One digit is out and two wait: they go out together, and the second confirmation is the last. -/
theorem tones_drain_served :
    let before : List Op := [.connect (some 0) {}, .drive 0, .play 0 '1', .play 0 '2', .play 0 '3']
    let w := (servedPrompt.run before).2
    let v := (w.run [.advance 200]).2
    servedPrompt.Fresh ∧ w.Attended 0 ∧ w.Unasked 0 [.advance 200] ∧
      Drains 0 ['2', '3'] true ((w.story [.advance 200]).filter (·.settles 0)) [] false ∧
      ((w.story [.advance 200]).filter (·.settles 0)).length = 2 ∧
      v.phones.map (·.bursts) = [[['1'], ['2', '3']]] ∧ v.queueOf 0 = [] ∧ v.busy 0 = false := by
  intro before w v
  have hw : w.Reachable := ⟨_, before, fresh_servedPrompt, rfl⟩
  have hatt : w.Attended 0 := by
    have hopen : w.conns[0]?.map (fun k => (k.driven, k.closed, k.mailbox.receiverGone)) =
        some (true, false, false) := by decide +kernel
    obtain ⟨k, hk, hopen⟩ := Option.map_eq_some_iff.1 hopen
    obtain ⟨hdriven, hclosed, hreceived⟩ := by simpa using hopen
    exact ⟨k, hk, hdriven, hclosed, hreceived⟩
  have hunasked : w.Unasked 0 [.advance 200] := unasked_of_delays hw (by decide +kernel) 0 _
  obtain ⟨-, hdrain, -⟩ := tones_drain fresh_servedPrompt before
  obtain ⟨hdrains, -, -, -, hover⟩ := hdrain 0 [.advance 200] hatt (by simp [Op.sparesTones]) hunasked
  have hqueue : w.queueOf 0 = ['2', '3'] := by decide +kernel
  have hbusy : w.busy 0 = true := by decide +kernel
  obtain ⟨hempty, hidle⟩ := hover (by decide +kernel)
  rw [hqueue, hbusy, hempty, hidle] at hdrains
  exact ⟨fresh_servedPrompt, hatt, hunasked, hdrains, by decide +kernel, by decide +kernel, hempty,
    hidle⟩

end Sessions

end World

end CdmaCall
