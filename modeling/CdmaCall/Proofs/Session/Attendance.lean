import CdmaCall.Proofs.Session.Deliveries
import CdmaCall.Proofs.Waiting.Verdict

/-!
# Connections whose events are attended to

A connection is attended while it is open, its events are handled as they arrive and somebody
receives them. It stays attended until it is closed (`attended_story`). Whatever brings an event to
an attended connection makes it handle the event before anything else, so nothing waits for it
between two requests (`CaughtUp.step`), nor whenever time passes in the middle of one
(`caughtUp_story`).
-/

namespace CdmaCall

section Defs

/-- This connection is open, handles events as they arrive, and somebody receives them. -/
structure Conn.Attended (k : Conn) : Prop where
  driven : k.driven = true
  opened : k.closed = false
  received : k.mailbox.receiverGone = false

/-- Whether something can make events wait. -/
def Happening.mails : Happening → Bool
  | .confirm _ | .expire _ => true
  | .deed _ d =>
    match d with
    | .post _ | .attend => true
    | _ => false
  | _ => false

/-- Whether something ends the reception of the events of connection `c`. -/
def Happening.Leaves (c : ConnId) (x : Happening) : Prop :=
  x = .deed c .close ∨ x = .deed c .retire

namespace World

/-- Connection `c` is attended. -/
def Attended (w : World) (c : ConnId) : Prop := ∃ k, w.conns[c]? = some k ∧ k.Attended

/-- No event waits for an attended connection other than `i`. -/
def CaughtUpBut (w : World) (i : ConnId) : Prop :=
  ∀ (c : ConnId) (k : Conn), c ≠ i → w.conns[c]? = some k → k.Attended → k.mailbox.waiting = []

/-- No event waits for an attended connection. -/
def CaughtUp (w : World) : Prop :=
  ∀ (c : ConnId) (k : Conn), w.conns[c]? = some k → k.Attended → k.mailbox.waiting = []

end World

end Defs

namespace Scene

variable {s : Scene} {d : Deed}

/-- Who attends to a connection goes on until it is closed. -/
theorem attended_act (hs : s.conn.Attended) (hclose : d ≠ .close) (hretire : d ≠ .retire) :
    (s.act d).conn.Attended := by
  refine ⟨World.driven_act hs.driven d, (closed_act s hclose).trans hs.opened, ?_⟩
  rw [← hs.received]
  cases d with
  | close => exact absurd rfl hclose
  | retire => exact absurd rfl hretire
  | fetch =>
    show s.fetch.conn.mailbox.receiverGone = _
    rw [mailbox_fetch]
  | post e => unfold act Mailbox.post; dsimp only [putMail]; split_ifs <;> rfl
  | attend => rfl
  | _ => exact congrArg Mailbox.receiverGone (undisturbed_act s rfl).mailbox

/-- Nobody attends to a connection because of a deed, unless that is the deed. -/
theorem attended_of_act (hs : (s.act d).conn.Attended) (hd : d ≠ .attend) : s.conn.Attended := by
  have hclose : d ≠ .close := by
    rintro rfl
    cases (closed_close s).symm.trans hs.opened
  obtain ⟨hretire, hreceived⟩ := receiver_act s hs.received
  refine ⟨?_, (closed_act s hclose).symm.trans hs.opened, hreceived⟩
  rw [← hs.driven]
  cases d with
  | close => exact absurd rfl hclose
  | attend => exact absurd rfl hd
  | retire => exact absurd rfl hretire
  | post e => rfl
  | fetch =>
    show s.conn.driven = s.fetch.conn.driven
    unfold fetch
    cases s.conn.mailbox.waiting with
    | nil => rfl
    | cons e rest =>
      exact (undisturbed_handle (s.putMail { s.conn.mailbox with waiting := rest }) e).driven.symm
  | _ => exact (undisturbed_act s rfl).driven.symm

end Scene

namespace World

open Scene

variable {w : World} {c i : ConnId} {s : Scene} {x : Happening} {hs : List Happening} {k : Conn}
  {op : Op} {ops : List Op} {limit fuel : ℕ}

/-! ### Staying attended -/

section Staying

theorem Within.attended (h : Within w c s) : w.Attended c ↔ s.conn.Attended :=
  ⟨fun ⟨_, hk, hatt⟩ => h.conn_eq hk ▸ hatt, fun hatt => ⟨s.conn, h.conn, hatt⟩⟩

theorem Attended.happen (h : w.Attended c) (hx : ¬x.Leaves c) : (w.happen x).Attended c := by
  obtain ⟨k, hk, hatt⟩ := h
  obtain ⟨k', hk', hchange⟩ := change_happen hk x
  refine ⟨k', hk', ?_⟩
  cases hchange with
  | none h => exact h ▸ hatt
  | deed s d hin hs hd h =>
    subst hs h
    exact attended_act hatt (fun he => hx (.inl (he ▸ hd))) fun he => hx (.inr (he ▸ hd))
  | mail e h =>
    subst h
    refine ⟨hatt.driven, hatt.opened, ?_⟩
    rw [← hatt.received]
    unfold Mailbox.post
    dsimp only
    split_ifs <;> rfl
  | leg l _ h =>
    subst h
    exact ⟨hatt.driven, hatt.opened, hatt.received⟩

/-- **An attended connection stays attended**, at every moment, unless something ends that. -/
theorem Attended.after (h : w.Attended c) (hhs : ∀ x ∈ hs, ¬x.Leaves c) :
    (w.after hs).Attended c ∧ ∀ m ∈ w.moments hs, m.before.Attended c := by
  induction hs generalizing w with
  | nil => exact ⟨h, fun m hm => absurd hm List.not_mem_nil⟩
  | cons x hs ih =>
    have hnext := h.happen (hhs x (List.mem_cons_self ..))
    obtain ⟨hend, hall⟩ := ih hnext fun y hy => hhs y (List.mem_cons_of_mem _ hy)
    refine ⟨hend, fun m hm => ?_⟩
    rcases List.mem_cons.1 hm with rfl | hm
    · exact h
    · exact hall m hm

/-- Only a request to close it ends the attendance on a connection. -/
theorem not_leaves_course (h : w.Attended c) (hop : op ≠ .close c) (hx : x ∈ w.course op) :
    ¬x.Leaves c := by
  obtain ⟨k, hk, hatt⟩ := h
  rintro (rfl | rfl)
  · rcases routine_or_asked hx with hroutine | hasked
    · cases hroutine with
      | minor hminor => cases hminor
      | timer ms ht => rcases ht with ht | ht <;> cases ht
    · cases op <;> simp [Op.happening?] at hasked
      exact hop (by rw [hasked])
  · rcases routine_or_asked hx with hroutine | hasked
    · cases hroutine with
      | minor hminor => cases hminor
      | timer ms ht => rcases ht with ht | ht <;> cases ht
      | abandon => exact absurd (List.getElem?_eq_some_iff.1 hk).1 (lt_irrefl _)
      | leave _ k' hk' hidle =>
        obtain rfl := Option.some.inj (hk.symm.trans hk')
        cases hatt.driven.symm.trans hidle
    · cases op <;> simp [Op.happening?] at hasked

theorem not_leaves_timers (hx : x ∈ timerCourse limit fuel w) : ¬x.Leaves c := by
  rcases mem_timerCourse hx with ⟨i, rfl⟩ | rfl | rfl <;> rintro (h | h) <;> cases h

/-- **In every run in which it is not closed.** -/
theorem attended_story (h : w.Attended c) (hops : .close c ∉ ops) :
    (w.run ops).2.Attended c ∧ (∀ m ∈ w.story ops, m.before.Attended c) ∧
      ∀ x ∈ w.history ops, ¬x.Leaves c := by
  induction ops generalizing w with
  | nil => exact ⟨h, by simp [story, history, moments], by simp [history]⟩
  | cons op ops ih =>
    have hop : op ≠ .close c := fun he => hops (he ▸ List.mem_cons_self ..)
    have hstep : ∀ x ∈ w.course op ++ (w.perform op).2.settleCourse, ¬x.Leaves c := by
      intro x hx
      rcases List.mem_append.1 hx with hx | hx
      · exact not_leaves_course h hop hx
      · exact not_leaves_timers hx
    obtain ⟨hend, hall⟩ := h.after hstep
    rw [← step_snd] at hend
    obtain ⟨hend', hall', hleaves⟩ := ih hend fun hc => hops (List.mem_cons_of_mem _ hc)
    refine ⟨hend', fun m hm => ?_, fun x hx => ?_⟩
    · rw [story_cons] at hm
      exact (List.mem_append.1 hm).elim (hall m) (hall' m)
    · rw [history] at hx
      exact (List.mem_append.1 hx).elim (hstep x) (hleaves x)

/-- **Who begins to handle the events** of an open connection attends to it. -/
theorem attended_drive (hw : w.Orderly) (hk : w.conns[c]? = some k) (hopen : k.closed = false)
    (hreceived : k.mailbox.receiverGone = false) : (w.step (.drive c)).2.Attended c := by
  obtain ⟨s, hin, rfl⟩ := exists_within hk
  have hshut : s.conn.mailbox.shutDown = false :=
    (hw.shut _ (List.mem_of_getElem? hk)).trans hopen
  have hperform : (w.after (w.driveCourse c)).Attended c := by
    unfold driveCourse
    rw [hk]
    simp only [hshut, Bool.false_eq_true, if_false]
    split_ifs with hdriven
    · exact ⟨s.conn, hk, hdriven, hopen, hreceived⟩
    · have hattend : (w.happen (.deed c .attend)).Attended c :=
        ⟨_, hin.conn_deed .attend, rfl, hopen, hreceived⟩
      refine (hattend.after fun x hx => ?_).1
      rw [List.eq_of_mem_replicate hx]
      rintro (h | h) <;> cases h
  rw [step_snd, after_append, perform_snd]
  exact (hperform.after fun x hx => not_leaves_timers hx).1

end Staying

/-! ### Handling what waits -/

section Catching

theorem CaughtUp.but (h : w.CaughtUp) (i : ConnId) : w.CaughtUpBut i := fun c k _ => h c k

/-- What is done to one connection makes nobody else wait. -/
theorem CaughtUpBut.deed (h : w.CaughtUpBut i) (d : Deed) :
    (w.happen (.deed i d)).CaughtUpBut i := by
  intro c k hc hk
  rcases within_or_le w i with ⟨s, hin⟩ | hle
  · rw [hin.happen_deed, putScene_other hc] at hk
    exact h c k hc hk
  · rw [happen, onScene_of_none hle] at hk
    exact h c k hc hk

theorem CaughtUpBut.hand {d : Delivery} (h : w.CaughtUpBut d.target) :
    (w.hand d).CaughtUpBut d.target := CaughtUpBut.deed h (.post d.event)

/-- What brings no event leaves nothing waiting. -/
theorem CaughtUp.quiet (h : w.CaughtUp) (hx : x.mails = false) : (w.happen x).CaughtUp := by
  intro c k' hk' hatt'
  cases x with
  | deed i d =>
    by_cases hc : c = i
    · subst hc
      rcases within_or_le w c with ⟨s, hin⟩ | hle
      · rw [hin.conn_deed] at hk'
        obtain rfl := Option.some.inj hk'
        have hatt := attended_of_act hatt' (by rintro rfl; cases hx)
        have hlength := length_act (s := s) (d := d) (by rintro e rfl; cases hx)
        rw [h c s.conn hin.conn hatt] at hlength
        exact List.eq_nil_of_length_eq_zero (Nat.le_zero.1 hlength)
      · rw [happen, onScene_of_none hle] at hk'
        exact h c k' hk' hatt'
    · exact (h.but i).deed d c k' hc hk' hatt'
  | enlist o =>
    rcases hk : w.conns[c]? with _ | k
    · obtain ⟨o', rfl⟩ := fresh_happen hk hk'
      rfl
    · have hold : (w.conns ++ [Conn.fresh o])[c]? = some k := by
        rw [List.getElem?_append_left (List.getElem?_eq_some_iff.1 hk).1, hk]
      obtain rfl := Option.some.inj (hold.symm.trans hk')
      exact h c k hk hatt'
  | assign i l =>
    rw [happen, setLeg_getElem?] at hk'
    split_ifs at hk'
    · obtain ⟨k₀, hk₀, rfl⟩ := Option.map_eq_some_iff.1 hk'
      exact h c k₀ hk₀ ⟨hatt'.driven, hatt'.opened, hatt'.received⟩
    · exact h c k' hk' hatt'
  | release l =>
    refine h c k' ?_ hatt'
    rw [happen, hangUpLeg] at hk'
    cases hl : w.legs[l]? <;> simpa [hl] using hk'
  | confirm p => cases hx
  | expire limit => cases hx
  | _ => exact h c k' hk' hatt'

theorem CaughtUp.quiets (h : w.CaughtUp) (hhs : ∀ x ∈ hs, x.mails = false) :
    (w.after hs).CaughtUp := by
  induction hs generalizing w with
  | nil => exact h
  | cons x hs ih =>
    exact ih (h.quiet (hhs x (List.mem_cons_self ..))) fun y hy =>
      hhs y (List.mem_cons_of_mem _ hy)

/-- **Who handles all that waits for it** has caught up. -/
theorem CaughtUpBut.fetches {n : ℕ} (h : w.CaughtUpBut i)
    (hn : ∀ k, w.conns[i]? = some k → k.Attended → k.mailbox.waiting.length ≤ n) :
    (w.after (List.replicate n (.deed i .fetch))).CaughtUp := by
  induction n generalizing w with
  | zero =>
    intro c k hk hatt
    by_cases hc : c = i
    · subst hc
      exact List.eq_nil_of_length_eq_zero (Nat.le_zero.1 (hn k hk hatt))
    · exact h c k hc hk hatt
  | succ n ih =>
    refine ih (h.deed .fetch) fun k hk hatt => ?_
    rcases within_or_le w i with ⟨s, hin⟩ | hle
    · rw [hin.conn_deed] at hk
      obtain rfl := Option.some.inj hk
      have hold := hn s.conn hin.conn (attended_of_act hatt (by decide))
      show s.fetch.conn.mailbox.waiting.length ≤ n
      rw [mailbox_fetch, List.length_tail]
      omega
    · have hnone : (w.happen (.deed i .fetch)).conns[i]? = none := by
        rw [happen, onScene_of_none hle]
        exact List.getElem?_eq_none hle
      cases hnone.symm.trans hk

theorem CaughtUpBut.ready (h : w.CaughtUpBut i) (hw : w.Orderly) :
    (w.after (w.ready i)).CaughtUp := by
  rcases within_or_le w i with ⟨s, hin⟩ | hle
  · by_cases hatt : s.conn.Attended
    · rw [ready_eq hw hin hatt.opened hatt.received, if_pos hatt.driven]
      exact h.fetches fun k hk _ => (hin.conn_eq hk ▸ le_rfl)
    · obtain ⟨n, hn⟩ := w.ready_eq_fetches i
      rw [hn]
      exact h.fetches fun k hk hk' => absurd (hin.conn_eq hk ▸ hk') hatt
  · obtain ⟨n, hn⟩ := w.ready_eq_fetches i
    rw [hn]
    exact h.fetches fun k hk _ => absurd (List.getElem?_eq_some_iff.1 hk).1 (Nat.not_lt.2 hle)

/-- An event that arrives is handled. -/
theorem CaughtUp.deliver (h : w.CaughtUp) (hw : w.Orderly) (d : Delivery) :
    (w.deliver d).2.CaughtUp := by
  rw [deliver_eq]
  exact (h.but d.target).hand.ready (hw.hand d)

end Catching

/-! ### Requests -/

section Requests

theorem CaughtUp.pass (h : w.CaughtUp) (limit : ℕ) : (w.after [.pass limit]).CaughtUp ∧
    ∀ m ∈ w.moments [.pass limit], m.what.isTimeless = false → m.before.CaughtUp :=
  ⟨h, fun m hm _ => by rw [List.mem_singleton.1 hm]; exact h⟩

/-- **One timer after the other**: what each brings is handled before the next. -/
theorem caughtUp_timers (hw : w.Orderly) (h : w.CaughtUp) :
    (w.after (timerCourse limit fuel w)).CaughtUp ∧
      ∀ m ∈ w.moments (timerCourse limit fuel w), m.what.isTimeless = false →
        m.before.CaughtUp := by
  induction fuel generalizing w with
  | zero => exact h.pass limit
  | succ fuel ih =>
    cases hn : w.clock.next? limit with
    | none =>
      rw [timerCourse_none hn]
      exact h.pass limit
    | some next =>
      obtain ⟨d, clock⟩ := next
      have hnext := CaughtUp.deliver (w := { w with clock }) h (hw.next hn) d
      have horderly := (orderly_next hw hn).1
      rw [deliver_next hn] at hnext horderly
      obtain ⟨hend, hall⟩ := ih horderly hnext
      rw [timerCourse_some hn, after_cons, after_append]
      refine ⟨hend, fun m hm htime => ?_⟩
      rw [moments, moments_append, List.mem_cons, List.mem_append] at hm
      rcases hm with rfl | hm | hm
      · exact h
      · rw [mem_ready (what_mem hm)] at htime
        cases htime
      · exact hall m hm htime

theorem mails_bind {l : LegId} (hx : x ∈ w.bindCourse c l) : x.mails = false := by
  unfold bindCourse at hx
  split_ifs at hx
  · simp only [List.mem_cons, List.not_mem_nil, or_false] at hx
    rcases hx with rfl | rfl | rfl | rfl <;> rfl
  · cases hx

theorem mails_build {leg : Option LegId} {o : Options} (hx : x ∈ w.buildCourse leg o) :
    x.mails = false := by
  unfold buildCourse at hx
  rw [List.cons_append, List.mem_cons, List.mem_append, List.mem_singleton] at hx
  rcases hx with rfl | hx | rfl
  · rfl
  · cases leg with
    | none => cases hx
    | some l => exact mails_bind hx
  · rfl

theorem CaughtUp.broadcast (h : w.CaughtUp) (hw : w.Orderly) (cs : List ConnId) :
    (w.after (w.broadcastCourse cs)).CaughtUp := by
  induction cs generalizing w with
  | nil => exact h
  | cons c cs ih =>
    rw [← broadcastTo_snd]
    show ((w.deliver ⟨c, .lineControl⟩).2.broadcastTo cs).2.CaughtUp
    rw [broadcastTo_snd]
    exact ih (h.deliver hw _) (hw.deliver _)

theorem CaughtUp.drive (h : w.CaughtUp) (c : ConnId) : (w.after (w.driveCourse c)).CaughtUp := by
  unfold driveCourse
  cases hk : w.conns[c]? with
  | none => exact h
  | some k =>
    obtain ⟨s, hin, rfl⟩ := exists_within hk
    have hattend := (h.but c).deed .attend
    have hconn : (w.happen (.deed c .attend)).conns[c]? = some (s.act .attend).conn :=
      hin.conn_deed .attend
    dsimp only
    split_ifs
    · exact h
    · rw [after_cons]
      intro i k hk hatt
      by_cases hi : i = c
      · subst hi
        -- nobody receives what comes from now on
        have hin' : Within (w.happen (.deed i .attend)) i (s.act .attend) := by
          rw [hin.happen_deed]
          exact hin.putScene (anchored_act s (by decide))
        have hretire : ((w.happen (.deed i .attend)).after [.deed i .retire]).conns[i]? =
            some ((s.act .attend).act .retire).conn := hin'.conn_deed .retire
        obtain rfl := Option.some.inj (hretire.symm.trans hk)
        rfl
      · exact hattend.deed .retire i k hi hk hatt
    · rw [after_cons]
      refine hattend.fetches fun k hk _ => ?_
      obtain rfl := Option.some.inj (hconn.symm.trans hk)
      exact le_rfl

theorem CaughtUp.perform (h : w.CaughtUp) (hw : w.Orderly) (op : Op) :
    (w.after (w.course op)).CaughtUp := by
  cases op with
  | connect leg o =>
    refine h.quiets fun x hx => ?_
    rcases List.mem_append.1 hx with hx | hx
    · exact mails_build hx
    · rcases mem_armCourse hx with rfl | rfl <;> rfl
  | advance ms => exact (caughtUp_timers hw h).1
  | confirm p =>
    rw [course, confirmCourse]
    cases hp : w.phones[p]?.bind (·.releaseBurst) with
    | none => exact h
    | some taken =>
      have hgiven : ({ w with phones := w.phones.set p taken.2 } : World).CaughtUp := h
      have hdeliver := hgiven.deliver (hw.give hp) ⟨taken.1, .burstConfirmed⟩
      rw [deliver_eq] at hdeliver
      simpa only [after_cons, happen, hp] using hdeliver
  | broadcast p => exact h.broadcast hw _
  | rebind c l =>
    refine h.quiets fun x hx => ?_
    rw [course] at hx
    split at hx
    · cases hx
    · split_ifs at hx
      · cases hx
      · exact mails_bind hx
  | cloneConn c =>
    refine h.quiets fun x hx => ?_
    rw [course] at hx
    split at hx
    · cases hx
    · exact mails_build hx
  | drain c =>
    refine h.quiets fun x hx => ?_
    rw [course, drainCourse] at hx
    split at hx
    · cases hx
    · rw [List.eq_of_mem_replicate hx]
      rfl
  | drive c => exact h.drive c
  | _ => exact h.quiets fun x hx => by rw [List.mem_singleton.1 hx]; rfl

/-- **Between requests nothing waits** for an attended connection. -/
theorem CaughtUp.step (h : w.CaughtUp) (hw : w.Orderly) (op : Op) : (w.step op).2.CaughtUp := by
  have horderly := hw.after (fitting_course hw op)
  rw [step_snd, after_append, perform_snd]
  exact (caughtUp_timers horderly (h.perform hw op)).1

theorem CaughtUp.run (h : w.CaughtUp) (hw : w.Orderly) (ops : List Op) :
    (w.run ops).2.CaughtUp := by
  induction ops generalizing w with
  | nil => exact h
  | cons op ops ih => exact ih (h.step hw op) (hw.step op)

theorem Reachable.caughtUp (h : w.Reachable) : w.CaughtUp := by
  obtain ⟨start, ops, hfresh, rfl⟩ := h
  have hstart : start.CaughtUp := fun c k hk => by simp [hfresh.conns] at hk
  exact hstart.run hfresh.orderly ops

/-- Only the clock lets time pass. -/
theorem timeless_course (hx : x ∈ w.course op) (hop : ∀ ms, op ≠ .advance ms) :
    x.isTimeless = true := by
  rcases routine_or_asked hx with hroutine | hasked
  · cases hroutine with
    | minor hminor => cases x <;> first | rfl | cases hminor
    | timer ms => exact absurd rfl (hop ms)
    | _ => rfl
  · cases op <;> simp [Op.happening?] at hasked <;> subst hasked <;> rfl

/-- **Whenever time passes nothing waits** for an attended connection. -/
theorem caughtUp_story (hw : w.Orderly) (h : w.CaughtUp) :
    ∀ m ∈ w.story ops, m.what.isTimeless = false → m.before.CaughtUp := by
  induction ops generalizing w with
  | nil => simp [story, history, moments]
  | cons op ops ih =>
    have horderly := hw.after (fitting_course hw op)
    have hperform := h.perform hw op
    intro m hm htime
    rw [story_cons, moments_append, List.mem_append, List.mem_append] at hm
    rcases hm with (hm | hm) | hm
    · by_cases hop : ∃ ms, op = .advance ms
      · obtain ⟨ms, rfl⟩ := hop
        exact (caughtUp_timers hw h).2 m hm htime
      · rw [timeless_course (what_mem hm) fun ms he => hop ⟨ms, he⟩] at htime
        cases htime
    · rw [perform_snd] at hm
      exact (caughtUp_timers horderly hperform).2 m hm htime
    · exact ih (hw.step op) (h.step hw op) m hm htime

end Requests

end World

end CdmaCall
