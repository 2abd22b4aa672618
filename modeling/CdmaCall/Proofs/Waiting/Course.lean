import CdmaCall.Proofs.Waiting.Stages

/-!
# What becomes of a deadline in a world

The stages of a connection's deadline, seen from the world it is in, and what one happening does to
them: whatever is done to other connections, legs and phones is steady for the scene of `c`
(`frame`), and its own deeds and the events that arrive for it act as they do in its scene.
-/

namespace CdmaCall

/-- Whether a happening is ordinary for the deadline of connection `c`. -/
def Happening.Ordinary (c : ConnId) : Happening → Prop
  | .deed i d => i = c → d.isOrdinary = true ∧ d ≠ .retire
  | _ => True

namespace Moment

/-- When it happens. -/
def time (m : Moment) : ℕ := m.before.clock.now

/-- Whether connection `c` handles a deadline: one that is handed over, or one that waits first. -/
def hears (c : ConnId) (m : Moment) : Bool :=
  match m.what with
  | .deed i (.handle e) => i == c && e.isMissed
  | .deed i .fetch =>
    i == c && (m.before.conns[c]?.bind (·.mailbox.waiting.head?)).any Event.isMissed
  | _ => false

/-- Whether the deadline of connection `c` is void from this moment: the call is answered while
there is one to answer, or closed, or a cause is recorded. -/
def voids (c : ConnId) (m : Moment) : Prop :=
  (m.what = .deed c .answer ∧ ∃ k, m.before.conns[c]? = some k ∧ k.isLive = true) ∨
    m.what = .deed c .close ∨ ∃ k, m.after.conns[c]? = some k ∧ k.cause.isSome = true

/-- Whether the call of connection `c` counts as missed after this moment. -/
def tags (c : ConnId) (m : Moment) : Prop :=
  ∃ k, m.after.conns[c]? = some k ∧ k.cause = some .incomingMissed

theorem voids_of_tags {c : ConnId} {m : Moment} (h : m.tags c) : m.voids c := by
  obtain ⟨k, hk, hcause⟩ := h
  exact .inr (.inr ⟨k, hk, by rw [hcause]; rfl⟩)

/-- Nothing makes the deadline void without a recorded cause, an answer or closing. -/
theorem not_voids {c : ConnId} {m : Moment}
    (hcause : ∀ k, m.after.conns[c]? = some k → k.cause = none)
    (hanswer : m.what = .deed c .answer → ∀ k, m.before.conns[c]? = some k → k.isLive = false)
    (hclose : m.what ≠ .deed c .close) : ¬m.voids c := by
  rintro (⟨hwhat, k, hk, hlive⟩ | hwhat | ⟨k, hk, hset⟩)
  · rw [hanswer hwhat k hk] at hlive
    cases hlive
  · exact hclose hwhat
  · rw [hcause k hk] at hset
    cases hset

end Moment

/-- Whether a happening is about neither a connection nor what arrives at one. -/
def Happening.isOutside : Happening → Bool
  | .deed .. | .assign .. | .confirm _ | .expire _ => false
  | _ => true

namespace World

open Scene

variable {w w' : World} {c : ConnId} {s t : Scene} {a : Deadline} {due limit : ℕ}

/-! ## Definitions -/

section Defs

/-- The deadline of connection `c`, due at `due`, has not come and has not been called off. -/
def Awaits (w : World) (c : ConnId) (due : ℕ) : Prop :=
  ∃ s a, Within w c s ∧ s.Awaiting a due

/-- The deadline of connection `c`, due at `due`, has come and waits to be handled. -/
def Comes (w : World) (c : ConnId) (due : ℕ) : Prop :=
  due ≤ w.clock.now ∧ ∃ s a, Within w c s ∧ s.Coming a

/-- The deadline of connection `c` is over and did not count. -/
def Void (w : World) (c : ConnId) : Prop :=
  ∃ s, Within w c s ∧ s.Over ∧ s.conn.cause ≠ some .incomingMissed

/-- The deadline of connection `c`, due at `due`, is over and has ended the call. -/
def Missed (w : World) (c : ConnId) (due : ℕ) : Prop :=
  due ≤ w.clock.now ∧ ∃ s, Within w c s ∧ s.Over ∧ s.conn.phase.isTerminal = true ∧
    s.conn.cause = some .incomingMissed

/-- The timer that comes due next is the deadline of connection `c`. -/
def Rings (w : World) (c : ConnId) (limit : ℕ) : Prop :=
  ∃ g clock, w.clock.next? limit = some (⟨c, .missed g⟩, clock)

end Defs

/-! ## Frames -/

section Frames

theorem Within.leg_isSome (h : Within w c s) :
    s.leg.isSome = true ↔ ∃ l, s.conn.leg = some l ∧ l < w.legs.length := by
  rw [h.leg]
  cases hl : s.conn.leg with
  | none => simp
  | some l => simp

/-- The timers of connection `c` stay as they are. -/
def SameDeadlines (w w' : World) (c : ConnId) : Prop :=
  w'.clock.pending.filter (fun t => t.job.target == c && t.job.event.isMissed) =
    w.clock.pending.filter (fun t => t.job.target == c && t.job.event.isMissed)

/-- What leaves the connection, its deadlines and the number of legs alone is steady for it. -/
theorem frame (h : Within w c s) (hconn : w'.conns[c]? = w.conns[c]?)
    (hclock : SameDeadlines w w' c) (hlegs : w'.legs.length = w.legs.length) :
    ∃ t, Within w' c t ∧ Steady s t ∧ t.conn = s.conn := by
  obtain ⟨t, ht, hk⟩ := exists_within (hconn.trans h.conn)
  refine ⟨t, ht, ?_, hk⟩
  refine ⟨ht.id.trans h.id.symm, by rw [hk], ?_, by rw [hk], by rw [hk], by rw [hk], ?_, by rw [hk],
    by rw [hk]⟩
  · unfold Scene.deadlines
    rw [ht.clock, h.clock, ht.id, h.id]
    exact hclock
  · rw [Bool.eq_iff_iff, ht.leg_isSome, h.leg_isSome, hk, hlegs]

theorem sameDeadlines_of_onward {i : ConnId} (hi : Within w i s) (hon : Onward s t) (hne : i ≠ c) :
    SameDeadlines w (w.putScene i t) c := by
  have hsub (ts : List (Timer Delivery)) :
      ts.filter (fun t => t.job.target == c && t.job.event.isMissed) =
        (ts.filter (·.job.target != s.id)).filter
          (fun t => t.job.target == c && t.job.event.isMissed) := by
    rw [List.filter_filter]
    refine List.filter_congr fun t _ => ?_
    by_cases ht : t.job.target = c
    · have hother : c ≠ s.id := fun he => hne (hi.id.symm.trans he.symm)
      simp [ht, hother]
    · simp [ht]
  unfold SameDeadlines
  rw [putScene_clock, hsub, hon.others, ← hsub, hi.clock]

/-- Deeds of other connections are steady. -/
theorem frame_deed (hw : w.Orderly) (h : Within w c s) {i : ConnId} (hi : i ≠ c) (d : Deed) :
    ∃ t, Within (w.happen (.deed i d)) c t ∧ Steady s t ∧ t.conn = s.conn := by
  rcases within_or_le w i with ⟨u, hu⟩ | hle
  · have hhappen : w.happen (.deed i d) = w.putScene i (u.act d) := onScene_of_within hu _
    rw [hhappen]
    exact frame h (putScene_other hi.symm _)
      (sameDeadlines_of_onward hu (onward_act (hw.timed hu) d) hi) putScene_legs_length
  · have hhappen : w.happen (.deed i d) = w := onScene_of_none hle _
    rw [hhappen]
    exact ⟨s, h, Steady.refl s, rfl⟩

/-- A timer that is not a deadline of connection `c` comes off the clock. -/
theorem frame_next (hw : w.Orderly) (h : Within w c s) {d : Delivery} {clock : Clock Delivery}
    (hn : w.clock.next? limit = some (d, clock)) (hd : d.target = c → d.event.isMissed = false) :
    ∃ t, Within ({ w with clock } : World) c t ∧ Steady s t ∧ t.conn = s.conn := by
  obtain ⟨u, hu, rfl, -, -, rfl⟩ := Clock.next?_eq_some hn
  refine frame h rfl ?_ rfl
  unfold SameDeadlines Clock.cancel
  rw [List.filter_filter]
  refine List.filter_congr fun v hv => ?_
  by_cases hid : v.id = u.id
  · obtain rfl := hw.clock.eq_of_id hv hu hid
    by_cases htarget : v.job.target = c
    · simp [hd htarget]
    · simp [htarget]
  · simp [hid]

end Frames

/-! ## One happening -/

section Happenings

/-- What is over for a connection stays over under deeds. -/
theorem over_deed (hw : w.Orderly) (h : Within w c s) (hs : s.Over) {i : ConnId} {d : Deed}
    (ho : i = c → d.isOrdinary = true) :
    ∃ t, Within (w.happen (.deed i d)) c t ∧ Settled s t := by
  by_cases hi : i = c
  · subst hi
    have hhappen : w.happen (.deed i d) = w.putScene i (s.act d) := onScene_of_within h _
    rw [hhappen]
    obtain ⟨t, ht, hconn⟩ := exists_within (h.putScene_same (s.act d))
    refine ⟨t, ht, (hs.act (ho rfl)).congr ?_ hconn ht.clock⟩
    rw [ht.id, act_id, h.id]
  · obtain ⟨t, ht, hsteady, -⟩ := frame_deed hw h hi d
    exact ⟨t, ht, hsteady.settled hs⟩

/-- A deadline of connection `c` on the clock is one of its scene. -/
theorem mem_deadlines (h : Within w c s) {u : Timer Delivery} (hu : u ∈ w.clock.pending)
    (htarget : u.job.target = c) (hmissed : u.job.event.isMissed = true) : u ∈ s.deadlines := by
  unfold Scene.deadlines
  rw [h.clock, h.id]
  exact List.mem_filter.2 ⟨hu, by simp [htarget, hmissed]⟩

/-- A deadline that waits on the clock is one of the timers there. -/
theorem Awaits.lt (h : w.Awaits c due) (hl : ∀ t ∈ w.clock.pending, limit < t.due) :
    limit < due := by
  obtain ⟨s, a, hin, hs⟩ := h
  have hmem : (⟨a.timer, due, ⟨s.id, .missed a.generation⟩⟩ : Timer Delivery) ∈ s.deadlines := by
    rw [hs.timer]
    exact List.mem_singleton_self _
  unfold Scene.deadlines at hmem
  rw [hin.clock] at hmem
  exact hl _ (List.mem_filter.1 hmem).1

/-- A timer that comes due when there is no deadline is none. -/
theorem event_of_next (h : Within w c s) (hs : s.deadlines = []) {d : Delivery}
    {clock : Clock Delivery} (hn : w.clock.next? limit = some (d, clock)) (htarget : d.target = c) :
    d.event.isMissed = false := by
  obtain ⟨u, hu, hjob, -⟩ := Clock.next?_eq_some hn
  rw [Bool.eq_false_iff]
  intro hmissed
  have hmem := mem_deadlines h hu (hjob ▸ htarget) (hjob ▸ hmissed)
  rw [hs] at hmem
  cases hmem

/-- Whatever changes nothing about connections, deadlines and the number of legs. -/
theorem frame_happen (h : Within w c s) {l : Happening} (hl : l.isOutside = true) :
    ∃ t, Within (w.happen l) c t ∧ Steady s t ∧ t.conn = s.conn := by
  cases l with
  | enlist o => exact frame h (List.getElem?_append_left h.lt) rfl rfl
  | report l state => exact frame h rfl rfl (List.length_modify ..)
  | refuse l yes => exact frame h rfl rfl (List.length_modify ..)
  | release l =>
    rw [happen, hangUpLeg]
    cases w.legs[l]? with
    | none => exact ⟨s, h, Steady.refl s, rfl⟩
    | some leg => exact frame h rfl rfl (List.length_set ..)
  | hold p active => exact frame h rfl rfl rfl
  | prefer t => exact frame h rfl rfl rfl
  | pass limit => exact frame h rfl rfl rfl
  | _ => cases hl

/-- The connection gets another leg. -/
theorem frame_assign (h : Within w c s) (i : ConnId) {l : LegId} (hl : l < w.legs.length) :
    ∃ t, Within (w.setLeg i l) c t ∧ (s.leg.isSome = true → t.leg.isSome = true) ∧
      (∃ leg, t.conn = { s.conn with leg }) ∧ t.clock = s.clock ∧ t.id = s.id := by
  have hget := setLeg_getElem? w i l c
  rw [h.conn] at hget
  by_cases hi : i = c
  · rw [if_pos hi] at hget
    obtain ⟨t, ht, hconn⟩ := exists_within hget
    refine ⟨t, ht, fun _ => ?_, ⟨some l, hconn⟩, ht.clock.trans h.clock.symm, ht.id.trans h.id.symm⟩
    exact ht.leg_isSome.2 ⟨l, by rw [hconn], hl⟩
  · rw [if_neg hi] at hget
    obtain ⟨t, ht, hconn⟩ := exists_within hget
    refine ⟨t, ht, fun hs => ?_, ⟨s.conn.leg, hconn⟩, ht.clock.trans h.clock.symm,
      ht.id.trans h.id.symm⟩
    obtain ⟨l', hl', hlt⟩ := h.leg_isSome.1 hs
    exact ht.leg_isSome.2 ⟨l', by rw [hconn, hl'], hlt⟩

/-- A confirmation that is taken from a phone leaves the connection to the event that arrives. -/
theorem frame_confirm (h : Within w c s) (phones : List Phone) :
    ∃ t, Within ({ w with phones } : World) c t ∧ Steady s t ∧ t.conn = s.conn :=
  frame h rfl rfl rfl

/-- **What is over stays over**, whatever happens. -/
theorem over_happen (hw : w.Orderly) (h : Within w c s) (hs : s.Over) {l : Happening}
    (hf : l.Fits w) (ho : l.Ordinary c) : ∃ t, Within (w.happen l) c t ∧ Settled s t := by
  by_cases hout : l.isOutside = true
  · obtain ⟨t, ht, hsteady, -⟩ := frame_happen h hout
    exact ⟨t, ht, hsteady.settled hs⟩
  cases l with
  | deed i d => exact over_deed hw h hs fun hi => (ho hi).1
  | assign i l =>
    obtain ⟨t, ht, -, ⟨leg, hconn⟩, hclock, hid⟩ := frame_assign h i hf
    have hsame : Settled s { s with conn := { s.conn with leg } } :=
      ⟨⟨hs.unarmed, hs.timers, hs.mail⟩, fun hterm => ⟨hterm, rfl⟩, .inl rfl⟩
    exact ⟨t, ht, hsame.congr hid hconn hclock⟩
  | confirm p =>
    rw [happen]
    cases hp : w.phones[p]?.bind (·.releaseBurst) with
    | none => exact ⟨s, h, (Steady.refl s).settled hs⟩
    | some taken =>
      obtain ⟨t, ht, hsteady, -⟩ := frame_confirm h (w.phones.set p taken.2)
      obtain ⟨t', ht', hset⟩ := over_deed (hw.give hp) ht (hsteady.stillOver hs) (i := taken.1)
        (d := .post .burstConfirmed) fun _ => rfl
      exact ⟨t', ht', (hsteady.settled hs).trans hset⟩
  | expire limit =>
    rw [happen]
    cases hn : w.clock.next? limit with
    | none => exact ⟨s, h, (Steady.refl s).settled hs⟩
    | some next =>
      have hd := event_of_next h hs.timers hn
      obtain ⟨t, ht, hsteady, -⟩ := frame_next hw h hn hd
      have hover := hsteady.stillOver hs
      obtain ⟨t', ht', hset⟩ := over_deed (hw.next hn) ht hover (i := next.1.target)
        (d := .post next.1.event) fun hi => by simp [Deed.isOrdinary, hd hi]
      exact ⟨t', ht', (hsteady.settled hs).trans hset⟩
  | _ => exact absurd rfl hout

/-- What a deed makes of a deadline that has not come. -/
theorem awaiting_deed (hw : w.Orderly) (h : Within w c s) (hs : s.Awaiting a due) {i : ConnId}
    {d : Deed} (ho : i = c → d.isOrdinary = true ∧ d ≠ .retire) :
    (∃ t, Within (w.happen (.deed i d)) c t ∧ t.Awaiting a due ∧
        (i = c → d ≠ .answer ∧ d ≠ .close)) ∨
      i = c ∧ ∃ t, Within (w.happen (.deed i d)) c t ∧ t.Over ∧
        t.conn.cause ≠ some .incomingMissed ∧
        (d = .answer ∨ d = .close ∨ t.conn.cause.isSome = true) ∧
        d ≠ .fetch ∧ ∀ e, d ≠ .post e := by
  by_cases hi : i = c
  · subst hi
    have hhappen : w.happen (.deed i d) = w.putScene i (s.act d) := onScene_of_within h _
    rw [hhappen]
    rcases hs.act (ho rfl).1 (ho rfl).2 with ⟨hact, hanswer, hclose⟩ | ⟨hover, hcause, hwhy, hnot⟩
    · exact .inl ⟨_, h.putScene (anchored_act s hclose), hact, fun _ => ⟨hanswer, hclose⟩⟩
    · obtain ⟨t, ht, hconn⟩ := exists_within (h.putScene_same (s.act d))
      have hsame : (s.act d).Over → t.Over := fun ho => by
        have hset := (Steady.refl _).settled ho
        exact (hset.congr (by rw [ht.id, act_id, h.id]) hconn ht.clock).stillOver
      refine .inr ⟨rfl, t, ht, hsame hover, ?_, ?_, hnot⟩
      · rw [hconn]
        exact hcause
      · rw [hconn]
        exact hwhy
  · obtain ⟨t, ht, hsteady, -⟩ := frame_deed hw h hi d
    exact .inl ⟨t, ht, hsteady.awaiting hs, fun he => absurd he hi⟩

/-- An event that is no deadline arrives. -/
theorem awaiting_hand (hw : w.Orderly) (h : Within w c s) (hs : s.Awaiting a due) {d : Delivery}
    (hd : d.target = c → d.event.isMissed = false) :
    ∃ t, Within (w.hand d) c t ∧ t.Awaiting a due := by
  have ho : d.target = c → (Deed.post d.event).isOrdinary = true ∧ Deed.post d.event ≠ .retire :=
    fun hi => ⟨by simp [Deed.isOrdinary, hd hi], by simp⟩
  rcases awaiting_deed hw h hs ho with ⟨t, ht, hact, -⟩ | ⟨-, t, -, -, -, -, -, hpost⟩
  · exact ⟨t, ht, hact⟩
  · exact absurd rfl (hpost d.event)

theorem awaiting_assign (h : Within w c s) (hs : s.Awaiting a due) (i : ConnId) {l : LegId}
    (hl : l < w.legs.length) : ∃ t, Within (w.setLeg i l) c t ∧ t.Awaiting a due := by
  obtain ⟨t, ht, hleg, ⟨leg, hconn⟩, hclock, hid⟩ := frame_assign h i hl
  have hdeadlines : t.deadlines = s.deadlines := by
    unfold Scene.deadlines
    rw [hclock, hid]
  refine ⟨t, ht, ?_⟩
  exact
    { opened := by rw [hconn]; exact hs.opened
      live := by rw [hconn]; exact hs.live
      cause := by rw [hconn]; exact hs.cause
      leg := hleg hs.leg
      armed := by rw [hconn]; exact hs.armed
      timer := by rw [hdeadlines, hid, hs.timer]
      mail := by rw [hconn]; exact hs.mail
      receiver := by rw [hconn]; exact hs.receiver }

/-- While the deadline has not come nothing has made it void. -/
theorem Awaits.not_voids {m : Moment} (h : m.after.Awaits c due)
    (hd : ∀ d, m.what = .deed c d → d ≠ .answer ∧ d ≠ .close) : ¬m.voids c := by
  obtain ⟨s, a, hin, hs⟩ := h
  have hcause (k : Conn) (hk : m.after.conns[c]? = some k) : k.cause = none :=
    hin.conn_eq hk ▸ hs.cause
  exact Moment.not_voids hcause (fun hwhat => absurd rfl (hd _ hwhat).1)
    fun hwhat => (hd _ hwhat).2 rfl

/-- **Until the deadline comes**, whatever happens leaves it alone or makes it void. -/
theorem awaits_happen (hw : w.Orderly) (h : w.Awaits c due) {l : Happening} (hf : l.Fits w)
    (ho : l.Ordinary c) (hring : ∀ limit, l = .expire limit → ¬w.Rings c limit) :
    (w.happen l).Awaits c due ∧ ¬Moment.voids c ⟨w, l⟩ ∨
      (w.happen l).Void c ∧ Moment.voids c ⟨w, l⟩ ∧ ∃ d, l = .deed c d ∧ d ≠ .fetch := by
  obtain ⟨s, a, h, hs⟩ := h
  -- Whatever is no deed of the connection itself cannot make the deadline void.
  have hstill (hnot : ∀ d, l ≠ .deed c d) (ht : ∃ t, Within (w.happen l) c t ∧ t.Awaiting a due) :
      (w.happen l).Awaits c due ∧ ¬Moment.voids c ⟨w, l⟩ := by
    obtain ⟨t, ht, hact⟩ := ht
    have hafter : (Moment.mk w l).after.Awaits c due := ⟨t, a, ht, hact⟩
    exact ⟨hafter, hafter.not_voids fun d hd => absurd hd (hnot d)⟩
  by_cases hout : l.isOutside = true
  · obtain ⟨t, ht, hsteady, -⟩ := frame_happen h hout
    exact .inl (hstill (fun d hd => by rw [hd] at hout; cases hout) ⟨t, ht, hsteady.awaiting hs⟩)
  cases l with
  | deed i d =>
    rcases awaiting_deed hw h hs ho with ⟨t, ht, hact, hd⟩ |
      ⟨hi, t, ht, hover, hcause, hwhy, hfetch, -⟩
    · have hafter : (Moment.mk w (.deed i d)).after.Awaits c due := ⟨t, a, ht, hact⟩
      refine .inl ⟨hafter, hafter.not_voids fun d' hd' => ?_⟩
      obtain ⟨rfl, rfl⟩ := Happening.deed.inj hd'
      exact hd rfl
    · subst hi
      refine .inr ⟨⟨t, ht, hover, hcause⟩, ?_, d, rfl, hfetch⟩
      rcases hwhy with rfl | rfl | hset
      · exact .inl ⟨rfl, s.conn, h.conn, by simp [Conn.isLive, hs.opened, hs.live]⟩
      · exact .inr (.inl rfl)
      · exact .inr (.inr ⟨t.conn, ht.conn, hset⟩)
  | assign i l => exact .inl (hstill (by simp) (awaiting_assign h hs i hf))
  | confirm p =>
    refine .inl (hstill (by simp) ?_)
    rw [happen]
    cases hp : w.phones[p]?.bind (·.releaseBurst) with
    | none => exact ⟨s, h, hs⟩
    | some taken =>
      obtain ⟨t, ht, hsteady, -⟩ := frame_confirm h (w.phones.set p taken.2)
      exact awaiting_hand (hw.give hp) ht (hsteady.awaiting hs) fun _ => rfl
  | expire limit =>
    refine .inl (hstill (by simp) ?_)
    rw [happen]
    cases hn : w.clock.next? limit with
    | none => exact ⟨s, h, hs⟩
    | some next =>
      have hd : next.1.target = c → next.1.event.isMissed = false := by
        rintro rfl
        by_contra hmissed
        obtain ⟨⟨i, e⟩, clock⟩ := next
        cases e with
        | missed g => exact hring limit rfl ⟨g, clock, hn⟩
        | _ => exact hmissed rfl
      obtain ⟨t, ht, hsteady, -⟩ := frame_next hw h hn hd
      exact awaiting_hand (hw.next hn) ht (hsteady.awaiting hs) hd
  | _ => exact absurd rfl hout

end Happenings

/-! ## The deadline comes -/

section Coming

theorem Within.with_clock (h : Within w c s) (clock : Clock Delivery) :
    Within ({ w with clock } : World) c { s with clock } :=
  ⟨h.id, h.conn, h.leg, h.phone, h.player, rfl, h.toneType, h.emergency⟩

/-- The connection handles at once what waits, if it handles events as they arrive. -/
theorem ready_eq (hw : w.Orderly) (h : Within w c s) (hopen : s.conn.closed = false)
    (hreceiver : s.conn.mailbox.receiverGone = false) :
    w.ready c = if s.conn.driven then
      List.replicate s.conn.mailbox.waiting.length (.deed c .fetch) else [] := by
  have hshut : s.conn.mailbox.shutDown = false :=
    (hw.shut _ (List.mem_of_getElem? h.conn)).trans hopen
  unfold ready
  rw [h.conn]
  simp [Mailbox.accepts, hshut, hreceiver]

/-- **When the timer of the deadline comes due**, it is the time of the deadline, and the deadline
waits in the mailbox. -/
theorem awaits_ring (hw : w.Orderly) (h : w.Awaits c due) (hring : w.Rings c limit) :
    (w.happen (.expire limit)).clock.now = due ∧ due ≤ limit ∧
      ∃ s a, Within (w.happen (.expire limit)) c s ∧ s.Coming a := by
  obtain ⟨s, a, h, hs⟩ := h
  obtain ⟨g, clock, hn⟩ := hring
  obtain ⟨u, hu, hjob, hle, -, rfl⟩ := Clock.next?_eq_some hn
  have hmem : u ∈ s.deadlines := mem_deadlines h hu (by rw [hjob]) (by rw [hjob]; rfl)
  rw [hs.timer, List.mem_singleton] at hmem
  obtain rfl : g = a.generation := by
    rw [hmem] at hjob
    exact (Event.missed.inj (congrArg Delivery.event hjob)).symm
  have hdeadlines : ({ s with clock := { w.clock.cancel u.id with now := u.due } } :
      Scene).deadlines = [] := by
    have hfilter : ({ s with clock := { w.clock.cancel u.id with now := u.due } } :
        Scene).deadlines = s.deadlines.filter (·.id != u.id) := by
      unfold Scene.deadlines Clock.cancel
      rw [h.clock, List.filter_filter]
      dsimp only
      rw [List.filter_filter]
      exact List.filter_congr fun t _ => Bool.and_comm _ _
    rw [hfilter, hs.timer, hmem]
    simp
  have hacc : s.conn.mailbox.accepts = true := by
    have hshut : s.conn.mailbox.shutDown = false :=
      (hw.shut _ (List.mem_of_getElem? h.conn)).trans hs.opened
    simp [Mailbox.accepts, hshut, hs.receiver]
  have hin := h.with_clock { w.clock.cancel u.id with now := u.due }
  have hcome := hs.come hacc _ hdeadlines
  have hhappen : w.happen (.expire limit) =
      ({ w with clock := { w.clock.cancel u.id with now := u.due } } : World).hand
        ⟨c, .missed a.generation⟩ := by
    rw [happen, hn]
  rw [hhappen, hand, onScene_of_within hin]
  refine ⟨?_, ?_, _, a, hin.putScene (anchored_act _ (by simp)), hcome⟩
  · rw [putScene_clock]
    show u.due = due
    rw [hmem]
  · rw [hmem] at hle
    exact hle

end Coming

end World

end CdmaCall
