import CdmaCall.Proofs.Dtmf.Handover
import CdmaCall.Proofs.Dtmf.Outstanding
import CdmaCall.Proofs.Session.Advance

/-!
# While nobody asks for tones

A moment is calm for a connection if nobody asks it for digits or closes it, the phone that serves
it confirms by itself, and no event waits while time passes. Its tones change then only where it
handles a confirmation (`tones_happen`), and until it does the confirmation that it expects is on
the clock or waits in its mailbox (`Expects.happen`). Requests that leave the tones of a connection
alone make calm moments (`calm_moments`).
-/

namespace CdmaCall

section Defs

/-- Whether a request leaves the tones of connection `c` alone. -/
def Op.sparesTones (c : ConnId) : Op → Bool
  | .play i _ | .keys i _ | .close i => i != c
  | _ => true

/-- Nobody asks connection `c` for digits, closes it, or ends the reception of its events. -/
structure Happening.SparesTones (c : ConnId) (x : Happening) : Prop where
  plays : ∀ d, x = .deed c d → d.plays = false
  stays : ¬x.Leaves c

namespace World

/-- A confirmation for connection `c` arrives by `limit`, or waits already. -/
def Expects (w : World) (c : ConnId) (limit : ℕ) : Prop :=
  (∃ t ∈ w.clock.pending, t.job = ⟨c, .burstConfirmed⟩ ∧ t.due ≤ limit) ∨
    .burstConfirmed ∈ w.waiting c ∧ w.clock.now ≤ limit

end World

/-- Nothing at this moment keeps the tones of connection `c` from draining. -/
structure Moment.Calm (c : ConnId) (delay : ℕ) (m : Moment) : Prop where
  orderly : m.before.Orderly
  fits : m.what.Fits m.before
  attended : m.before.Attended c
  spares : m.what.SparesTones c
  phone : m.before.SelfConfirms c
  within : m.before.ConfirmsWithin delay
  caughtUp : m.what.isTimeless = false → m.before.CaughtUp

end Defs

namespace Scene

variable {s : Scene} {d : Deed} {t : Timer Delivery}

/-! ### Deeds that leave the tones alone -/

section Sparing

/-- Tones change only by requests for digits, by confirmations and by closing. -/
theorem tones_act (hplays : d.plays = false) (hclose : d ≠ .close)
    (he : s.event? d ≠ some .burstConfirmed) : (s.act d).conn.tones = s.conn.tones := by
  by_cases hbits : d.ofBits = true
  · exact tones_path (path_act s hbits)
  cases d with
  | play | keys => cases hplays
  | close => exact absurd rfl hclose
  | handle e => exact tones_path (path_handle s fun h => he (h ▸ rfl))
  | fetch =>
    unfold act fetch
    cases hw : s.conn.mailbox.waiting with
    | nil => rfl
    | cons e rest =>
      have hne : e ≠ .burstConfirmed := by
        rintro rfl
        exact he (by rw [event?, hw]; rfl)
      have hpath := path_handle (s.putMail { s.conn.mailbox with waiting := rest }) hne
      exact (tones_path hpath).trans rfl
  | post | attend | retire => rfl
  | arm =>
    rw [act, arm_eq]
    split_ifs <;> rfl
  | _ => exact absurd rfl hbits

/-- A confirmation that waits goes on waiting until it is handled. -/
theorem waits_act (hw : .burstConfirmed ∈ s.conn.mailbox.waiting) (hclose : d ≠ .close)
    (hretire : d ≠ .retire) (he : s.event? d ≠ some .burstConfirmed) :
    .burstConfirmed ∈ (s.act d).conn.mailbox.waiting := by
  cases d with
  | close => exact absurd rfl hclose
  | retire => exact absurd rfl hretire
  | post e =>
    unfold act Mailbox.post
    split_ifs
    · exact List.mem_append_left _ hw
    · exact hw
  | attend => exact hw
  | fetch =>
    show _ ∈ s.fetch.conn.mailbox.waiting
    rw [mailbox_fetch]
    cases hwaiting : s.conn.mailbox.waiting with
    | nil => simp [hwaiting] at hw
    | cons e rest =>
      rw [hwaiting] at hw
      rcases List.mem_cons.1 hw with rfl | hrest
      · exact absurd (by rw [event?, hwaiting]; rfl) he
      · exact hrest
  | _ => rwa [(undisturbed_act s rfl).mailbox]

/-- **No deed takes a confirmation off the clock.** -/
theorem mem_act (hs : s.Timed) (d : Deed) (ht : t ∈ s.clock.pending)
    (hjob : t.job.event = .burstConfirmed) : t ∈ (s.act d).clock.pending := by
  have hkeys {s' : Scene} (h : KeyPath s s') : t ∈ s'.clock.pending := by
    refine (KeyPath.keeps (R := fun u => u.Timed ∧ t ∈ u.clock.pending) (fun u u' hb hu => ?_) h
      ⟨hs, ht⟩).2
    refine ⟨(onward_keyBit hu.1 hb).timed, ?_⟩
    cases hb with
    | quiet hb => exact mem_of_path hu.1 (Path.of_bit hb) hu.2 hjob
    | queue => exact hu.2
    | send digits => exact mem_perform _ _ hu.2
  have hdisarm : t ∈ s.disarm.clock.pending :=
    mem_of_path hs (Path.of_bit (Bit.disarm s)) ht hjob
  by_cases hbits : d.ofBits = true
  · exact mem_of_path hs (path_act s hbits) ht hjob
  cases d with
  | play digit => exact hkeys (keyPath_playTone s digit)
  | keys digits => exact hkeys (keyPath_pressKeys digits s)
  | close =>
    by_cases hclosed : s.conn.closed = true
    · rwa [act, close, if_pos hclosed]
    · rw [act, close_eq s (by simpa using hclosed)]
      exact hdisarm
  | handle e => exact mem_handle hs e ht hjob
  | fetch => exact mem_fetch hs ht hjob
  | post | attend | retire => exact ht
  | arm =>
    rw [act, arm_eq]
    split_ifs
    · exact List.mem_append_left _ hdisarm
    · exact hdisarm
  | _ => exact absurd rfl hbits

end Sparing

end Scene

namespace World

open Scene

variable {w : World} {c : ConnId} {s : Scene} {x : Happening} {m : Moment} {hs : List Happening}
  {ops : List Op} {limit delay : ℕ} {t : Timer Delivery}

/-! ### What is expected -/

section Expecting

theorem Within.busy (h : Within w c s) : w.busy c = s.conn.tones.pending := by
  rw [World.busy, h.conn]
  rfl

theorem Within.busy_deed (h : Within w c s) (d : Deed) :
    (w.happen (.deed c d)).busy c = (s.act d).conn.tones.pending := by
  rw [World.busy, h.conn_deed]
  rfl

theorem Within.queueOf_deed (h : Within w c s) (d : Deed) :
    (w.happen (.deed c d)).queueOf c = (s.act d).conn.tones.queue := by
  rw [World.queueOf, h.conn_deed]
  rfl

/-- **Who handles a confirmation** does so by a deed of its own. -/
theorem confirms_inv (hatt : m.before.Attended c) (h : m.confirms c = true) :
    ∃ s d, Within m.before c s ∧ m.what = .deed c d ∧ s.event? d = some .burstConfirmed := by
  obtain ⟨w, x⟩ := m
  obtain ⟨k, hk, -⟩ := hatt
  obtain ⟨s, hin, -⟩ := exists_within hk
  have hdeed : ∃ d, x = .deed c d := by
    unfold Moment.confirms at h
    split at h
    · next i e hwhat =>
      obtain rfl : i = c := by simpa using (Bool.and_eq_true_iff.1 h).1
      exact ⟨_, hwhat⟩
    · next i hwhat =>
      obtain rfl : i = c := by simpa using (Bool.and_eq_true_iff.1 h).1
      exact ⟨_, hwhat⟩
    · cases h
  obtain ⟨d, rfl⟩ := hdeed
  rw [hin.confirms, beq_iff_eq] at h
  exact ⟨s, d, hin, rfl, h⟩

theorem busy_happen (hx : ∀ d, x ≠ .deed c d) : (w.happen x).busy c = w.busy c :=
  seen_happen (f := (·.tones.pending)) (fun _ => rfl) (fun _ _ => rfl) (fun _ _ => rfl) hx

/-- **A confirmation on the clock** stays there until it is due. -/
theorem mem_happen (hw : w.Orderly) (ht : t ∈ w.clock.pending)
    (hjob : t.job.event = .burstConfirmed) : t ∈ (w.happen x).clock.pending ∨
      ∃ limit, x = .expire limit ∧
        w.clock.next? limit = some (t.job, { w.clock.cancel t.id with now := t.due }) := by
  cases x with
  | deed i d =>
    refine .inl ?_
    rcases within_or_le w i with ⟨s, hin⟩ | hle
    · rw [hin.happen_deed, putScene_clock]
      exact mem_act (hw.timed hin) d (hin.clock ▸ ht) hjob
    · rw [happen, onScene_of_none hle]
      exact ht
  | release l =>
    refine .inl ?_
    rw [happen, hangUpLeg]
    cases w.legs[l]? <;> exact ht
  | confirm p =>
    refine .inl ?_
    rw [happen]
    cases w.phones[p]?.bind (·.releaseBurst) with
    | none => exact ht
    | some taken =>
      show t ∈ (World.hand _ _).clock.pending
      rw [(hand_eq _ _).2]
      exact ht
  | expire limit =>
    rcases hn : w.clock.next? limit with _ | ⟨job, clock⟩
    · rw [happen, hn]
      exact .inl ht
    · obtain ⟨u, hu, rfl, -, -, rfl⟩ := Clock.next?_eq_some hn
      by_cases hid : t.id = u.id
      · obtain rfl := hw.clock.eq_of_id ht hu hid
        exact .inr ⟨limit, rfl, hn⟩
      · refine .inl ?_
        have hclock : (w.happen (.expire limit)).clock = { w.clock.cancel u.id with now := u.due } := by
          simp only [happen, hn]
          exact (hand_eq _ _).2
        rw [hclock]
        exact Clock.mem_cancel.2 ⟨ht, hid⟩
  | _ => exact .inl ht

/-- A confirmation that waits for an attended connection goes on waiting until it is handled. -/
theorem waits_happen (hatt : w.Attended c) (hleaves : ¬x.Leaves c)
    (hconfirms : Moment.confirms c ⟨w, x⟩ = false) (hwaits : .burstConfirmed ∈ w.waiting c) :
    .burstConfirmed ∈ (w.happen x).waiting c := by
  obtain ⟨k, hk, -⟩ := hatt
  have hold : .burstConfirmed ∈ k.mailbox.waiting := by simpa [World.waiting, hk] using hwaits
  obtain ⟨k', hk', hchange⟩ := change_happen hk x
  rw [World.waiting, hk']
  show _ ∈ k'.mailbox.waiting
  cases hchange with
  | none h => exact h ▸ hold
  | deed s d hin hs hx h =>
    subst hs hx h
    rw [hin.confirms, beq_eq_false_iff_ne] at hconfirms
    exact waits_act hold (fun he => hleaves (.inl (he ▸ rfl))) (fun he => hleaves (.inr (he ▸ rfl)))
      hconfirms
  | mail e h =>
    subst h
    unfold Mailbox.post
    split_ifs
    · exact List.mem_append_left _ hold
    · exact hold
  | leg l _ h => exact h ▸ hold

/-- A confirmation that comes due waits for an attended connection. -/
theorem waits_expire (hw : w.Orderly) (hatt : w.Attended c) (hjob : t.job = ⟨c, .burstConfirmed⟩)
    (hn : w.clock.next? limit = some (t.job, { w.clock.cancel t.id with now := t.due })) :
    .burstConfirmed ∈ (w.happen (.expire limit)).waiting c ∧
      (w.happen (.expire limit)).clock.now = t.due := by
  have hhappen : w.happen (.expire limit) =
      ({ w with clock := { w.clock.cancel t.id with now := t.due } } : World).hand t.job := by
    simp only [happen, hn]
  have hatt' := hatt.happen (x := .expire limit) (by rintro (h | h) <;> cases h)
  obtain ⟨k', hk', hatt'⟩ := hatt'
  rw [hhappen] at hk' ⊢
  obtain ⟨k, -, rfl⟩ := conn_hand (hw.next hn) hk' hatt'.opened hatt'.received
  refine ⟨?_, congrArg Clock.now (hand_eq _ _).2⟩
  rw [World.waiting, hk']
  simp [hjob]

/-- **What is expected stays expected** until it is handled. -/
theorem Expects.happen (h : w.Expects c limit) (hm : Moment.Calm c delay ⟨w, x⟩)
    (hconfirms : Moment.confirms c ⟨w, x⟩ = false) : (w.happen x).Expects c limit := by
  rcases h with ⟨t, ht, hjob, hdue⟩ | ⟨hwaits, hnow⟩
  · rcases mem_happen (x := x) hm.orderly ht (by rw [hjob]) with hstays | ⟨limit', rfl, hn⟩
    · exact .inl ⟨t, hstays, hjob, hdue⟩
    · obtain ⟨hwaits, hnow⟩ := waits_expire hm.orderly hm.attended hjob hn
      exact .inr ⟨hwaits, hnow.trans_le hdue⟩
  · -- no time passes while something waits
    have htime : x.isTimeless = true := by
      by_contra htime
      obtain ⟨k, hk, hatt⟩ := hm.attended
      have hnone : k.mailbox.waiting = [] := hm.caughtUp (by simpa using htime) c k hk hatt
      simp [World.waiting, hk, hnone] at hwaits
    have hsame : (w.happen x).clock.now = w.clock.now := now_happen hm.orderly htime
    exact .inr ⟨waits_happen hm.attended hm.spares.stays hconfirms hwaits, hsame.trans_le hnow⟩

theorem Expects.now_le (h : w.Expects c limit) (hw : w.Orderly) : w.clock.now ≤ limit := by
  rcases h with ⟨t, ht, -, hdue⟩ | ⟨-, hnow⟩
  · exact (hw.clock.ahead t ht).trans hdue
  · exact hnow

/-- **Tones change only where a confirmation is handled.** -/
theorem tones_happen (hm : Moment.Calm c delay ⟨w, x⟩)
    (hconfirms : Moment.confirms c ⟨w, x⟩ = false) :
    (w.happen x).queueOf c = w.queueOf c ∧ (w.happen x).busy c = w.busy c := by
  by_cases hx : ∃ d, x = .deed c d
  · obtain ⟨d, rfl⟩ := hx
    obtain ⟨k, hk, -⟩ := hm.attended
    obtain ⟨s, hin, -⟩ := exists_within hk
    rw [hin.confirms, beq_eq_false_iff_ne] at hconfirms
    have htones := tones_act (hm.spares.plays d rfl)
      (fun he => hm.spares.stays (.inl (he ▸ rfl))) hconfirms
    rw [hin.queueOf_deed, hin.busy_deed, hin.queueOf, hin.busy]
    exact ⟨congrArg Transmitter.queue htones, congrArg Transmitter.pending htones⟩
  · have hdeed : ∀ d, x ≠ .deed c d := fun d he => hx ⟨d, he⟩
    exact ⟨queueOf_happen hdeed, busy_happen hdeed⟩

end Expecting

/-! ### Calm runs -/

section Runs

theorem fits_moments (hf : w.Fitting hs) (hm : m ∈ w.moments hs) : m.what.Fits m.before := by
  induction hs generalizing w with
  | nil => cases hm
  | cons x hs ih =>
    rcases List.mem_cons.1 hm with rfl | hm
    · exact hf.1
    · exact ih hf.2 hm

/-- Requests that leave the tones alone come to happenings that do. -/
theorem spares_history (hatt : w.Attended c) (hops : ∀ op ∈ ops, op.sparesTones c = true) :
    .close c ∉ ops ∧ ∀ x ∈ w.history ops, x.SparesTones c := by
  have hclose : .close c ∉ ops := by
    intro hmem
    simpa [Op.sparesTones] using hops _ hmem
  refine ⟨hclose, fun x hx => ⟨?_, (attended_story hatt hclose).2.2 x hx⟩⟩
  rintro d rfl
  rcases routine_or_mem ops w hx with hroutine | ⟨op, hop, hasked⟩
  · cases d <;> first | rfl | cases hroutine
  · have hspares := hops op hop
    cases op <;> simp [Op.happening?] at hasked <;> obtain ⟨rfl, rfl⟩ := hasked <;>
      first | rfl | simp [Op.sparesTones] at hspares

theorem calm_moments (hw : w.Reachable) (hatt : w.Attended c)
    (hops : ∀ op ∈ ops, op.sparesTones c = true) (hphone : ∀ m ∈ w.story ops, m.before.SelfConfirms c)
    (hwithin : w.ConfirmsWithin delay) : ∀ m ∈ w.story ops, m.Calm c delay := by
  obtain ⟨hclose, hspares⟩ := spares_history hatt hops
  have hord := keeps (R := World.Orderly) (P := fun _ => True) (fun _ _ hv hf _ _ => hv.happen hf)
    hw.orderly (fitting_history hw.orderly ops) (fun _ _ => trivial) hw.orderly
  intro m hm
  refine ⟨hord.2 m hm, fits_moments (fitting_history hw.orderly ops) hm,
    (attended_story hatt hclose).2.1 m hm, hspares _ (what_mem hm), hphone m hm, fun n hn => ?_,
    caughtUp_story hw.orderly hw.caughtUp m hm⟩
  exact hwithin n ((delays_run hw.orderly ops).2 m hm ▸ hn)

end Runs

end World

end CdmaCall
