import CdmaCall.Proofs.Lifecycle.Closed
import CdmaCall.Proofs.Session.Requests

/-!
# What a request does to other connections

A request is about one connection, or makes a new one (`Op.about?`). Whatever happens because of it,
the timers that come due included, happens to that connection alone: the others keep all that they
have and show what they showed (`Apart`, `apart_step`). They share legs, a phone, the cue player and
the clock with it, but what is theirs on the clock stays, and none of it comes due.
-/

namespace CdmaCall

section Defs

/-- Which connection a request is about: the one that it is addressed to, or the new one. -/
def Op.about? (w : World) : Op → Option ConnId
  | .connect .. | .cloneConn _ => some w.conns.length
  | op => op.addressee?

/-- What connection `c` shows, if there is such a connection. -/
def World.viewOf (w : World) (c : ConnId) : Option ConnView := (w.scene? c).map Scene.view

/-- Connection `j` is as it was: all that it has, its events and notices included, what it shows,
and what the clock and the phones keep for it. -/
structure World.SameFor (j : ConnId) (w w' : World) : Prop where
  conn : w'.conns[j]? = w.conns[j]?
  view : w'.viewOf j = w.viewOf j
  timers : w'.clock.pending.filter (·.job.target == j) =
    w.clock.pending.filter (·.job.target == j)
  held : w'.heldFor j = w.heldFor j

/-- All that is not connection `i`'s stays: other connections, what the clock and the phones keep
for them, the time, and what is settled about the network. -/
structure World.Apart (i : ConnId) (w w' : World) : Prop where
  conns : ∀ j, j ≠ i → w'.conns[j]? = w.conns[j]?
  timers : w'.clock.pending.filter (·.job.target != i) =
    w.clock.pending.filter (·.job.target != i)
  held : ∀ j, j ≠ i → w'.heldFor j = w.heldFor j
  now : w'.clock.now = w.clock.now
  network : w.SameNetwork w'

end Defs

namespace World

open Scene

variable {w w' w'' start : World} {c i j : ConnId} {s s' : Scene} {x : Happening}
  {hs : List Happening} {op : Op} {limit fuel : ℕ}

theorem SameNetwork.trans (h : SameNetwork w w') (h' : SameNetwork w' w'') : SameNetwork w w'' :=
  ⟨h'.emergency.trans h.emergency, h'.legs.trans h.legs, h'.phones.trans h.phones⟩

namespace Apart

theorem refl (w : World) : Apart i w w :=
  ⟨fun _ _ => rfl, rfl, fun _ _ => rfl, rfl, rfl, rfl, rfl⟩

theorem trans (h : Apart i w w') (h' : Apart i w' w'') : Apart i w w'' where
  conns j hj := (h'.conns j hj).trans (h.conns j hj)
  timers := h'.timers.trans h.timers
  held j hj := (h'.held j hj).trans (h.held j hj)
  now := h'.now.trans h.now
  network := h.network.trans h'.network

/-- The timers of others are those they had. -/
theorem mem_timers (h : Apart i w w') {t : Timer Delivery} (ht : t ∈ w'.clock.pending)
    (hi : t.job.target ≠ i) : t ∈ w.clock.pending := by
  have hmem : t ∈ w'.clock.pending.filter (·.job.target != i) :=
    List.mem_filter.2 ⟨ht, by simpa using hi⟩
  rw [h.timers] at hmem
  exact (List.mem_filter.1 hmem).1

end Apart

/-! ### What happens to one connection -/

section Happenings

/-- Which confirmations run for connection `j` does not depend on the timers of `i`. -/
theorem running_congr (hj : j ≠ i) (h : w'.clock.pending.filter (·.job.target != i) =
    w.clock.pending.filter (·.job.target != i)) : w'.running j = w.running j := by
  have hrunning (w : World) : w.running j =
      (w.clock.pending.filter (·.job.target != i)).countP (·.job == ⟨j, .burstConfirmed⟩) := by
    rw [World.running, List.countP_filter]
    refine List.countP_congr fun t _ => ?_
    by_cases hjob : t.job = ⟨j, .burstConfirmed⟩
    · simp [hjob, hj]
    · simp [hjob]
  rw [hrunning, hrunning, h]

theorem apart_deed (hw : w.Orderly) (i : ConnId) (d : Deed) :
    Apart i w (w.happen (.deed i d)) := by
  have hnetwork := sameNetwork_happen w (.deed i d)
  rcases within_or_le w i with ⟨s, hin⟩ | hle
  · have hon := onward_act (hw.timed hin) d
    have htimers : (s.act d).clock.pending.filter (·.job.target != i) =
        w.clock.pending.filter (·.job.target != i) := by rw [← hin.id, hon.others, hin.clock]
    rw [hin.happen_deed] at hnetwork ⊢
    refine ⟨fun j hj => putScene_other hj _, htimers, fun j hj => ?_,
      hon.now.trans (by rw [hin.clock]), hnetwork⟩
    have hboth := hin.tokens (phone_act s d) j
    have hsame := hon.tokens (hin.id ▸ hj)
    have hrunning : (w.putScene i (s.act d)).running j = w.running j :=
      running_congr hj htimers
    omega
  · rw [happen, onScene_of_none hle]
    exact .refl w

theorem apart_assign (w : World) (i : ConnId) (l : LegId) :
    Apart i w (w.happen (.assign i l)) := by
  refine ⟨fun j hj => ?_, rfl, fun _ _ => rfl, rfl, rfl, rfl, rfl⟩
  rw [happen, setLeg_getElem?, if_neg (Ne.symm hj)]

theorem apart_enlist (w : World) (o : Options) :
    Apart w.conns.length w (w.happen (.enlist o)) := by
  refine ⟨fun j hj => ?_, rfl, fun _ _ => rfl, rfl, rfl, rfl, rfl⟩
  show (w.conns ++ [Conn.fresh o])[j]? = w.conns[j]?
  rcases Nat.lt_or_gt_of_ne hj with hlt | hgt
  · exact List.getElem?_append_left hlt
  · rw [List.getElem?_eq_none (Nat.le_of_lt hgt), List.getElem?_eq_none]
    rw [List.length_append]
    exact hgt

/-- What happens to connection `i` leaves the others alone. -/
theorem apart_happen (hw : w.Orderly) (hx : x.subject? = some i) : Apart i w (w.happen x) := by
  cases x with
  | deed c d =>
    obtain rfl := Option.some.inj hx
    exact apart_deed hw c d
  | assign c l =>
    obtain rfl := Option.some.inj hx
    exact apart_assign w c l
  | _ => cases hx

theorem apart_after (hw : w.Orderly) (hf : w.Fitting hs)
    (hhs : ∀ x ∈ hs, x.subject? = some i) : Apart i w (w.after hs) := by
  induction hs generalizing w with
  | nil => exact .refl w
  | cons x hs ih =>
    have hhead : Apart i w (w.happen x) := apart_happen hw (hhs x (List.mem_cons_self ..))
    exact hhead.trans (ih (hw.happen hf.1) hf.2 fun y hy => hhs y (List.mem_cons_of_mem _ hy))

theorem subject_ready (hx : x ∈ w.ready c) : x.subject? = some c := by
  rw [mem_ready hx]
  rfl

end Happenings

/-! ### Timers that come due -/

section Timers

/-- A timer of connection `i` that is due now comes off the clock. -/
theorem apart_expire (hw : w.Orderly) (hnow : w.clock.now = limit) {d : Delivery}
    {clock : Clock Delivery} (hn : w.clock.next? limit = some (d, clock)) (hd : d.target = i) :
    Apart i w (w.happen (.expire limit)) := by
  have horderly := hw.next hn
  have hpost := apart_deed horderly d.target (.post d.event)
  obtain ⟨t, ht, rfl, hle, -, rfl⟩ := Clock.next?_eq_some hn
  have hdue : t.due = w.clock.now := Nat.le_antisymm (hnow ▸ hle) (hw.clock.ahead t ht)
  have htaken : Apart i w { w with clock := { w.clock.cancel t.id with now := t.due } } := by
    refine ⟨fun _ _ => rfl, ?_, fun _ _ => rfl, hdue, rfl, rfl, rfl⟩
    show (w.clock.pending.filter (·.id != t.id)).filter (·.job.target != i) = _
    rw [List.filter_filter]
    refine List.filter_congr fun u hu => ?_
    by_cases hid : u.id = t.id
    · obtain rfl := hw.clock.eq_of_id hu ht hid
      simp [hd]
    · simp [hid]
  have hexpire : w.happen (.expire limit) =
      ({ w with clock := { w.clock.cancel t.id with now := t.due } } : World).hand t.job := by
    simp only [happen, hn]
  rw [hexpire]
  exact htaken.trans (hd ▸ hpost)

/-- **If nothing of others is due**, only connection `i` hears of timers. -/
theorem apart_timers (hw : w.Orderly) (hnow : w.clock.now = limit)
    (hdue : ∀ t ∈ w.clock.pending, t.job.target ≠ i → limit < t.due) :
    Apart i w (w.after (timerCourse limit fuel w)) := by
  have hpass (w : World) (hnow : w.clock.now = limit) : Apart i w (w.happen (.pass limit)) :=
    ⟨fun _ _ => rfl, rfl, fun _ _ => rfl, hnow.symm, rfl, rfl, rfl⟩
  induction fuel generalizing w with
  | zero => exact hpass w hnow
  | succ fuel ih =>
    cases hn : w.clock.next? limit with
    | none =>
      rw [timerCourse_none hn]
      exact hpass w hnow
    | some next =>
      obtain ⟨d, clock⟩ := next
      have htarget : d.target = i := by
        obtain ⟨t, ht, rfl, hle, -, -⟩ := Clock.next?_eq_some hn
        by_contra hother
        exact absurd (hdue t ht hother) (by omega)
      have hfirst := apart_expire hw hnow hn htarget
      have hw₁ : (w.happen (.expire limit)).Orderly := hw.happen trivial
      set w₁ := w.happen (.expire limit)
      have hready : Apart i w₁ (w₁.after (w₁.ready d.target)) :=
        apart_after hw₁ (fitting_ready _ _) fun x hx => htarget ▸ subject_ready hx
      have hboth := hfirst.trans hready
      rw [timerCourse_some hn, after_cons, after_append]
      exact hboth.trans (ih (hw₁.after (fitting_ready _ _)) (hboth.now.trans hnow)
        fun t ht hi => hdue t (hboth.mem_timers ht hi) hi)

/-- No timer is due between two requests. -/
theorem Reachable.due (h : w.Reachable) : ∀ t ∈ w.clock.pending, w.clock.now < t.due := by
  obtain ⟨start, ops, hfresh, rfl⟩ := h
  have hlast (ops : List Op) : ∀ w : World, w.Orderly →
      (∀ t ∈ w.clock.pending, w.clock.now < t.due) →
      ∀ t ∈ (w.run ops).2.clock.pending, (w.run ops).2.clock.now < t.due := by
    induction ops with
    | nil => exact fun _ _ h => h
    | cons op ops ih => exact fun w hw _ => ih (w.step op).2 (hw.step op) (due_step hw op)
  exact hlast ops start hfresh.orderly (by simp [hfresh.pending])

end Timers

/-! ### Requests -/

section Requests

/-- After it is on the list, everything happens to the new connection. -/
theorem mem_build {leg : Option LegId} {o : Options} (hx : x ∈ (w.buildCourse leg o).tail) :
    x.subject? = some w.conns.length := by
  unfold buildCourse at hx
  rw [List.cons_append, List.tail_cons, List.mem_append] at hx
  rcases hx with hx | hx
  · cases leg with
    | none => cases hx
    | some l => exact subject_bind hx
  · rw [List.mem_singleton.1 hx]
    rfl

theorem apart_build (hw : w.Orderly) (leg : Option LegId) (o : Options) :
    Apart w.conns.length w (w.after (w.buildCourse leg o)) := by
  have hfitting := fitting_build w leg o
  have hcourse : w.buildCourse leg o = .enlist o :: (w.buildCourse leg o).tail := rfl
  rw [hcourse] at hfitting ⊢
  exact (apart_enlist w o).trans
    (apart_after (hw.happen trivial) hfitting.2 fun x hx => mem_build hx)

theorem apart_connect (hw : w.Orderly) (leg : Option LegId) (o : Options) :
    Apart w.conns.length w (w.after (w.connectCourse leg o)) := by
  have hfitting := fitting_connect w leg o
  have hbuild : (w.build leg o).2 = w.after (w.buildCourse leg o) := by rw [build_eq]
  rw [connectCourse, fitting_append, ← hbuild] at hfitting
  rw [connectCourse, after_append, ← hbuild]
  refine (hbuild ▸ apart_build hw leg o).trans (apart_after ?_ hfitting.2 fun x hx => ?_)
  · rw [hbuild]
    exact hw.after hfitting.1
  · rcases mem_armCourse hx with rfl | rfl <;> rfl

/-- What a request asks of a connection happens to that connection. -/
theorem subject_of_addressee (hop : op.addressee? = some i) (hclone : ∀ c, op ≠ .cloneConn c)
    (hx : x ∈ w.course op) : x.subject? = some i := by
  cases op with
  | rebind c l =>
    obtain rfl := Option.some.inj hop
    rw [course] at hx
    split at hx
    · cases hx
    · split_ifs at hx
      · cases hx
      · exact subject_bind hx
  | cloneConn c => exact absurd rfl (hclone c)
  | drain c =>
    obtain rfl := Option.some.inj hop
    rw [course, drainCourse] at hx
    split at hx
    · cases hx
    · rw [List.eq_of_mem_replicate hx]
      rfl
  | drive c =>
    obtain rfl := Option.some.inj hop
    rcases mem_driveCourse hx with rfl | rfl | ⟨rfl, -⟩ <;> rfl
  | connect | advance | toneType | legState | refuseHangup | hangUpLeg | hold | confirm
  | broadcast => cases hop
  | _ =>
    rw [List.mem_singleton.1 hx]
    exact hop

theorem apart_perform (hw : w.Orderly) (hop : op.about? w = some i) :
    Apart i w (w.perform op).2 := by
  rw [perform_snd]
  have hplain (haddressee : op.addressee? = some i) (hclone : ∀ c, op ≠ .cloneConn c) :
      Apart i w (w.after (w.course op)) :=
    apart_after hw (fitting_course hw op) fun x hx => subject_of_addressee haddressee hclone hx
  cases op with
  | connect leg o =>
    obtain rfl := Option.some.inj hop
    exact apart_connect hw leg o
  | cloneConn c =>
    obtain rfl := Option.some.inj hop
    rw [course]
    rcases w.conns[c]? with _ | k
    · exact .refl w
    · exact apart_build hw k.leg k.options
  | _ => exact hplain hop (by simp)

/-- **A request leaves the others alone**, and so do the timers that it makes come due. -/
theorem apart_step (hw : w.Reachable) (hop : op.about? w = some i) : Apart i w (w.step op).2 := by
  have hperform := apart_perform hw.orderly hop
  have horderly : (w.perform op).2.Orderly := by
    rw [perform_snd]
    exact hw.orderly.after (fitting_course hw.orderly op)
  have hsettle : Apart i (w.perform op).2 (w.perform op).2.settle := by
    rw [settle_eq]
    refine apart_timers horderly rfl fun t ht hi => ?_
    rw [hperform.now]
    exact hw.due t (hperform.mem_timers ht hi)
  exact hperform.trans hsettle

/-- A connection that stays as it is shows what it showed. -/
theorem SameNetwork.viewOf (h : SameNetwork w w') (hconn : w'.conns[j]? = w.conns[j]?) :
    w'.viewOf j = w.viewOf j := by
  unfold World.viewOf
  rcases hs : w.scene? j with _ | s
  · have hnone : w'.scene? j = none := by
      rw [scene?_eq_none_iff, ← List.getElem?_eq_none_iff, hconn, List.getElem?_eq_none_iff,
        ← scene?_eq_none_iff, hs]
    rw [hnone]
  · have hin := scene?_eq_some_iff.1 hs
    obtain ⟨s', hin', hsame⟩ := exists_within (hconn.trans hin.conn)
    have hbearer : s'.bearer = s.bearer := by
      rw [← hin'.bearerAt, ← hin.bearerAt]
      exact h.bearerAt (by rw [hin'.legAt, hin.legAt, hsame])
    have hemergency := h.isEmergency hin hin' (by rw [hsame])
    have hcapabilities : s'.capabilities = s.capabilities := by
      unfold capabilities isPacketVoice
      rw [hbearer, hsame]
    have hview : s'.view = s.view := by
      unfold Scene.view snapshot isPacketVoice
      rw [hbearer, hsame, hcapabilities, hemergency]
    rw [scene?_eq_some_iff.2 hin', Option.map_some, Option.map_some, hview]

theorem Apart.sameFor (h : Apart i w w') (hj : j ≠ i) : SameFor j w w' := by
  refine ⟨h.conns j hj, h.network.viewOf (h.conns j hj), ?_, h.held j hj⟩
  have hown (w : World) : w.clock.pending.filter (·.job.target == j) =
      (w.clock.pending.filter (·.job.target != i)).filter (·.job.target == j) := by
    rw [List.filter_filter]
    refine List.filter_congr fun t _ => ?_
    by_cases htarget : t.job.target = j
    · simp [htarget, hj]
    · simp [htarget]
  rw [hown, hown, h.timers]

end Requests

end World

end CdmaCall
