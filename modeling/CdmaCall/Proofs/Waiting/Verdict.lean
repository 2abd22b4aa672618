import CdmaCall.Proofs.Waiting.Course

/-!
# What a run has made of a deadline

After any part of a run the deadline of a connection is undecided or decided: void, because
something made it void before it was due, or counted, because it was handled when it was due. The
moments of the run so far tell which. One happening, the timers of an advance and whole requests
take one of these accounts to the next.
-/

namespace CdmaCall

/-- Whether a happening takes no time. -/
def Happening.isTimeless : Happening → Bool
  | .expire _ | .pass _ => false
  | _ => true

/-- The connection handles its deadline when it is due: the leg that it is bound to is asked to hang
up, nothing happens to other legs, and the call has ended as missed. -/
structure Moment.Clears (c : ConnId) (due : ℕ) (m : Moment) : Prop where
  time : m.time = due
  leg : ∃ k l leg, m.before.conns[c]? = some k ∧ k.leg = some l ∧ m.before.legs[l]? = some leg ∧
    m.after.legs = m.before.legs.set l leg.hangUp.2
  ended : ∃ k, m.after.conns[c]? = some k ∧ k.phase = .disconnected ∧
    k.cause = some .incomingMissed ∧ k.guard.isArmed = false

namespace World

open Scene

variable {w : World} {c : ConnId} {s : Scene} {a : Deadline} {due limit : ℕ} {l : Happening}
  {ms : List Moment} {hs : List Happening}

/-! ## Definitions -/

section Defs

/-- Nothing has happened to the deadline of `c` yet. -/
structure Undecided (c : ConnId) (due : ℕ) (ms : List Moment) (w : World) : Prop where
  awaits : w.Awaits c due
  deaf : ms.filter (·.hears c) = []
  calm : ∀ m ∈ ms, ¬m.voids c

/-- The deadline of `c` is decided for good. -/
inductive Decided (c : ConnId) (due : ℕ) (ms : List Moment) (w : World) : Prop
  | void (h : w.Void c) (deaf : ms.filter (·.hears c) = []) (untagged : ∀ m ∈ ms, ¬m.tags c)
      (hvoid : ∃ m ∈ ms, m.time < due ∧ m.voids c)
  | missed (h : w.Missed c due) (m : Moment) (heard : ms.filter (·.hears c) = [m])
      (clears : m.Clears c due) (calm : ∀ m ∈ ms, m.time < due → ¬m.voids c)

/-- Connection `c` handles events as they arrive. -/
def Drives (w : World) (c : ConnId) : Prop := ∃ k, w.conns[c]? = some k ∧ k.driven = true

end Defs

/-! ## Time -/

section Time

theorem now_hand (hw : w.Orderly) (d : Delivery) : (w.hand d).clock.now = w.clock.now :=
  now_deed hw d.target (.post d.event)

theorem now_happen (hw : w.Orderly) (ht : l.isTimeless = true) :
    (w.happen l).clock.now = w.clock.now := by
  cases l with
  | deed i d => exact now_deed hw i d
  | release l => rw [happen, hangUpLeg]; cases w.legs[l]? <;> rfl
  | confirm p =>
    rw [happen]
    cases hp : w.phones[p]?.bind (·.releaseBurst) with
    | none => rfl
    | some taken => exact now_hand (hw.give hp) _
  | expire limit => cases ht
  | pass limit => cases ht
  | _ => rfl

/-- Time does not run backwards. -/
theorem now_le_happen (hw : w.Orderly) (hf : l.Fits w) :
    w.clock.now ≤ (w.happen l).clock.now := by
  by_cases ht : l.isTimeless = true
  · exact (now_happen hw ht).ge
  · cases l with
    | expire limit =>
      rw [happen]
      cases hn : w.clock.next? limit with
      | none => exact le_rfl
      | some next =>
        show w.clock.now ≤ (({ w with clock := next.2 } : World).hand next.1).clock.now
        rw [now_hand (hw.next hn)]
        obtain ⟨u, hu, -, -, -, hclock⟩ := Clock.next?_eq_some hn
        show w.clock.now ≤ next.2.now
        rw [hclock]
        exact hw.clock.ahead u hu
    | pass limit => exact hf.1
    | _ => exact absurd rfl ht

end Time

/-! ## Connections that handle events as they arrive -/

section Driving

theorem driven_act (hs : s.conn.driven = true) (d : Deed) : (s.act d).conn.driven = true := by
  cases d with
  | close =>
    show s.close.conn.driven = true
    unfold close
    split_ifs <;> exact hs
  | fetch =>
    show s.fetch.conn.driven = true
    unfold Scene.fetch
    cases s.conn.mailbox.waiting with
    | nil => exact hs
    | cons e rest => exact (undisturbed_handle _ e).driven.trans hs
  | post e => exact hs
  | attend => rfl
  | retire => exact hs
  | _ => exact (undisturbed_act s rfl).driven.trans hs

theorem Drives.deed (h : w.Drives c) (i : ConnId) (d : Deed) :
    (w.happen (.deed i d)).Drives c := by
  obtain ⟨k, hk, hd⟩ := h
  rcases within_or_le w i with ⟨s, hin⟩ | hle
  · rw [happen, onScene_of_within hin]
    by_cases hi : c = i
    · subst hi
      obtain rfl := hin.conn_eq hk
      exact ⟨_, hin.putScene_same _, driven_act hd d⟩
    · exact ⟨k, (putScene_other hi _).trans hk, hd⟩
  · rw [happen, onScene_of_none hle]
    exact ⟨k, hk, hd⟩

/-- Nothing stops a connection from handling events. -/
theorem Drives.happen (h : w.Drives c) (l : Happening) : (w.happen l).Drives c := by
  cases l with
  | deed i d => exact h.deed i d
  | enlist o =>
    obtain ⟨k, hk, hd⟩ := h
    exact ⟨k, (List.getElem?_append_left (List.getElem?_eq_some_iff.1 hk).1).trans hk, hd⟩
  | assign i l =>
    obtain ⟨k, hk, hd⟩ := h
    have hget := setLeg_getElem? w i l c
    rw [hk] at hget
    by_cases hi : i = c
    · rw [if_pos hi] at hget
      exact ⟨_, hget, hd⟩
    · rw [if_neg hi] at hget
      exact ⟨k, hget, hd⟩
  | confirm p =>
    rw [World.happen]
    cases w.phones[p]?.bind (·.releaseBurst) with
    | none => exact h
    | some taken =>
      have hset : ({ w with phones := w.phones.set p taken.2 } : World).Drives c := h
      exact hset.deed taken.1 (.post .burstConfirmed)
  | expire limit =>
    rw [World.happen]
    cases w.clock.next? limit with
    | none => exact h
    | some next =>
      have hclock : ({ w with clock := next.2 } : World).Drives c := h
      exact hclock.deed next.1.target (.post next.1.event)
  | release l => rw [World.happen, hangUpLeg]; cases w.legs[l]? <;> exact h
  | _ => exact h

theorem Drives.after (h : w.Drives c) (hs : List Happening) : (w.after hs).Drives c := by
  induction hs generalizing w with
  | nil => exact h
  | cons l hs ih => exact ih (h.happen l)

end Driving

/-! ## One happening -/

section Happenings

/-- Nothing that is ordinary hands over a deadline, and none waits. -/
theorem hears_eq_false (h : Within w c s) (hmail : ∀ e ∈ s.conn.mailbox.waiting, e.isMissed = false)
    (ho : l.Ordinary c) : Moment.hears c ⟨w, l⟩ = false := by
  cases l with
  | deed i d =>
    by_cases hi : i = c
    · subst hi
      cases d with
      | handle e =>
        have he : e.isMissed = false := by simpa [Deed.isOrdinary] using (ho rfl).1
        simp [Moment.hears, he]
      | fetch =>
        have hhead : s.conn.mailbox.waiting.head?.any Event.isMissed = false := by
          cases hw : s.conn.mailbox.waiting with
          | nil => rfl
          | cons e rest => exact hmail e (hw ▸ List.mem_cons_self ..)
        simp [Moment.hears, h.conn, hhead]
      | _ => rfl
    · cases d <;> simp [Moment.hears, hi]
  | _ => rfl

/-- Of the moments so far and of one more. -/
theorem forall_moment {P : Moment → Prop} {m : Moment} (h : ∀ m ∈ ms, P m) (hm : P m) :
    ∀ m' ∈ ms ++ [m], P m' :=
  List.forall_mem_append.2 ⟨h, List.forall_mem_singleton.2 hm⟩

theorem filter_append_of_not {m : Moment} (hm : m.hears c = false) :
    (ms ++ [m]).filter (·.hears c) = ms.filter (·.hears c) := by
  simp [hm]

theorem not_tags_of_within {m : Moment} (h : Within m.after c s)
    (hcause : s.conn.cause ≠ some .incomingMissed) : ¬m.tags c := by
  rintro ⟨k, hk, hset⟩
  obtain rfl := h.conn_eq hk
  exact hcause hset

/-- A decision stands. -/
theorem Decided.next (h : Decided c due ms w) (hw : w.Orderly) (hf : l.Fits w)
    (ho : l.Ordinary c) : Decided c due (ms ++ [⟨w, l⟩]) (w.happen l) := by
  cases h with
  | void h deaf untagged hvoid =>
    obtain ⟨s, hin, hs, hcause⟩ := h
    obtain ⟨t, ht, hset⟩ := over_happen hw hin hs hf ho
    have hcause' : t.conn.cause ≠ some .incomingMissed := by
      rcases hset.cause with hsame | ⟨x, hx, hother⟩
      · rw [hsame]
        exact hcause
      · rw [hother]
        simpa using hx
    refine .void ⟨t, ht, hset.stillOver, hcause'⟩ ?_ ?_ ?_
    · rw [filter_append_of_not (hears_eq_false hin hs.mail ho), deaf]
    · exact forall_moment untagged (not_tags_of_within ht hcause')
    · obtain ⟨m, hm, hv⟩ := hvoid
      exact ⟨m, List.mem_append_left _ hm, hv⟩
  | missed h m heard clears calm =>
    obtain ⟨hnow, s, hin, hs, hterm, hcause⟩ := h
    obtain ⟨t, ht, hset⟩ := over_happen hw hin hs hf ho
    obtain ⟨hterm', hcause'⟩ := hset.stays hterm
    refine .missed ⟨hnow.trans (now_le_happen hw hf), t, ht, hset.stillOver, hterm',
      hcause'.trans hcause⟩ m ?_ clears ?_
    · rw [filter_append_of_not (hears_eq_false hin hs.mail ho), heard]
    · exact forall_moment calm fun hlt => absurd hlt hnow.not_gt

theorem Decided.after (h : Decided c due ms w) (hw : w.Orderly) (hf : w.Fitting hs)
    (ho : ∀ l ∈ hs, l.Ordinary c) : Decided c due (ms ++ w.moments hs) (w.after hs) := by
  induction hs generalizing w ms with
  | nil => simpa [moments] using h
  | cons l hs ih =>
    have hnext := h.next hw hf.1 (ho l (List.mem_cons_self ..))
    have hrest := ih hnext (hw.happen hf.1) hf.2 fun l' hl' => ho l' (List.mem_cons_of_mem _ hl')
    simpa [moments] using hrest

/-- Before the deadline comes, whatever happens leaves it undecided or makes it void. -/
theorem Undecided.next (h : Undecided c due ms w) (hw : w.Orderly) (hf : l.Fits w)
    (ho : l.Ordinary c) (hring : ∀ limit, l = .expire limit → ¬w.Rings c limit) :
    Undecided c due (ms ++ [⟨w, l⟩]) (w.happen l) ∨
      (w.clock.now < due → Decided c due (ms ++ [⟨w, l⟩]) (w.happen l)) ∧
        ∃ d, l = .deed c d ∧ d ≠ .fetch := by
  obtain ⟨s, a, hin, hs⟩ := h.awaits
  have hdeaf : (ms ++ [Moment.mk w l]).filter (·.hears c) = [] := by
    rw [filter_append_of_not (hears_eq_false hin hs.mail ho), h.deaf]
  rcases awaits_happen hw h.awaits hf ho hring with ⟨hawaits, hcalm⟩ | ⟨hvoid, hvoids, hdeed⟩
  · exact .inl ⟨hawaits, hdeaf, forall_moment h.calm hcalm⟩
  · have hold : ∀ m ∈ ms, ¬m.tags c := fun m hm htags => h.calm m hm (Moment.voids_of_tags htags)
    have hnew : ¬Moment.tags c ⟨w, l⟩ := by
      obtain ⟨t, ht, -, hcause⟩ := hvoid
      exact not_tags_of_within ht hcause
    exact .inr ⟨fun hnow => .void hvoid hdeaf (forall_moment hold hnew)
      ⟨_, List.mem_append_right _ (List.mem_singleton_self _), hnow, hvoids⟩, hdeed⟩

/-- Handling events and letting other timers come due never decides. -/
theorem Undecided.still (h : Undecided c due ms w) (hw : w.Orderly) (hf : l.Fits w)
    (ho : l.Ordinary c) (hring : ∀ limit, l = .expire limit → ¬w.Rings c limit)
    (hfetch : ∀ d, l = .deed c d → d = .fetch) :
    Undecided c due (ms ++ [⟨w, l⟩]) (w.happen l) := by
  rcases h.next hw hf ho hring with hnext | ⟨-, d, hd, hnot⟩
  · exact hnext
  · exact absurd (hfetch d hd) hnot

end Happenings

/-! ## Several happenings -/

section Courses

/-- **Before the deadline**, a course that takes no time leaves it undecided or makes it void. -/
theorem Undecided.after (h : Undecided c due ms w) (hnow : w.clock.now < due) (hw : w.Orderly)
    (hf : w.Fitting hs) (ho : ∀ l ∈ hs, l.Ordinary c) (ht : ∀ l ∈ hs, l.isTimeless = true) :
    Undecided c due (ms ++ w.moments hs) (w.after hs) ∧ (w.after hs).clock.now < due ∨
      Decided c due (ms ++ w.moments hs) (w.after hs) := by
  induction hs generalizing w ms with
  | nil => exact .inl ⟨by simpa [moments] using h, hnow⟩
  | cons l hs ih =>
    have htime := ht l (List.mem_cons_self ..)
    have hord := ho l (List.mem_cons_self ..)
    have ho' : ∀ l' ∈ hs, l'.Ordinary c := fun l' hl' => ho l' (List.mem_cons_of_mem _ hl')
    have hring : ∀ limit, l = .expire limit → ¬w.Rings c limit := by
      rintro limit rfl
      cases htime
    have happend : ms ++ w.moments (l :: hs) = ms ++ [⟨w, l⟩] ++ (w.happen l).moments hs := by
      simp [moments]
    rw [happend]
    rcases h.next hw hf.1 hord hring with hnext | ⟨hnext, -⟩
    · exact ih hnext (by rwa [now_happen hw htime]) (hw.happen hf.1) hf.2 ho'
        fun l' hl' => ht l' (List.mem_cons_of_mem _ hl')
    · exact .inr ((hnext hnow).after (hw.happen hf.1) hf.2 ho')

theorem ordinary_of_minor (hl : l.isMinor = true) : l.Ordinary c := by
  cases l with
  | deed i d =>
    refine fun _ => ⟨?_, ?_⟩
    · cases d with
      | post e => cases e <;> first | rfl | cases hl
      | _ => first | rfl | cases hl
    · rintro rfl
      cases hl
  | _ => trivial

theorem Undecided.fetches (n : ℕ) (h : Undecided c due ms w) (hw : w.Orderly) (i : ConnId) :
    Undecided c due (ms ++ w.moments (List.replicate n (.deed i .fetch)))
      (w.after (List.replicate n (.deed i .fetch))) := by
  induction n generalizing w ms with
  | zero => simpa [moments] using h
  | succ n ih =>
    have hord : (Happening.deed i .fetch).Ordinary c := ordinary_of_minor rfl
    have hnext := h.still (l := .deed i .fetch) hw trivial hord (by simp) (by simp)
    simpa [List.replicate_succ, moments] using ih hnext (hw.deed i .fetch)

/-- The moment at which the deadline is handled. -/
theorem clears_of_coming (h : Within w c s) (hs : s.Coming a) (hnow : w.clock.now = due)
    (hphase : s.fetch.conn.phase = .disconnected)
    (hcause : s.fetch.conn.cause = some .incomingMissed) (hover : s.fetch.Over)
    (hleg : s.fetch.leg = s.leg.map (·.hangUp.2)) :
    Moment.Clears c due ⟨w, .deed c .fetch⟩ := by
  have hafter : (Moment.mk w (.deed c .fetch)).after = w.putScene c s.fetch :=
    onScene_of_within h _
  obtain ⟨l, hl, -⟩ := h.leg_isSome.1 hs.leg
  obtain ⟨leg, hget⟩ := Option.isSome_iff_exists.1 hs.leg
  have hplace : w.legs[l]? = some leg := by
    rw [h.leg, hl] at hget
    exact hget
  refine ⟨hnow, ⟨s.conn, l, leg, h.conn, hl, hplace, ?_⟩, s.fetch.conn, ?_, hphase, hcause, ?_⟩
  · rw [hafter]
    show place w.legs (w.legAt c) s.fetch.leg = _
    rw [h.legAt, hl, hleg, hget]
    rfl
  · rw [hafter]
    exact h.putScene_same _
  · simp [Guard.isArmed, hover.unarmed]

/-- **When the deadline has come**, handling what waits decides that it counts. -/
theorem decided_of_coming (n : ℕ) (hw : w.Orderly) (h : Within w c s) (hs : s.Coming a)
    (hnow : w.clock.now = due) (hlen : s.conn.mailbox.waiting.length ≤ n)
    (deaf : ms.filter (·.hears c) = []) (calm : ∀ m ∈ ms, m.time < due → ¬m.voids c) :
    Decided c due (ms ++ w.moments (List.replicate n (.deed c .fetch)))
      (w.after (List.replicate n (.deed c .fetch))) := by
  induction n generalizing w s ms with
  | zero =>
    obtain ⟨front, back, hwait, -⟩ := hs.mail
    simp [hwait] at hlen
  | succ n ih =>
    have hin : Within (w.happen (.deed c .fetch)) c s.fetch := by
      rw [happen, onScene_of_within h]
      exact h.putScene (anchored_fetch s)
    have hlate : (w.happen (.deed c .fetch)).clock.now = due := (now_deed hw c .fetch).trans hnow
    have hcalm : ∀ m ∈ ms ++ [⟨w, .deed c .fetch⟩], m.time < due → ¬m.voids c :=
      forall_moment calm fun hlt => absurd hlt hnow.ge.not_gt
    have happend : ms ++ w.moments (List.replicate (n + 1) (.deed c .fetch)) =
        ms ++ [⟨w, .deed c .fetch⟩] ++
          (w.happen (.deed c .fetch)).moments (List.replicate n (.deed c .fetch)) := by
      simp [List.replicate_succ, moments]
    have hhears : Moment.hears c ⟨w, .deed c .fetch⟩ =
        s.conn.mailbox.waiting.head?.any Event.isMissed := by
      simp [Moment.hears, h.conn]
    rw [happend, List.replicate_succ, after_cons]
    rcases hs.fetch with ⟨hhead, hcoming⟩ | ⟨hhead, hover, hphase, hcause, hleg⟩
    · refine ih (hw.deed c .fetch) hin hcoming hlate ?_ ?_ hcalm
      · rw [mailbox_fetch, List.length_tail]
        omega
      · rw [filter_append_of_not (hhears.trans hhead), deaf]
    · have hdecided : Decided c due (ms ++ [⟨w, .deed c .fetch⟩]) (w.happen (.deed c .fetch)) := by
        refine .missed ⟨hlate.ge, s.fetch, hin, hover, by rw [hphase]; rfl, hcause⟩
          ⟨w, .deed c .fetch⟩ ?_ (clears_of_coming h hs hnow hphase hcause hover hleg) hcalm
        simp [deaf, hhears, hhead]
      exact hdecided.after (hw.deed c .fetch) (fitting_fetches n _ c) fun l hl =>
        ordinary_of_minor (minor_fetches hl)

/-! ### Timers -/

theorem ordinary_timers {fuel : ℕ} (hl : l ∈ timerCourse limit fuel w) : l.Ordinary c := by
  rcases mem_timerCourse hl with ⟨i, rfl⟩ | rfl | rfl
  · exact ordinary_of_minor rfl
  · trivial
  · trivial

/-- When the clock is set and the deadline still waits, it is later. -/
theorem Undecided.pass (h : Undecided c due ms w) (hw : w.Orderly)
    (hf : (Happening.pass limit).Fits w) :
    Undecided c due (ms ++ w.moments [.pass limit]) (w.after [.pass limit]) ∧
      (w.after [.pass limit]).clock.now < due :=
  ⟨h.still hw hf trivial (by simp) (by simp), h.awaits.lt hf.2⟩

/-- **When the timer of the deadline comes due** at a connection that handles events as they arrive,
the deadline counts. -/
theorem Undecided.ring (h : Undecided c due ms w) (hw : w.Orderly) (hd : w.Drives c)
    (hring : w.Rings c limit) :
    let w' := w.happen (.expire limit)
    Decided c due (ms ++ [⟨w, .expire limit⟩] ++ w'.moments (w'.ready c))
      (w'.after (w'.ready c)) := by
  intro w'
  obtain ⟨hnow, -, t, a, ht, hcoming⟩ := awaits_ring hw h.awaits hring
  have hw' : w'.Orderly := hw.happen trivial
  obtain ⟨k, hk, hdriven⟩ := hd.happen (.expire limit)
  obtain rfl := ht.conn_eq hk
  rw [ready_eq hw' ht hcoming.opened hcoming.receiver, if_pos hdriven]
  refine decided_of_coming _ hw' ht hcoming hnow le_rfl ?_ fun m hm _ => ?_
  · rw [filter_append_of_not rfl, h.deaf]
  · have hnot : ¬Moment.voids c ⟨w, .expire limit⟩ :=
      Moment.not_voids (fun k hk => ht.conn_eq hk ▸ hcoming.cause) (by simp) (by simp)
    exact forall_moment h.calm hnot m hm

/-- **An advance** decides about a deadline that comes due, and ends before any other. -/
theorem Undecided.timers {fuel : ℕ} (h : Undecided c due ms w) (hw : w.Orderly) (hd : w.Drives c)
    (hfuel : w.workload ≤ fuel) (hnow : w.clock.now ≤ limit) :
    let hs := timerCourse limit fuel w
    Undecided c due (ms ++ w.moments hs) (w.after hs) ∧ (w.after hs).clock.now < due ∨
      Decided c due (ms ++ w.moments hs) (w.after hs) := by
  intro hs
  have hfit : w.Fitting hs := fitting_timers hw hfuel hnow
  induction fuel generalizing w ms with
  | zero => exact .inl (h.pass hw hfit.1)
  | succ fuel ih =>
    cases hn : w.clock.next? limit with
    | none =>
      have hcourse : hs = [.pass limit] := timerCourse_none hn fuel
      rw [hcourse] at hfit ⊢
      exact .inl (h.pass hw hfit.1)
    | some next =>
      obtain ⟨d, clock⟩ := next
      set w' := w.happen (.expire limit)
      set rest := timerCourse limit fuel (w'.after (w'.ready d.target))
      have hdeliver : (({ w with clock } : World).deliver d).2 = w'.after (w'.ready d.target) :=
        deliver_next hn
      have hcourse : hs = .expire limit :: (w'.ready d.target ++ rest) := timerCourse_some hn fuel
      have happend : ms ++ w.moments (.expire limit :: (w'.ready d.target ++ rest)) =
          ms ++ [⟨w, .expire limit⟩] ++ w'.moments (w'.ready d.target) ++
            (w'.after (w'.ready d.target)).moments rest := by
        simp [moments, moments_append, w']
      rw [hcourse] at hfit ⊢
      obtain ⟨-, hrest⟩ := fitting_append.1 hfit.2
      have hw' : w'.Orderly := hw.happen trivial
      obtain ⟨hready', hload, hle⟩ := orderly_next hw hn
      rw [hdeliver] at hready' hload hle
      rw [happend, after_cons, after_append]
      by_cases hring : w.Rings c limit
      · have htarget : d.target = c := by
          obtain ⟨g, clock', hn'⟩ := hring
          rw [hn] at hn'
          exact congrArg Delivery.target (Prod.mk.inj (Option.some.inj hn')).1
        have hdecided := h.ring hw hd hring
        rw [← htarget] at hdecided ⊢
        exact .inr (hdecided.after hready' hrest fun l hl => ordinary_timers hl)
      · have hnext := h.still (l := .expire limit) hw trivial trivial
          (fun limit' he => by cases he; exact hring) (by simp)
        obtain ⟨n, hready⟩ := ready_eq_fetches w' d.target
        have hfetched := hnext.fetches n hw' d.target
        rw [← hready] at hfetched
        exact ih hfetched hready' ((hd.happen _).after _) (by omega) hle hrest

end Courses

end World

end CdmaCall
