import CdmaCall.Proofs.Waiting.Start

/-!
# The call waiting deadline from end to end

A connection is made on a circuit switched leg that waits, and its events are handled as they
arrive. Whatever is asked for afterwards, its deadline is handled when it is due or never. It is
never handled if the call was answered or closed or a cause was recorded before; otherwise it is
handled once, when it is due, and ends the call (`missed_unless_voided`). It is due when the timeout
is over, or after thirty years if the timeout is longer, so that such a call is missed before its
timeout is over (`missed_before_timeout`).
-/

namespace CdmaCall

/-- Whether a request neither reports connection `c` as disconnected nor hands it a deadline that
its own timer did not deliver. -/
def Op.Fair (c : ConnId) (op : Op) : Prop :=
  op ≠ .enter c .disconnected ∧ ∀ g, op ≠ .handle c (.missed g)

/-- Whether a happening is ordinary for the deadline of connection `c`, and takes no time. -/
def Happening.Plain (c : ConnId) (l : Happening) : Prop := l.Ordinary c ∧ l.isTimeless = true

namespace World

open Scene

variable {w : World} {c : ConnId} {due : ℕ} {ms : List Moment} {op : Op}

/-! ## What requests consist of -/

section Courses

theorem plain_of_minor {l : Happening} (hl : l.isMinor = true) : l.Plain c := by
  refine ⟨ordinary_of_minor hl, ?_⟩
  cases l <;> first | rfl | cases hl

/-- **Whatever is asked for**, except to let time pass. -/
theorem plain_course (hd : w.Drives c) (hfair : op.Fair c) (hop : ∀ n, op ≠ .advance n)
    {l : Happening} (hl : l ∈ w.course op) : l.Plain c := by
  obtain ⟨k, hk, hdriven⟩ := hd
  -- A new connection is another one.
  have hnew (d : Deed) : (Happening.deed w.conns.length d).Plain c :=
    ⟨fun he => absurd he (List.getElem?_eq_some_iff.1 hk).1.ne', rfl⟩
  rcases routine_or_asked hl with hr | ha
  · cases hr with
    | minor hm => exact plain_of_minor hm
    | timer n => exact absurd rfl (hop n)
    | arm leg o => exact hnew .arm
    | abandon leg o => exact hnew .retire
    | attend i => exact ⟨fun _ => ⟨rfl, by decide⟩, rfl⟩
    | leave i k' hk' hidle =>
      refine ⟨fun hi => ?_, rfl⟩
      rw [hi, hk] at hk'
      obtain rfl := Option.some.inj hk'
      rw [hidle] at hdriven
      cases hdriven
  · cases op with
    | enter i p =>
      obtain rfl := Option.some.inj ha
      refine ⟨fun hi => ⟨?_, by simp⟩, rfl⟩
      cases p with
      | disconnected => exact absurd (hi ▸ rfl) hfair.1
      | _ => rfl
    | handle i e =>
      obtain rfl := Option.some.inj ha
      refine ⟨fun hi => ⟨?_, by simp⟩, rfl⟩
      cases e with
      | missed g => exact absurd (hi ▸ rfl) (hfair.2 g)
      | _ => rfl
    | _ => cases ha <;> first | exact ⟨trivial, rfl⟩ | exact ⟨fun _ => ⟨rfl, by simp⟩, rfl⟩

end Courses

/-! ## Requests one after the other -/

section Runs

/-- Between requests the deadline is in the future or decided. -/
def Stands (c : ConnId) (due : ℕ) (ms : List Moment) (w : World) : Prop :=
  Undecided c due ms w ∧ w.clock.now < due ∨ Decided c due ms w

/-- What a request made ready. -/
theorem Stands.settle (h : Stands c due ms w) (hw : w.Orderly) (hd : w.Drives c) :
    Stands c due (ms ++ w.moments w.settleCourse) (w.after w.settleCourse) := by
  rcases h with ⟨h, -⟩ | h
  · exact h.timers hw hd le_rfl le_rfl
  · exact .inr (h.after hw (fitting_settle hw) fun l hl => ordinary_timers hl)

theorem Stands.course (h : Stands c due ms w) (hw : w.Orderly) (hd : w.Drives c)
    (hfair : op.Fair c) : Stands c due (ms ++ w.moments (w.course op)) (w.after (w.course op)) := by
  have hf := fitting_course hw op
  by_cases hop : ∃ n, op = .advance n
  · obtain ⟨n, rfl⟩ := hop
    rcases h with ⟨h, -⟩ | h
    · exact h.timers hw hd le_rfl (Nat.le_add_right _ _)
    · exact .inr (h.after hw hf fun l hl => ordinary_timers hl)
  · have hplain (l : Happening) (hl : l ∈ w.course op) : l.Plain c :=
      plain_course hd hfair (fun n hn => hop ⟨n, hn⟩) hl
    rcases h with ⟨h, hnow⟩ | h
    · exact h.after hnow hw hf (fun l hl => (hplain l hl).1) fun l hl => (hplain l hl).2
    · exact .inr (h.after hw hf fun l hl => (hplain l hl).1)

/-- **One request.** -/
theorem Stands.step (h : Stands c due ms w) (hw : w.Orderly) (hd : w.Drives c)
    (hfair : op.Fair c) :
    Stands c due (ms ++ w.moments (w.course op ++ (w.perform op).2.settleCourse))
      (w.step op).2 := by
  have hcourse := h.course hw hd hfair
  have hsettled := hcourse.settle (hw.after (fitting_course hw op)) (hd.after _)
  rw [step_snd, after_append, moments_append, ← List.append_assoc, perform_snd]
  exact hsettled

/-- **A run.** -/
theorem Stands.run {ops : List Op} (h : Stands c due ms w) (hw : w.Orderly) (hd : w.Drives c)
    (hfair : ∀ op ∈ ops, op.Fair c) :
    Stands c due (ms ++ w.story ops) (w.run ops).2 := by
  induction ops generalizing w ms with
  | nil => simpa [story, history, moments, World.run] using h
  | cons op ops ih =>
    have hstep := h.step hw hd (hfair op (List.mem_cons_self ..))
    have hd' : (w.step op).2.Drives c := by
      rw [step_snd]
      exact hd.after _
    have hrest := ih hstep (hw.step op) hd' fun op' hop' => hfair op' (List.mem_cons_of_mem _ hop')
    rw [story_cons, ← List.append_assoc]
    exact hrest

end Runs

/-! ## The first requests -/

section Start

variable {l : LegId} {leg : Leg} {o : Options} {w' : World}

/-- A new connection waits for its deadline, unless that is due at once. -/
theorem unheard_connect (hw : w.Orderly) (hleg : w.legs[l]? = some leg)
    (hwaits : leg.state = .waiting) (hbearer : leg.bearer = .circuitSwitched)
    (hmade : w.step (.connect (some l) o) = (.made c, w')) :
    w'.Orderly ∧ w'.Idles c ∧ w'.Unheard c (w.clock.now + Clock.bounded o.timeout) ∧
      w'.clock.now = w.clock.now ∧ ∀ t ∈ w'.clock.pending, w'.clock.now < t.due := by
  have hok : (w.connect (some l) o).1 = .ok c := by
    have hreply : (w.perform (.connect (some l) o)).1 = .made c := congrArg Prod.fst hmade
    rw [perform] at hreply
    split at hreply
    · next i w'' he =>
      rw [he]
      exact congrArg _ (Reply.made.inj hreply)
    · cases hreply
  have hworld : (w.perform (.connect (some l) o)).2 = (w.connect (some l) o).2 := by
    rw [perform_snd, connect_snd]
    rfl
  have hw' : w' = (w.connect (some l) o).2.settle := by
    rw [← hworld]
    exact (congrArg Prod.snd hmade).symm
  obtain ⟨-, hnow, s, a, hin, hs, hidle⟩ := awaits_connect hw hleg hwaits hbearer hok
  have horderly : (w.connect (some l) o).2.Orderly := by
    rw [connect_snd]
    exact hw.after (fitting_connect w _ o)
  have hend : (w.connect (some l) o).2.settle.clock.now = _ ∧ _ :=
    due_timers horderly le_rfl le_rfl
  have hunheard := Unheard.timers (.inl ⟨s, a, hin, hs⟩) ⟨_, hin.conn, hidle⟩ horderly
    (fitting_settle horderly)
  have hlater := due_step hw (.connect (some l) o)
  rw [hmade] at hlater
  refine ⟨?_, ?_, ?_, ?_, hlater⟩
  · rw [hw', settle_eq]
    exact horderly.after (fitting_settle horderly)
  · rw [hw', settle_eq]
    exact hunheard.2
  · rw [hw', settle_eq]
    exact hunheard.1
  · rw [hw', hend.1, hnow]

theorem driveCourse_eq {s : Scene} (hw : w.Orderly) (h : Within w c s)
    (hidle : s.conn.driven = false) (hopen : s.conn.closed = false) :
    w.course (.drive c) = .deed c .attend ::
      List.replicate s.conn.mailbox.waiting.length (.deed c .fetch) := by
  have hshut : s.conn.mailbox.shutDown = false :=
    (hw.shut _ (List.mem_of_getElem? h.conn)).trans hopen
  rw [World.course, driveCourse, h.conn]
  simp [hidle, hshut]

theorem drives_attend {s : Scene} (h : Within w c s) :
    (w.happen (.deed c .attend)).Drives c := by
  rw [happen, onScene_of_within h]
  exact ⟨_, h.putScene_same _, rfl⟩

/-- What has arrived is handled first when somebody begins to handle events. -/
theorem stands_attend (hw : w.Orderly) (hidle : w.Idles c) (h : w.Unheard c due)
    (hearly : w.clock.now ≤ due) (hlater : ∀ t ∈ w.clock.pending, w.clock.now < t.due) :
    Stands c due (w.moments (w.course (.drive c))) (w.after (w.course (.drive c))) ∧
      (w.after (w.course (.drive c))).Drives c := by
  obtain ⟨k, hk, hdriven⟩ := hidle
  have hattend : (Happening.deed c .attend).Plain c := ⟨fun _ => ⟨rfl, by decide⟩, rfl⟩
  rcases h with hawaits | ⟨hdue, s, a, h, hs⟩
  · have hnow := hawaits.lt hlater
    have hstart : Undecided c due [] w := ⟨hawaits, rfl, by simp⟩
    obtain ⟨s, a, h, hs⟩ := hawaits
    obtain rfl := h.conn_eq hk
    rw [driveCourse_eq hw h hdriven hs.opened]
    have hplain : ∀ l ∈ Happening.deed c .attend ::
        List.replicate s.conn.mailbox.waiting.length (.deed c .fetch), l.Plain c := by
      intro l hl
      rcases List.mem_cons.1 hl with rfl | hl
      · exact hattend
      · exact plain_of_minor (minor_fetches hl)
    refine ⟨?_, (drives_attend h).after _⟩
    have hf := fitting_course hw (.drive c)
    rw [driveCourse_eq hw h hdriven hs.opened] at hf
    have hend := hstart.after hnow hw hf (fun l hl => (hplain l hl).1) fun l hl => (hplain l hl).2
    simpa [Stands] using hend
  · obtain rfl := h.conn_eq hk
    rw [driveCourse_eq hw h hdriven hs.opened]
    refine ⟨.inr ?_, (drives_attend h).after _⟩
    have hnow : w.clock.now = due := le_antisymm hearly hdue
    have hin : Within (w.happen (.deed c .attend)) c (s.act .attend) := by
      rw [happen, onScene_of_within h]
      exact h.putScene (anchored_act s (by decide))
    have hcoming : (s.act .attend).Coming a :=
      ⟨hs.opened, hs.live, hs.cause, hs.leg, hs.armed, hs.timers, hs.receiver, hs.mail⟩
    have hcalm : ∀ m ∈ [Moment.mk w (.deed c .attend)], m.time < due → ¬m.voids c :=
      List.forall_mem_singleton.2 fun hlt => absurd hlt hnow.ge.not_gt
    exact decided_of_coming s.conn.mailbox.waiting.length (hw.deed c .attend) hin hcoming
      ((now_deed hw c .attend).trans hnow) le_rfl rfl hcalm

theorem stands_drive {ops : List Op} (hw : w.Orderly) (hidle : w.Idles c) (h : w.Unheard c due)
    (hearly : w.clock.now ≤ due) (hlater : ∀ t ∈ w.clock.pending, w.clock.now < t.due)
    (hfair : ∀ op ∈ ops, op.Fair c) :
    Stands c due (w.story (.drive c :: ops)) (w.run (.drive c :: ops)).2 := by
  obtain ⟨hcourse, hdrives⟩ := stands_attend hw hidle h hearly hlater
  have hsettled := hcourse.settle (hw.after (fitting_course hw _)) hdrives
  have hstep : Stands c due (w.moments (w.course (.drive c) ++
      (w.perform (.drive c)).2.settleCourse)) (w.step (.drive c)).2 := by
    rw [step_snd, after_append, moments_append, perform_snd]
    exact hsettled
  have hdrives' : (w.step (.drive c)).2.Drives c := by
    rw [step_snd, after_append, perform_snd]
    exact hdrives.after _
  rw [story_cons]
  exact hstep.run (hw.step _) hdrives' hfair

end Start

/-! ## The deadline -/

section Main

variable {l : LegId} {leg : Leg} {o : Options} {w' : World} {ops : List Op}

theorem not_hears_of_deaf (deaf : ms.filter (·.hears c) = []) {m : Moment} (hm : m ∈ ms) :
    m.hears c = false :=
  Bool.eq_false_iff.2 (List.filter_eq_nil_iff.1 deaf m hm)

/-- **The call waiting deadline.** A connection is made on a circuit switched leg that waits, its
events are handled as they arrive, and nobody else hands it a deadline or reports it as
disconnected. Before its deadline is due the deadline is not handled and the call does not count as
missed, and if it was made void before then it never is. Otherwise it is handled at one moment, when
it is due: the leg bound to the connection then is asked to hang up, and whatever the network says
the call has ended as missed, for good. The deadline is due when the timeout is over, or as soon as
`Clock.longest` has passed if that is less. -/
theorem missed_unless_voided (hw : w.Reachable) (hleg : w.legs[l]? = some leg)
    (hwaits : leg.state = .waiting) (hbearer : leg.bearer = .circuitSwitched)
    (hmade : w.step (.connect (some l) o) = (.made c, w')) (hdirect : .enter c .disconnected ∉ ops)
    (hforged : ∀ g, .handle c (.missed g) ∉ ops) :
    let due := w.clock.now + Clock.bounded o.timeout
    let story := w'.story (.drive c :: ops)
    let last := (w'.run (.drive c :: ops)).2
    (∀ m ∈ story, m.time < due → m.hears c = false ∧ ¬m.tags c) ∧
    ((∃ m ∈ story, m.time < due ∧ m.voids c) → ∀ m ∈ story, m.hears c = false ∧ ¬m.tags c) ∧
    (due ≤ last.clock.now → (¬∃ m ∈ story, m.time < due ∧ m.voids c) →
      (∃ m, story.filter (·.hears c) = [m] ∧ m.Clears c due) ∧
        ∃ k, last.conns[c]? = some k ∧ k.phase = .disconnected ∧
          k.cause = some .incomingMissed ∧ k.guard.isArmed = false) := by
  intro due story last
  have hfair : ∀ op ∈ ops, op.Fair c := fun op hop =>
    ⟨fun he => hdirect (he ▸ hop), fun g he => hforged g (he ▸ hop)⟩
  obtain ⟨hw', hidle, hunheard, hnow, hlater⟩ :=
    unheard_connect hw.orderly hleg hwaits hbearer hmade
  have hearly : w'.clock.now ≤ due := hnow.le.trans (Nat.le_add_right _ _)
  rcases stands_drive hw' hidle hunheard hearly hlater hfair with ⟨h, hfuture⟩ | h
  · have hnever : ∀ m ∈ story, m.hears c = false ∧ ¬m.tags c := fun m hm =>
      ⟨not_hears_of_deaf h.deaf hm, fun htags => h.calm m hm (Moment.voids_of_tags htags)⟩
    exact ⟨fun m hm _ => hnever m hm, fun _ => hnever, fun hlate => absurd hfuture hlate.not_gt⟩
  · cases h with
    | void h deaf untagged hvoid =>
      have hnever : ∀ m ∈ story, m.hears c = false ∧ ¬m.tags c := fun m hm =>
        ⟨not_hears_of_deaf deaf hm, untagged m hm⟩
      exact ⟨fun m hm _ => hnever m hm, fun _ => hnever, fun _ hnot => absurd hvoid hnot⟩
    | missed h m heard clears calm =>
      refine ⟨fun m' hm' hlt => ⟨?_, fun htags => ?_⟩, ?_, fun _ _ => ⟨⟨m, heard, clears⟩, ?_⟩⟩
      · rw [Bool.eq_false_iff]
        intro hhears
        have hmem : m' ∈ story.filter (·.hears c) := List.mem_filter.2 ⟨hm', hhears⟩
        rw [heard, List.mem_singleton] at hmem
        rw [hmem] at hlt
        exact absurd clears.time hlt.ne
      · exact calm m' hm' hlt (Moment.voids_of_tags htags)
      · rintro ⟨m', hm', hlt, hvoids⟩
        exact absurd hvoids (calm m' hm' hlt)
      · obtain ⟨-, s, hin, hs, hterm, hcause⟩ := h
        refine ⟨s.conn, hin.conn, ?_, hcause, by simp [Guard.isArmed, hs.unarmed]⟩
        simpa [Phase.isTerminal] using hterm

/-- A waiting call that nobody answers within the standard timeout. -/
theorem missed_unless_voided_served :
    let w := served (Leg.waiting "5550100" (some 0))
    let w' := (w.step (.connect (some 0) { direction := .incoming })).2
    ∃ m, (w'.story [.drive 0, .advance 20000]).filter (·.hears 0) = [m] ∧ m.Clears 0 20000 := by
  intro w w'
  have hmade : w.step (.connect (some 0) { direction := .incoming }) = (.made 0, w') :=
    Prod.ext (by decide +kernel) rfl
  have hdue :
      w.clock.now + Clock.bounded ({ direction := .incoming } : Options).timeout = 20000 := by
    decide +kernel
  have hheard : ∃ m ∈ w'.story [.drive 0, .advance 20000], m.hears 0 = true := by decide +kernel
  obtain ⟨-, hnever, hmissed⟩ := @missed_unless_voided w 0 0 _ _ w' [.advance 20000]
    ⟨w, [], fresh_served _, rfl⟩ rfl rfl rfl hmade (by decide) (by simp)
  rw [hdue] at hnever hmissed
  obtain ⟨m, hm, hhears⟩ := hheard
  refine (hmissed (by decide +kernel) fun hvoid => ?_).1
  rw [(hnever hvoid m hm).1] at hhears
  cases hhears

/-- **A call can be missed before its timeout is over**, if the timeout is longer than any timer
waits. -/
theorem missed_before_timeout :
    let w := served (Leg.waiting "5550100" (some 0))
    let o : Options := { direction := .incoming, timeout := Clock.longest + 1 }
    let w' := (w.step (.connect (some 0) o)).2
    w.Fresh ∧ (w.step (.connect (some 0) o)).1 = .made 0 ∧
      ∃ m ∈ w'.story [.drive 0, .advance Clock.longest], m.time < w.clock.now + o.timeout ∧
        m.hears 0 = true ∧ m.after.conns.map (·.cause) = [some .incomingMissed] ∧
        m.before.legs.map (·.hangups) = [0] ∧ m.after.legs.map (·.hangups) = [1] :=
  ⟨fresh_served _, by decide +kernel, by decide +kernel⟩

end Main

end World

end CdmaCall
