import CdmaCall.Proofs.Session.Clone
import CdmaCall.Proofs.Session.Deliveries
import CdmaCall.Proofs.Session.Requests

/-!
# Advances can be split

The clock is set by taking timers off it one after the other, and which one comes next depends
neither on the time nor on how far the clock is to go (`Clock.next?_now`, `Clock.next?_mono`). So
wherever an advance is interrupted, the same timers come off afterwards in the same order
(`timers_split`). A confirmation is on the clock from the sending of its burst on, and only its
deadline takes it off (`pending_or_expires`); a burst that goes out while the clock moves is no
exception (`sends_expires`). The two together are `advance_splits`.
-/

namespace CdmaCall

section Defs

/-- The timer comes off the clock, which then shows its deadline, and what it carries arrives. -/
def Moment.Expires (t : Timer Delivery) (m : Moment) : Prop :=
  ∃ limit, m.what = .expire limit ∧ t ∈ m.before.clock.pending ∧
    m.before.clock.next? limit = some (t.job, { m.before.clock.cancel t.id with now := t.due })

/-- A burst goes out to a phone that confirms by itself, and timer `t` is to confirm it. -/
def Moment.Sends (t : Timer Delivery) (m : Moment) : Prop :=
  ∃ c p digits on off phone delay, m.Asks c p (.burst digits on off) ∧
    m.before.phones[p]? = some phone ∧ phone.confirmDelay = some delay ∧
    t = ⟨m.before.clock.nextId, m.before.clock.now + Clock.bounded delay, ⟨c, .burstConfirmed⟩⟩

/-- Whether the clock is set and nothing else happens. -/
def Happening.isPass : Happening → Bool
  | .pass _ => true
  | _ => false

/-- The worlds that follow on each other, the mere setting of the clock apart. -/
def World.turns (w : World) (hs : List Happening) : List World :=
  ((w.moments hs).filter (!·.what.isPass)).map (·.after)

end Defs

/-! ### Confirmations on the clock -/

namespace Scene

variable {s s' : Scene} {full : Bool} {t : Timer Delivery}

/-- Only the guard's own timer is ever cancelled, and that carries no confirmation. -/
theorem mem_of_path (hs : s.Timed) (h : Path full s s') (ht : t ∈ s.clock.pending)
    (hjob : t.job.event = .burstConfirmed) : t ∈ s'.clock.pending := by
  have hkeep : Onward s s' ∧ t ∈ s'.clock.pending := by
    refine Path.keeps (R := fun u => Onward s u ∧ t ∈ u.clock.pending) (fun u u' hbit hu => ?_) h
      ⟨.refl hs, ht⟩
    obtain ⟨hon, hmem⟩ := hu
    refine ⟨hon.trans (onward_bit hon.timed hbit), ?_⟩
    cases hbit with
    | perform =>
      rename_i a ha
      rw [perform_eq_of_not_burst u ha]
      exact hmem
    | disarm =>
      unfold disarm Guard.disarm
      cases harmed : u.conn.guard.armed with
      | none => exact hmem
      | some d =>
        refine Clock.mem_cancel.2 ⟨hmem, fun hid => ?_⟩
        rw [hon.timed.own d harmed t hmem hid] at hjob
        cases hjob
    | hangUp => unfold hangUp; cases u.leg <;> exact hmem
    | correct => unfold onLineControl; cases u.leg <;> exact hmem
    | _ => exact hmem
  exact hkeep.2

theorem mem_perform (s : Scene) (a : Action) (ht : t ∈ s.clock.pending) :
    t ∈ (s.perform a).clock.pending := by
  unfold perform
  cases s.phone with
  | none => exact ht
  | some phone =>
    dsimp only
    split
    · exact ht
    · exact List.mem_append_left _ ht

theorem mem_handle (hs : s.Timed) (e : Event) (ht : t ∈ s.clock.pending)
    (hjob : t.job.event = .burstConfirmed) : t ∈ (s.handle e).clock.pending := by
  by_cases he : e = .burstConfirmed
  · subst he
    unfold handle
    split_ifs
    · exact ht
    · rcases onBurstConfirmed_cases s with ⟨-, h⟩ | ⟨-, -, h⟩
      · rw [h]
        exact ht
      · rw [h]
        exact mem_perform _ _ ht
  · exact mem_of_path hs (path_handle s he) ht hjob

theorem mem_fetch (hs : s.Timed) (ht : t ∈ s.clock.pending)
    (hjob : t.job.event = .burstConfirmed) : t ∈ s.fetch.clock.pending := by
  unfold fetch
  cases s.conn.mailbox.waiting with
  | nil => exact ht
  | cons e rest =>
    exact mem_handle (s := s.putMail { s.conn.mailbox with waiting := rest })
      ⟨hs.clock, hs.known, hs.own⟩ e ht hjob

/-- A burst that goes out while events are handled starts the timer of its confirmation, if the
phone confirms by itself. -/
theorem fetch_burst (hs : s.Timed) {phone : Phone} {delay : ℕ} (hphone : s.phone = some phone)
    (hdelay : phone.confirmDelay = some delay) :
    AsksOnly (·.isBurst = false) s s.fetch ∨
      s.fetch.clock = s.clock.start delay ⟨s.id, .burstConfirmed⟩ := by
  unfold fetch
  cases s.conn.mailbox.waiting with
  | nil => exact .inl (.refl s)
  | cons e rest =>
    dsimp only
    set u := s.putMail { s.conn.mailbox with waiting := rest }
    have hu : u.Timed := ⟨hs.clock, hs.known, hs.own⟩
    have hmail : AsksOnly (·.isBurst = false) s u := .of_phone rfl rfl rfl
    by_cases he : e = .burstConfirmed
    · subst he
      unfold handle
      split_ifs
      · exact .inl hmail
      · rcases onBurstConfirmed_cases u with ⟨-, h⟩ | ⟨-, -, h⟩
        · rw [h]
          exact .inl (hmail.trans (.of_phone rfl rfl rfl))
        · have hburst := h.trans (perform_burst_delayed _ _ _ (by exact hphone) hdelay)
          exact .inr (congrArg (·.clock) hburst)
    · exact .inl (hmail.trans (asksOnly_path hu (path_handle u he) (phone_handle u he)))

end Scene

namespace World

open Scene

variable {w : World} {limit limit' fuel fuel' : ℕ} {t : Timer Delivery} {x : Happening}

/-! ### Turns -/

theorem turns_cons (w : World) (x : Happening) (hs : List Happening) :
    w.turns (x :: hs) = (if x.isPass then [] else [w.happen x]) ++ (w.happen x).turns hs := by
  have hmoments : w.moments (x :: hs) = ⟨w, x⟩ :: (w.happen x).moments hs := rfl
  unfold turns
  rw [hmoments]
  cases hx : x.isPass <;> simp [hx, Moment.after]

theorem turns_append (w : World) (hs hs' : List Happening) :
    w.turns (hs ++ hs') = w.turns hs ++ (w.after hs).turns hs' := by
  unfold turns
  rw [moments_append, List.filter_append, List.map_append]

@[simp] theorem turns_pass (w : World) (limit : ℕ) : w.turns [.pass limit] = [] := rfl

/-! ### Courses of timers -/

/-- Where the next timer comes off there is fuel for it, and enough is left for the rest. -/
theorem exists_fuel (hw : w.Orderly) {d : Delivery} {clock : Clock Delivery}
    (hn : w.clock.next? limit = some (d, clock)) (hfuel : w.workload ≤ fuel) :
    let w' := (w.happen (.expire limit)).after ((w.happen (.expire limit)).ready d.target)
    ∃ n, fuel = n + 1 ∧ w'.Orderly ∧ w'.workload ≤ n ∧ w'.clock.now ≤ limit := by
  have hnext := orderly_next hw hn
  simp only [deliver_next hn] at hnext
  obtain ⟨hw', hload, hnow⟩ := hnext
  cases fuel with
  | zero => omega
  | succ n => exact ⟨n, rfl, hw', by omega, hnow⟩

/-- More fuel than the workload makes no difference. -/
theorem timerCourse_fuel (hw : w.Orderly) (hfuel : w.workload ≤ fuel)
    (hfuel' : w.workload ≤ fuel') : timerCourse limit fuel w = timerCourse limit fuel' w := by
  induction fuel generalizing w fuel' with
  | zero =>
    have hnone : w.clock.next? limit = none := by
      rcases hn : w.clock.next? limit with _ | ⟨d, clock⟩
      · rfl
      · obtain ⟨n, hn', -⟩ := exists_fuel hw hn hfuel
        cases hn'
    rw [timerCourse_of_none hnone, timerCourse_of_none hnone]
  | succ fuel ih =>
    rcases hn : w.clock.next? limit with _ | ⟨d, clock⟩
    · rw [timerCourse_of_none hn, timerCourse_of_none hn]
    · obtain ⟨n, hsucc, hw', hload, -⟩ := exists_fuel hw hn hfuel
      obtain ⟨n', rfl, -, hload', -⟩ := exists_fuel hw hn hfuel'
      obtain rfl := Nat.succ.inj hsucc
      rw [timerCourse_some hn, timerCourse_some hn, ih hw' hload hload']

/-- The time at which an advance starts makes no difference to what comes due in it. -/
theorem timers_now (w : World) (now limit fuel : ℕ) :
    let v : World := { w with clock := { w.clock with now } }
    v.after (timerCourse limit fuel v) = w.after (timerCourse limit fuel w) ∧
      v.turns (timerCourse limit fuel v) = w.turns (timerCourse limit fuel w) := by
  intro v
  have hnext : v.clock.next? limit = w.clock.next? limit := Clock.next?_now _ _ _
  rcases hn : w.clock.next? limit with _ | ⟨d, clock⟩
  · rw [timerCourse_of_none hn, timerCourse_of_none (hnext.trans hn)]
    exact ⟨rfl, rfl⟩
  · cases fuel with
    | zero => exact ⟨rfl, rfl⟩
    | succ fuel =>
      have hhappen : v.happen (.expire limit) = w.happen (.expire limit) := by
        simp only [happen, hnext, hn]
        rfl
      rw [timerCourse_some hn, timerCourse_some (hnext.trans hn)]
      rw [after_cons, after_cons, turns_cons, turns_cons, hhappen]
      exact ⟨rfl, rfl⟩

/-- **Setting the clock twice is as good as setting it once.** -/
theorem timers_split (hw : w.Orderly) (hle : limit ≤ limit') (hfuel : w.workload ≤ fuel)
    (hfuel' : w.workload ≤ fuel') :
    let v := w.after (timerCourse limit fuel w)
    v.after (timerCourse limit' v.workload v) = w.after (timerCourse limit' fuel' w) ∧
      w.turns (timerCourse limit fuel w) ++ v.turns (timerCourse limit' v.workload v) =
        w.turns (timerCourse limit' fuel' w) := by
  induction fuel generalizing w fuel' with
  | zero =>
    have hnow := timers_now w limit limit' w.workload
    rw [timerCourse_fuel hw le_rfl hfuel'] at hnow
    exact hnow
  | succ fuel ih =>
    rcases hn : w.clock.next? limit with _ | ⟨d, clock⟩
    · have hnow := timers_now w limit limit' w.workload
      rw [timerCourse_fuel hw le_rfl hfuel'] at hnow
      rw [timerCourse_of_none hn]
      exact hnow
    · have hn' := Clock.next?_mono hle hn
      have hhappen : w.happen (.expire limit') = w.happen (.expire limit) := by
        simp only [happen, hn, hn']
      obtain ⟨n, hsucc, hw', hload, -⟩ := exists_fuel hw hn hfuel
      obtain ⟨n', rfl, -, hload', -⟩ := exists_fuel hw hn' hfuel'
      obtain rfl := Nat.succ.inj hsucc
      rw [hhappen] at hload'
      obtain ⟨hafter, hturns⟩ := ih hw' hload hload'
      rw [timerCourse_some hn, timerCourse_some hn', hhappen]
      simp only [after_cons, after_append, turns_cons, turns_append, hhappen, List.append_assoc]
      exact ⟨hafter, by rw [hturns]; rfl⟩

/-! ### Advances -/

/-- What an advance consists of. -/
theorem history_advance (hw : w.Orderly) (ms : ℕ) (ops : List Op) :
    w.history (.advance ms :: ops) = timerCourse (w.clock.now + ms) w.workload w ++
      .pass (w.clock.now + ms) :: (w.step (.advance ms)).2.history ops := by
  have hdue := due_timers hw le_rfl (Nat.le_add_right w.clock.now ms)
  have hperform : (w.perform (.advance ms)).2 = runTimers (w.clock.now + ms) w.workload w := rfl
  have hsettle : (w.perform (.advance ms)).2.settleCourse = [.pass (w.clock.now + ms)] := by
    rw [hperform, settleCourse_of_due (by rw [hdue.1]; exact hdue.2), hdue.1]
  rw [history, hsettle, course, List.append_assoc]
  rfl

/-- An advance leaves nothing to settle. -/
theorem step_advance (hw : w.Orderly) (ms : ℕ) :
    (w.step (.advance ms)).2 = w.after (timerCourse (w.clock.now + ms) w.workload w) := by
  have hdue := due_timers hw le_rfl (Nat.le_add_right w.clock.now ms)
  have hstep : (w.step (.advance ms)).2 = (runTimers (w.clock.now + ms) w.workload w).settle := rfl
  rw [hstep, settle_of_due (by rw [hdue.1]; exact hdue.2), runTimers_eq]

theorem now_advance (hw : w.Orderly) (ms : ℕ) :
    (w.step (.advance ms)).2.clock.now = w.clock.now + ms := by
  rw [step_advance hw, ← runTimers_eq]
  exact (due_timers hw le_rfl (Nat.le_add_right _ _)).1

theorem turns_advance (hw : w.Orderly) (ms : ℕ) (ops : List Op) :
    w.turns (w.history (.advance ms :: ops)) =
      w.turns (timerCourse (w.clock.now + ms) w.workload w) ++
        (w.step (.advance ms)).2.turns ((w.step (.advance ms)).2.history ops) := by
  have hpass : (w.step (.advance ms)).2.happen (.pass (w.clock.now + ms)) =
      (w.step (.advance ms)).2 := by
    rw [← now_advance hw ms]
    rfl
  rw [history_advance hw, turns_append, turns_cons, ← step_advance hw, hpass]
  rfl

/-! ### What is on the clock comes due -/

/-- A confirmation on the clock stays there until it comes due. -/
theorem pending_or_expires (hw : w.Orderly) {hs : List Happening} (hf : w.Fitting hs)
    (hhs : ∀ x ∈ hs, (∃ c, x = .deed c .fetch) ∨ (∃ limit, x = .expire limit) ∨
      ∃ limit, x = .pass limit)
    (ht : t ∈ w.clock.pending) (hjob : t.job.event = .burstConfirmed) :
    t ∈ (w.after hs).clock.pending ∨ ∃ m ∈ w.moments hs, m.Expires t := by
  induction hs generalizing w with
  | nil => exact .inl ht
  | cons x hs ih =>
    have hrest : t ∈ (w.happen x).clock.pending →
        t ∈ (w.after (x :: hs)).clock.pending ∨ ∃ m ∈ w.moments (x :: hs), m.Expires t := by
      intro hmem
      rcases ih (hw.happen hf.1) hf.2 (fun y hy => hhs y (List.mem_cons_of_mem _ hy)) hmem with
        h | ⟨m, hm, he⟩
      · exact .inl h
      · exact .inr ⟨m, List.mem_cons_of_mem _ hm, he⟩
    rcases hhs x (List.mem_cons_self ..) with ⟨c, rfl⟩ | ⟨limit, rfl⟩ | ⟨limit, rfl⟩
    · refine hrest ?_
      rcases within_or_le w c with ⟨s, h⟩ | h
      · rw [h.happen_deed, putScene_clock]
        exact mem_fetch (hw.timed h) (h.clock ▸ ht) hjob
      · rw [happen, onScene_of_none h]
        exact ht
    · rcases hn : w.clock.next? limit with _ | ⟨d, clock⟩
      · refine hrest ?_
        simp only [happen, hn]
        exact ht
      · obtain ⟨u, hu, rfl, -, -, hclock⟩ := Clock.next?_eq_some hn
        by_cases hid : t.id = u.id
        · obtain rfl := hw.clock.eq_of_id ht hu hid
          exact .inr ⟨⟨w, .expire limit⟩, List.mem_cons_self .., limit, rfl, ht, hclock ▸ hn⟩
        · refine hrest ?_
          have hpending : (w.happen (.expire limit)).clock = clock := by
            simp only [happen, hn]
            exact (hand_eq _ _).2
          rw [hpending, hclock]
          exact Clock.mem_cancel.2 ⟨ht, hid⟩
    · exact hrest ht

/-- Nothing but timers and the events that are handled belongs to an advance. -/
theorem mem_history_advance {mss : List ℕ} (hx : x ∈ w.history (mss.map .advance)) :
    (∃ c, x = .deed c .fetch) ∨ (∃ limit, x = .expire limit) ∨ ∃ limit, x = .pass limit := by
  have htimer {limit fuel : ℕ} {v : World} (h : x ∈ timerCourse limit fuel v) :
      (∃ c, x = .deed c .fetch) ∨ (∃ limit, x = .expire limit) ∨ ∃ limit, x = .pass limit := by
    rcases mem_timerCourse h with h | h | h
    · exact .inl h
    · exact .inr (.inl ⟨_, h⟩)
    · exact .inr (.inr ⟨_, h⟩)
  induction mss generalizing w with
  | nil => cases hx
  | cons ms mss ih =>
    rw [List.map_cons, history, List.mem_append, List.mem_append] at hx
    rcases hx with (hx | hx) | hx
    · exact htimer hx
    · exact htimer hx
    · exact ih hx

/-- A burst that goes out while time passes starts the timer of its confirmation. -/
theorem pending_of_sends {m : Moment} (hm : m.before.Orderly) (hsends : m.Sends t)
    (hwhat : ∀ c d, m.what = .deed c d → d = .fetch) : t ∈ m.after.clock.pending := by
  obtain ⟨c, p, digits, on, off, phone, delay, hasks, hphone, hdelay, rfl⟩ := hsends
  obtain ⟨s, d, hin, hdeed, hserves, -⟩ := asks_inv hm hasks
  obtain rfl := hwhat c d hdeed
  have hs : s.phone = some phone := by
    rw [hin.phone, ← hin.phoneAt, hserves]
    exact hphone
  have hafter : m.after = m.before.putScene c s.fetch := by
    rw [Moment.after, hdeed, hin.happen_deed]
    rfl
  rcases fetch_burst (hm.timed hin) hs hdelay with ⟨as, has, hnone⟩ | hclock
  · have hnew := hasks.2
    rw [hafter, hin.mem_newActions has] at hnew
    exact absurd (hnone _ hnew.2) (by simp [Action.isBurst])
  · rw [hafter, putScene_clock, hclock, hin.id, ← hin.clock]
    exact List.mem_append_right _ (List.mem_singleton_self _)

/-- **A burst that goes out during advances is confirmed at its own deadline**, unless that is still
to come when they are over. -/
theorem sends_expires (hw : w.Orderly) {mss : List ℕ} {m : Moment} {pre post : List Moment}
    (hsplit : w.story (mss.map .advance) = pre ++ m :: post) (hsends : m.Sends t)
    (hover : t ∉ (w.run (mss.map .advance)).2.clock.pending) : ∃ m' ∈ post, m'.Expires t := by
  obtain ⟨hs₁, hs₂, hhs, hpre, hbefore⟩ := moments_split hsplit
  have hafter : m.after = (w.after hs₁).happen m.what := by rw [Moment.after, hbefore]
  have hpost : post = m.after.moments hs₂ := by
    rw [story, hhs, moments_append, hpre] at hsplit
    have htail := List.append_cancel_left hsplit
    rw [hafter, ← (List.cons.inj htail).2]
  have hfits := fitting_history hw (mss.map .advance)
  rw [hhs, fitting_append] at hfits
  obtain ⟨hfit₁, hfit, hfit₂⟩ := hfits
  have hm : m.before.Orderly := hbefore ▸ hw.after hfit₁
  have hmem {y : Happening} (hy : y ∈ m.what :: hs₂) :=
    mem_history_advance (hhs ▸ List.mem_append_right hs₁ hy : y ∈ w.history (mss.map .advance))
  have hfetch : ∀ c d, m.what = .deed c d → d = .fetch := by
    intro c d hdeed
    rcases hmem (List.mem_cons_self ..) with ⟨i, h⟩ | ⟨limit, h⟩ | ⟨limit, h⟩
    · exact (Happening.deed.inj (hdeed.symm.trans h)).2
    · cases hdeed.symm.trans h
    · cases hdeed.symm.trans h
  have hjob : t.job.event = .burstConfirmed := by
    obtain ⟨-, -, -, -, -, -, -, -, -, -, rfl⟩ := hsends
    rfl
  rcases pending_or_expires (hafter ▸ (hw.after hfit₁).happen hfit) (hafter ▸ hfit₂)
    (fun y hy => hmem (List.mem_cons_of_mem _ hy)) (pending_of_sends hm hsends hfetch) hjob with
    hleft | hexpires
  · have hend : m.after.after hs₂ = (w.run (mss.map .advance)).2 := by
      rw [run_snd, hhs, after_append, hafter]
      rfl
    exact absurd (hend ▸ hleft) hover
  · rwa [hpost]

/-- **An advance may be made in two parts.** The world is the same in the end, and it was the same
one after the other on the way there, the mere setting of the clock apart. In both runs each burst
whose confirmation falls due by then is confirmed at its own deadline. -/
theorem advance_splits (hw : w.Reachable) (a b : ℕ) :
    (w.run [.advance a, .advance b]).2 = (w.run [.advance (a + b)]).2 ∧
    w.turns (w.history [.advance a, .advance b]) = w.turns (w.history [.advance (a + b)]) ∧
    ∀ mss : List ℕ, mss = [a, b] ∨ mss = [a + b] → ∀ pre m post t,
      w.story (mss.map .advance) = pre ++ m :: post → m.Sends t →
      t.due ≤ w.clock.now + (a + b) → ∃ m' ∈ post, m'.Expires t := by
  have ho := hw.orderly
  have ho' : (w.step (.advance a)).2.Orderly := ho.step _
  have hlimit : (w.step (.advance a)).2.clock.now + b = w.clock.now + (a + b) := by
    rw [now_advance ho]
    omega
  have hle : w.clock.now + a ≤ w.clock.now + (a + b) := by omega
  have hsplit := timers_split ho hle le_rfl le_rfl
  simp only [← step_advance ho] at hsplit
  have hrun : (w.run [.advance a, .advance b]).2 = (w.run [.advance (a + b)]).2 := by
    show ((w.step (.advance a)).2.step (.advance b)).2 = (w.step (.advance (a + b))).2
    rw [step_advance ho', hlimit, hsplit.1]
  have hover : ∀ t ∈ (w.run [.advance (a + b)]).2.clock.pending, w.clock.now + (a + b) < t.due :=
    fun t ht => (now_advance ho (a + b)) ▸ due_step ho (.advance (a + b)) t ht
  refine ⟨hrun, ?_, fun mss hmss pre m post t hstory hsends hdue => ?_⟩
  · rw [turns_advance ho, turns_advance ho', turns_advance ho, hlimit, ← List.append_assoc,
      hsplit.2]
    rfl
  · refine sends_expires ho hstory hsends fun ht => ?_
    have ht' : t ∈ (w.run [.advance (a + b)]).2.clock.pending := by
      rcases hmss with rfl | rfl
      · exact hrun ▸ ht
      · exact ht
    exact absurd hdue (Nat.not_le_of_lt (hover t ht'))

/-- A phone that confirms each burst after a tenth of a second, and a leg that it serves. -/
def servedPrompt : World :=
  { phones := [{ id := 0, confirmDelay := some 100 }],
    legs := [Leg.outgoing "5550100" (some 0)] }

theorem fresh_servedPrompt : servedPrompt.Fresh :=
  ⟨rfl, rfl, by simp [servedPrompt], by simp [servedPrompt], by simp [servedPrompt]⟩

/-- The second burst goes out in the middle of the first advance, and is confirmed in the second. -/
theorem advance_splits_served :
    let w := (servedPrompt.run [.connect (some 0) {}, .drive 0, .play 0 '1', .play 0 '2']).2
    w.Reachable ∧ (w.run [.advance 150, .advance 150]).2 = (w.run [.advance 300]).2 ∧
      ∃ pre m post, w.story [.advance 150, .advance 150] = pre ++ m :: post ∧
        m.before.clock.now = 100 ∧ m.Sends ⟨1, 200, ⟨0, .burstConfirmed⟩⟩ ∧
        ∃ m' ∈ post, m'.Expires ⟨1, 200, ⟨0, .burstConfirmed⟩⟩ := by
  intro w
  have hw : w.Reachable := ⟨servedPrompt, _, fresh_servedPrompt, rfl⟩
  obtain ⟨hrun, -, hconfirmed⟩ := advance_splits hw 150 150
  have hsent : ∃ m ∈ w.story [.advance 150, .advance 150], m.before.clock.now = 100 ∧
      m.Asks 0 0 (.burst ['2'] 0 0) ∧ m.before.clock.nextId = 1 ∧
      m.before.phones[0]?.map (·.confirmDelay) = some (some 100) := by decide +kernel
  obtain ⟨m, hm, hnow, hasks, hnext, hdelay⟩ := hsent
  obtain ⟨pre, post, hstory⟩ := List.append_of_mem hm
  obtain ⟨phone, hphone, hdelay⟩ := Option.map_eq_some_iff.1 hdelay
  have hsends : m.Sends ⟨1, 200, ⟨0, .burstConfirmed⟩⟩ :=
    ⟨0, 0, _, _, _, phone, 100, hasks, hphone, hdelay, by rw [hnow, hnext]; rfl⟩
  have hlimit : 200 ≤ w.clock.now + (150 + 150) := by decide +kernel
  exact ⟨hw, hrun, pre, m, post, hstory, hnow, hsends,
    hconfirmed [150, 150] (.inl rfl) pre m post _ hstory hsends hlimit⟩

end World

end CdmaCall
