import CdmaCall.Proofs.Lifecycle.Closed
import CdmaCall.Proofs.Lifecycle.Ending

/-!
# What the user decides

Whoever answers or rejects a call has decided about it, and its deadline should not matter any more.
A decision voids the deadline or ends the call, and then nothing sets a deadline again: no deadline
hangs up the leg and the call does not count as missed, in any later run (`decided_or_released`).
One decision is an exception. The rejection of a ringing leg that the network releases waits for the
report of the release, and leaves a deadline set that comes all the same (`rejected_hangs_up`).
-/

namespace CdmaCall

section Defs

/-- No deadline is set, and the call does not count as missed. -/
structure Conn.Decided (k : Conn) : Prop where
  unarmed : k.guard.armed = none
  cause : k.cause ≠ some .incomingMissed

/-- A request of the user to take a call or to refuse it. -/
def Op.decides (c : ConnId) (op : Op) : Prop := op = .answer c ∨ op = .reject c

end Defs

/-! ### What deeds make of the guard and the cause -/

namespace Scene

variable {s s' : Scene} {d : Deed} {cause : Cause}

/-- A call that ends for any other reason is decided. -/
theorem decided_disconnect (hlive : s.conn.isLive = true) (hcause : cause ≠ .incomingMissed) :
    (s.disconnect cause).conn.Decided := by
  have hgoing : ¬s.conn.phase.isTerminal = true := by simp [going_of_isLive hlive]
  refine ⟨disconnect_armed s cause hgoing, ?_⟩
  rw [disconnect_cause s cause hgoing]
  exact fun he => hcause (Option.some.inj he)

theorem Outcome.missed (h : Outcome s s') (hmissed : s'.conn.cause = some .incomingMissed) :
    s.conn.cause = some .incomingMissed := by
  cases h with
  | steady h => exact h.cause ▸ hmissed
  | ended cause hcause s₁ h heq =>
    subst heq
    by_cases hterm : s₁.conn.phase.isTerminal = true
    · rw [disconnect_terminal cause hterm] at hmissed
      rcases h with h | h
      · exact h.cause ▸ hmissed
      · exact h.cause ▸ hmissed
    · rw [disconnect_cause s₁ cause hterm] at hmissed
      exact absurd (Option.some.inj hmissed) hcause

/-- A deadline that is not set does not count. -/
theorem handle_unarmed (hunarmed : s.conn.guard.armed = none) (g : ℕ) :
    s.handle (.missed g) = s := by
  unfold handle onMissed Guard.expire
  simp [hunarmed]

theorem missed_handle (hunarmed : s.conn.guard.armed = none) (e : Event) :
    (s.handle e).conn.cause = s.conn.cause := by
  cases e with
  | missed g => rw [handle_unarmed hunarmed]
  | _ => exact (Steady.handle s rfl).cause

/-- **Without a deadline a call does not become a missed one.** -/
theorem missed_act (hunarmed : s.conn.guard.armed = none)
    (hmissed : (s.act d).conn.cause = some .incomingMissed) :
    s.conn.cause = some .incomingMissed := by
  by_cases hplain : d.isOrdinary = true ∧ d.touchesMail = false ∧ d ≠ .answer
  · exact (outcome_act s hplain.1 hplain.2.1 hplain.2.2).missed hmissed
  cases d with
  | answer => exact (Aside.answer s).cause ▸ hmissed
  | arm => exact (Aside.arm s).cause ▸ hmissed
  | handle e => exact (missed_handle hunarmed e).symm.trans hmissed
  | fetch =>
    change s.fetch.conn.cause = _ at hmissed
    unfold fetch at hmissed
    cases hw : s.conn.mailbox.waiting with
    | nil => rwa [hw] at hmissed
    | cons e rest =>
      rw [hw] at hmissed
      have hmail : (s.putMail { s.conn.mailbox with waiting := rest }).conn.guard.armed = none :=
        hunarmed
      exact (missed_handle hmail e).symm.trans hmissed
  | enter p =>
    change (s.enter p).conn.cause = _ at hmissed
    by_cases hlive : s.conn.isLive = true
    · rwa [enter_eq s p hlive] at hmissed
    · rwa [enter, if_neg hlive] at hmissed
  | close =>
    change s.close.conn.cause = _ at hmissed
    by_cases hclosed : s.conn.closed = true
    · rwa [close, if_pos hclosed] at hmissed
    · rwa [close_eq s (by simpa using hclosed)] at hmissed
  | post | attend | retire => exact hmissed
  | _ => exact absurd ⟨rfl, rfl, by simp⟩ hplain

/-- What is decided stays decided, unless a deadline is set. -/
theorem decided_act (hd : d ≠ .arm) (h : s.conn.Decided) : (s.act d).conn.Decided where
  unarmed := by
    cases harmed : (s.act d).conn.guard.armed with
    | none => rfl
    | some a => cases h.unarmed.symm.trans (stillArmed_act s hd harmed).1
  cause hmissed := h.cause (missed_act h.unarmed hmissed)

/-! ### Decisions -/

theorem isLive_hangUp (s : Scene) : s.hangUp.2.conn.isLive = s.conn.isLive :=
  (Aside.hangUp s).isLive

/-- Clearing a call that waits is a decision. -/
theorem decided_clearWaiting (hlive : s.conn.isLive = true) (hleg : s.leg.isSome = true)
    (hcause : cause ≠ .incomingMissed) : (s.clearWaiting cause).conn.Decided := by
  obtain ⟨leg, hleg⟩ := Option.isSome_iff_exists.1 hleg
  have hclear : s.clearWaiting cause = s.disarm.hangUp.2.disconnect cause := by
    have hdisarm : s.disarm.leg = some leg := hleg
    unfold clearWaiting
    dsimp only
    rw [hdisarm]
    rfl
  rw [hclear]
  exact decided_disconnect ((isLive_hangUp _).trans hlive) hcause

/-- **Refusing a call** decides, unless it rings and the network releases the leg: then nothing else
happens. -/
theorem reject_of_live (hlive : s.conn.isLive = true) : s.reject.conn.Decided ∨
    ∃ leg, s.leg = some leg ∧ leg.state = .incoming ∧ leg.refusesHangup = false ∧
      s.reject = { s with leg := some leg.hangUp.2 } := by
  have hhung := (isLive_hangUp s).trans hlive
  unfold reject
  rw [if_pos hlive]
  cases hleg : s.leg with
  | none => exact .inl (decided_disconnect hlive (by decide))
  | some leg =>
    dsimp only
    split
    · next hstate =>
      have hhang : s.hangUp = (leg.hangUp.1, { s with leg := some leg.hangUp.2 }) := by
        unfold hangUp
        rw [hleg]
      rw [hhang] at hhung ⊢
      by_cases hrefuses : leg.refusesHangup = true
      · have herror : leg.hangUp.1 = .error (.callState "call leg already disconnected") := by
          simp [Leg.hangUp, hrefuses]
        rw [herror]
        exact .inl (decided_disconnect hhung (by decide))
      · have hok : leg.hangUp.1 = .ok () := by simp [Leg.hangUp, hrefuses]
        rw [hok]
        exact .inr ⟨leg, rfl, hstate, by simpa using hrefuses, rfl⟩
    · exact .inl (decided_clearWaiting hlive (by rw [hleg]; rfl) (by decide))
    · exact .inl (decided_disconnect hhung (by decide))

theorem decided_answer (hlive : s.conn.isLive = true)
    (hcause : s.conn.cause ≠ some .incomingMissed) : s.answer.conn.Decided :=
  ⟨answer_armed hlive, (Aside.answer s).cause ▸ hcause⟩

end Scene

namespace World

open Scene

variable {w start : World} {c : ConnId} {s : Scene} {k k' : Conn} {x : Happening} {op : Op}
  {hs : List Happening} {m : Moment}

/-! ### No deadline is set again -/

/-- Who is there stays there. -/
theorem conns_after (hs : List Happening) (hc : c < w.conns.length) :
    c < (w.after hs).conns.length := by
  obtain ⟨k', hk', -⟩ := kept_after (P := fun _ _ => True) [] (fun _ _ _ _ _ _ _ h => h) hs
    (List.getElem?_eq_getElem hc) trivial
  exact (List.getElem?_eq_some_iff.1 hk').1

/-- **Only a new connection sets its deadline.** -/
theorem arm_not_mem_history (ops : List Op) (hc : c < w.conns.length) :
    .deed c .arm ∉ w.history ops := by
  induction ops generalizing w with
  | nil => exact List.not_mem_nil
  | cons op ops ih =>
    intro hh
    rw [history, List.append_assoc, List.mem_append, List.mem_append] at hh
    rcases hh with hh | hh | hh
    · rcases routine_or_asked hh with hr | ha
      · cases hr with
        | minor hm => exact not_minor_arm hm rfl
        | timer n ht => rcases ht with ht | ht <;> cases ht
        | arm leg? o => exact lt_irrefl _ hc
      · cases op <;> simp [Op.happening?] at ha
    · cases setup_timers hh
    · rw [step_snd] at hh
      exact ih (conns_after _ hc) hh

theorem Change.decided (h : Change w c x k k') (hx : x ≠ .deed c .arm) (hk : k.Decided) :
    k'.Decided := by
  cases h with
  | none h => exact h ▸ hk
  | deed s d _ hs hx' h =>
    subst hs h
    exact decided_act (fun hd => hx (hd ▸ hx')) hk
  | mail e h => exact h ▸ ⟨hk.unarmed, hk.cause⟩
  | leg l _ h => exact h ▸ ⟨hk.unarmed, hk.cause⟩

/-- What is decided is decided at every later moment: the call is not missed, and no deadline hangs
up a leg. -/
theorem decided_moments (harm : .deed c .arm ∉ hs) (hk : w.conns[c]? = some k)
    (hdecided : k.Decided) :
    ∀ m ∈ w.moments hs, ¬m.tags c ∧ (m.hears c = true → m.after.legs = m.before.legs) := by
  induction hs generalizing w k with
  | nil => simp [moments]
  | cons x hs ih =>
    have hx : x ≠ .deed c .arm := fun he => harm (he ▸ List.mem_cons_self ..)
    obtain ⟨k₁, hk₁, hchange⟩ := change_happen hk x
    have hdecided₁ := hchange.decided hx hdecided
    intro m hm
    rcases List.mem_cons.1 hm with rfl | hm
    · refine ⟨?_, fun hhears => legs_of_hears hhears fun k' hk' => ?_⟩
      · rintro ⟨k', hk', hmissed⟩
        obtain rfl := Option.some.inj (hk₁.symm.trans hk')
        exact hdecided₁.cause hmissed
      · obtain rfl := Option.some.inj (hk.symm.trans hk')
        exact hdecided.unarmed
    · exact ih (fun hh => harm (List.mem_cons_of_mem _ hh)) hk₁ hdecided₁ m hm

/-! ### Decisions -/

/-- A live connection of a session has no cause. -/
theorem Reachable.cause (h : w.Reachable) (hk : w.conns[c]? = some k) (hlive : k.isLive = true) :
    k.cause = none := by
  obtain ⟨start, ops, hfresh, rfl⟩ := h
  rw [run_snd] at hk
  obtain ⟨l, hl⟩ := exists_life _ hfresh.conns hk
  have hended := (Life.ended_of_isLive (l := l) (c := c) (hl ▸ hlive)).2
  have hcause : k.cause = l.cause := congrArg Standing.cause hl
  rw [hcause, Life.cause, hended]
  rfl

/-- The deed that a decision asks for. -/
theorem exists_deed (hop : op.decides c) :
    ∃ d, (d = .answer ∨ d = .reject) ∧ w.course op = [.deed c d] ∧
      (op = .reject c ↔ d = .reject) := by
  rcases hop with rfl | rfl
  · exact ⟨.answer, .inl rfl, rfl, by simp⟩
  · exact ⟨.reject, .inr rfl, rfl, by simp⟩

/-- A connection that a decision leaves decided stays so. -/
theorem decided_story {d : Deed} (hin : Within w c s) (hd : d = .answer ∨ d = .reject)
    (hcourse : w.course op = [.deed c d]) (hdecided : (s.act d).conn.Decided) (ops : List Op) :
    ∀ m ∈ w.story (op :: ops), ¬m.tags c ∧ (m.hears c = true → m.after.legs = m.before.legs) := by
  have harm := arm_not_mem_history (op :: ops) hin.lt
  rw [story, history, hcourse]
  rw [history, hcourse] at harm
  intro m hm
  rcases List.mem_cons.1 hm with rfl | hm
  · refine ⟨?_, fun hhears => ?_⟩
    · rintro ⟨k', hk', hmissed⟩
      obtain rfl := Option.some.inj ((hin.conn_deed d).symm.trans hk')
      exact hdecided.cause hmissed
    · rcases hd with rfl | rfl <;> cases hhears
  · exact decided_moments (fun hh => harm (List.mem_cons_of_mem _ hh)) (hin.conn_deed d) hdecided
      m hm

/-- **A decision is final, or rejects a leg that rings.** When a live connection is answered or
rejected, then in no later run does it count as missed, and no deadline that it handles hangs up a
leg; or a deadline was set, the request was a rejection, and the leg rang and was released: then
this is all that the request did, and the deadline is still set. -/
theorem decided_or_released (hw : w.Reachable) (hk : w.conns[c]? = some k)
    (hlive : k.isLive = true) (hop : op.decides c) :
    (∀ ops, ∀ m ∈ w.story (op :: ops),
      ¬m.tags c ∧ (m.hears c = true → m.after.legs = m.before.legs)) ∨
    op = .reject c ∧ k.guard.isArmed = true ∧ ∃ l leg, k.leg = some l ∧ w.legs[l]? = some leg ∧
      leg.state = .incoming ∧ leg.refusesHangup = false ∧
      (w.perform op).2.legs = w.legs.set l leg.hangUp.2 ∧ (w.perform op).2.conns[c]? = some k := by
  obtain ⟨s, hin, rfl⟩ := exists_within hk
  obtain ⟨d, hd, hcourse, hreject⟩ := exists_deed (w := w) hop
  have hcause : s.conn.cause ≠ some .incomingMissed := by simp [hw.cause hk hlive]
  have hfinal := fun hdecided => decided_story hin hd hcourse hdecided
  rcases hd with rfl | rfl
  · exact .inl (hfinal (decided_answer hlive hcause))
  · rcases reject_of_live hlive with hdecided | ⟨leg, hleg, hstate, haccepts, hrejected⟩
    · exact .inl (hfinal hdecided)
    · have hsame : (s.act .reject).conn = s.conn := by
        show s.reject.conn = s.conn
        rw [hrejected]
      cases harmed : s.conn.guard.armed with
      | none => exact .inl (hfinal (hsame ▸ ⟨harmed, hcause⟩))
      | some a =>
        obtain ⟨l, hl, hget⟩ := Option.bind_eq_some_iff.1 (hin.leg ▸ hleg)
        have hperform : (w.perform op).2 = w.putScene c (s.act .reject) := by
          rw [perform_snd, hcourse, after_cons, after_nil, hin.happen_deed]
        have hlegs : (w.putScene c (s.act .reject)).legs = w.legs.set l leg.hangUp.2 := by
          show place _ (w.legAt c) s.reject.leg = _
          rw [hin.legAt, hl, hrejected]
          rfl
        exact .inr ⟨hreject.2 rfl, by simp [Guard.isArmed, harmed], l, leg, hl, hget, hstate,
          haccepts, hperform ▸ hlegs, by rw [hperform, hin.putScene_same, hsame]⟩

/-- A waiting call is answered, and its deadline comes all the same. -/
theorem decided_or_released_served :
    let w := ((served (Leg.waiting "5550100" (some 0))).run
      [.connect (some 0) { direction := .incoming }, .drive 0]).2
    let ops : List Op := [.handle 0 (.missed 1), .advance 20000]
    w.Reachable ∧ (Op.answer 0).decides 0 ∧ ∃ k, w.conns[0]? = some k ∧ k.isLive = true ∧
      k.guard.isArmed = true ∧ (∃ m ∈ w.story (.answer 0 :: ops), m.hears 0 = true) ∧
      ∀ m ∈ w.story (.answer 0 :: ops),
        ¬m.tags 0 ∧ (m.hears 0 = true → m.after.legs = m.before.legs) := by
  intro w ops
  have hreachable : w.Reachable := ⟨_, _, fresh_served _, rfl⟩
  have hlive : w.conns[0]?.map (fun k => (k.isLive, k.guard.isArmed)) = some (true, true) := by
    decide +kernel
  have hheard : ∃ m ∈ w.story (.answer 0 :: ops), m.hears 0 = true := by decide +kernel
  obtain ⟨k, hk, hstands⟩ := Option.map_eq_some_iff.1 hlive
  obtain ⟨hlive, harmed⟩ := Prod.mk.inj hstands
  refine ⟨hreachable, .inl rfl, k, hk, hlive, harmed, hheard, ?_⟩
  rcases decided_or_released hreachable hk hlive (.inl rfl) with hfinal | ⟨hreject, -⟩
  · exact hfinal ops
  · cases hreject

/-- **A rejected call counts as missed.** A call waits and then rings, and is rejected while it
rings: the leg is released, the deadline stays set, and when it comes it hangs up the leg again and
the call counts as missed. -/
theorem rejected_hangs_up :
    let w := ((served (Leg.waiting "5550100" (some 0))).run
      [.connect (some 0) { direction := .incoming }, .drive 0, .legState 0 .incoming]).2
    w.Reachable ∧ w.conns.map (·.isLive) = [true] ∧
      ¬(∀ m ∈ w.story [.reject 0, .advance 20000],
        ¬m.tags 0 ∧ (m.hears 0 = true → m.after.legs = m.before.legs)) ∧
      (w.run [.reject 0]).2.legs.map (fun l => (l.state, l.hangups)) = [(.disconnected, 1)] ∧
      (w.run [.reject 0, .advance 20000]).2.legs.map (·.hangups) = [2] ∧
      (w.run [.reject 0, .advance 20000]).2.conns.map (·.cause) = [some .incomingMissed] := by
  intro w
  have hheard : ∃ m ∈ w.story [.reject 0, .advance 20000], m.hears 0 = true ∧
      m.before.legs.map (·.hangups) = [1] ∧ m.after.legs.map (·.hangups) = [2] := by
    decide +kernel
  refine ⟨⟨_, _, fresh_served _, rfl⟩, by decide +kernel, fun hfinal => ?_, by decide +kernel,
    by decide +kernel, by decide +kernel⟩
  obtain ⟨m, hm, hhears, hbefore, hafter⟩ := hheard
  rw [(hfinal m hm).2 hhears, hbefore] at hafter
  cases hafter

end World

end CdmaCall
