import CdmaCall.Proofs.Lifecycle.Notices
import CdmaCall.Proofs.Waiting.Clearing

/-!
# How calls end

A call that the connection ends itself ends completely: the cause is recorded and told once, the
deadline is off, and no deadline that is delivered later hangs up a leg. A call whose end is
reported from outside only changes its phase (`complete_or_reported`). If a deadline was set it
stays set, and it hangs up the leg of a call that has ended before (`reported_end_hangs_up`).
-/

namespace CdmaCall

/-- The cause that a notice tells. -/
def Notice.cause? : Notice → Option Cause
  | .disconnected cause => some cause
  | _ => none

/-- The causes that a connection has told, in order. -/
def Conn.causesTold (k : Conn) : List Cause := k.notices.filterMap (·.notice.cause?)

/-- Connection `c` is told that its call has ended while it goes on. -/
structure Moment.ReportsEnd (c : ConnId) (m : Moment) : Prop where
  what : m.what = .deed c (.enter .disconnected)
  going : ∃ k, m.before.conns[c]? = some k ∧ k.isLive = true

/-- A life tells the cause of its end and no other. -/
theorem Life.causes_notices (l : Life) (c : ConnId) :
    (l.notices c).filterMap (·.notice.cause?) = l.cause.toList := by
  obtain ⟨phases, ended, closed, -⟩ := l
  have hphases : phases.filterMap (fun p => (Notice.entered p).cause?) = [] :=
    List.filterMap_eq_nil_iff.2 fun _ _ => rfl
  have hended : (ending ended).filterMap Notice.cause? = ended.join.toList := by
    rcases ended with - | - | cause <;> rfl
  have hclosed : (if closed then [Notice.closed] else []).filterMap Notice.cause? = [] := by
    cases closed <;> rfl
  simp [notices, cause, List.filterMap_map, Function.comp_def, hphases, hended, hclosed]

/-- A call is over without a cause only if it was before, or was told so. -/
theorem Standing.Turn.end_cases {c : ConnId} {d : Deed} {t t' : Standing} (h : Turn c d t t')
    (hphase : t'.phase = .disconnected) (hcause : t'.cause = none) :
    t.phase = .disconnected ∧ t.cause = none ∨ d = .enter .disconnected ∧ t.isLive = true := by
  cases h with
  | stay => exact .inl ⟨hphase, hcause⟩
  | enter p hlive hp =>
    obtain rfl : p = .disconnected := hphase
    exact .inr ⟨hp rfl, hlive⟩
  | finish cause _ => cases hcause
  | shut _ => exact .inl ⟨hphase, hcause⟩

namespace World

open Scene

variable {w start : World} {c : ConnId} {s u : Scene} {k k' : Conn} {x : Happening} {m : Moment}
  {ops : List Op} {n : ℕ}

/-! ### Ends without a cause -/

theorem Change.end_cases (h : Change w c x k k') (hk : w.conns[c]? = some k)
    (hphase : k'.phase = .disconnected) (hcause : k'.cause = .none) :
    k.phase = .disconnected ∧ k.cause = .none ∨ Moment.ReportsEnd c ⟨w, x⟩ := by
  obtain ⟨d, hturn, hsource⟩ := h.turn
  rcases hturn.end_cases hphase hcause with hold | ⟨rfl, hlive⟩
  · exact .inl hold
  · rcases hsource with hx | hsame
    · exact .inr ⟨hx, k, hk, hlive⟩
    · exact .inl ⟨(congrArg Standing.phase hsame).symm.trans hphase,
        (congrArg Standing.cause hsame).symm.trans hcause⟩

/-- A call that is over without a cause was told so. -/
theorem reported_during (hstart : start.Fresh) (hk : (start.during ops n).conns[c]? = some k)
    (hphase : k.phase = .disconnected) (hcause : k.cause = none) :
    ∃ m ∈ (start.story ops).take n, m.ReportsEnd c := by
  have hreported : k.phase = .disconnected → k.cause = none →
      ∃ m ∈ start.moments ((start.history ops).take n), m.ReportsEnd c := by
    refine kept_from_start (P := fun ms k => k.phase = .disconnected → k.cause = none →
      ∃ m ∈ ms, m.ReportsEnd c) ?_ ?_ _ hstart.conns hk
    · intro _ o hphase
      cases hphase
    · intro ms w x k k' hk hchange ih hphase hcause
      rcases hchange.end_cases hk hphase hcause with ⟨hphase, hcause⟩ | hreports
      · obtain ⟨m, hm, hreports⟩ := ih hphase hcause
        exact ⟨m, List.mem_append_left _ hm, hreports⟩
      · exact ⟨_, List.mem_append_right _ (List.mem_singleton_self _), hreports⟩
  rw [moments_take] at hreported
  exact hreported hphase hcause

/-! ### Ends with a cause -/

theorem causes_told (hs : List Happening) (hstart : start.conns = [])
    (hk : (start.after hs).conns[c]? = some k) : k.causesTold = k.cause.toList := by
  obtain ⟨l, hl⟩ := exists_life hs hstart hk
  have hnotices : k.notices = l.notices c := congrArg Standing.notices hl
  have hcause : k.cause = l.cause := congrArg Standing.cause hl
  rw [Conn.causesTold, hnotices, l.causes_notices, hcause]

/-- A call with a cause has no deadline. -/
theorem unarmed_of_cause (hstart : start.Fresh) {cause : Cause}
    (hk : (start.during ops n).conns[c]? = some k) (hcause : k.cause = some cause) :
    k.guard.armed = none := by
  cases harmed : k.guard.armed with
  | none => rfl
  | some a =>
    obtain ⟨-, hnone, -⟩ := accounted_during hstart ops n c k a hk harmed
    rw [hcause] at hnone
    cases hnone

/-- What leaves the leg of a connection alone leaves all legs alone. -/
theorem Within.legs_eq (h : Within w c s) (hleg : u.leg = s.leg) :
    (w.putScene c u).legs = w.legs := by
  show place _ (w.legAt c) _ = _
  rw [hleg, h.legAt]
  exact place_self h.leg

/-- A deadline that is not set hangs up nothing. -/
theorem legs_of_hears (hhears : m.hears c = true)
    (hunarmed : ∀ k, m.before.conns[c]? = some k → k.guard.armed = none) :
    m.after.legs = m.before.legs := by
  rcases hears_cases hhears with hsame | ⟨s, mailbox, g, hin, hafter⟩
  · rw [hsame]
  · rw [hafter]
    rcases handle_missed_cases (s.putMail mailbox) g with hkept | ⟨a, leg, -, harmed, -⟩
    · exact hin.legs_eq hkept
    · cases (hunarmed _ hin.conn).symm.trans harmed

/-- **A call is over for good, or it was told so.** Whenever a connection is disconnected, either it
has a cause, has told just this cause, and once, its deadline is off, and no deadline that it
handles from then on hangs up a leg; or it has no cause, has told none, and the end was reported to
it from outside at an earlier moment. -/
theorem complete_or_reported (hstart : start.Fresh) (ops : List Op)
    (hk : (start.during ops n).conns[c]? = some k) (hphase : k.phase = .disconnected) :
    (∃ cause, k.cause = some cause ∧ k.causesTold = [cause] ∧ k.guard.isArmed = false ∧
      ∀ i m, n ≤ i → (start.story ops)[i]? = some m → m.hears c = true →
        m.after.legs = m.before.legs) ∨
    (k.cause = none ∧ k.causesTold = [] ∧
      ∃ m ∈ (start.story ops).take n, m.ReportsEnd c) := by
  have htold := causes_told _ hstart.conns hk
  cases hcause : k.cause with
  | none =>
    rw [hcause] at htold
    exact .inr ⟨rfl, htold, reported_during hstart hk hphase hcause⟩
  | some cause =>
    rw [hcause] at htold
    refine .inl ⟨cause, rfl, htold, ?_, fun i m hi hm hhears => ?_⟩
    · rw [Guard.isArmed, unarmed_of_cause hstart hk hcause]
      rfl
    · -- The cause stays what it is, and where there is a cause no deadline is set.
      refine legs_of_hears hhears fun k₁ hk₁ => ?_
      rw [before_of_story hm, during_of_le start ops hi] at hk₁
      obtain ⟨k', hk', hfollows⟩ := exists_follows (((start.history ops).take i).drop n) hk
      obtain rfl := Option.some.inj (hk₁.symm.trans hk')
      rw [← during_of_le start ops hi] at hk'
      have hterm : k.standing.phase.isTerminal = true := by
        rw [show k.standing.phase = .disconnected from hphase]
        rfl
      exact unarmed_of_cause hstart hk' ((hfollows.ended hterm).2.trans hcause)

/-- A waiting call is rejected, and its deadline comes all the same. -/
theorem complete_or_reported_served :
    let w := served (Leg.waiting "5550100" (some 0))
    let ops : List Op := [.connect (some 0) { direction := .incoming }, .reject 0,
      .handle 0 (.missed 1)]
    w.Fresh ∧ ∃ k m, (w.during ops 9).conns[0]? = some k ∧ k.phase = .disconnected ∧
      k.causesTold = [.incomingRejected] ∧ k.guard.isArmed = false ∧
      (w.story ops)[10]? = some m ∧ m.hears 0 = true ∧ m.after.legs = m.before.legs := by
  intro w ops
  have hended : ((w.during ops 9).conns[0]?.map fun k => (k.phase, k.cause)) =
      some (.disconnected, some .incomingRejected) := by decide +kernel
  have hcomes : ((w.story ops)[10]?.map (·.hears 0)) = some true := by decide +kernel
  obtain ⟨k, hk, hstands⟩ := Option.map_eq_some_iff.1 hended
  obtain ⟨hphase, hcause⟩ := Prod.mk.inj hstands
  obtain ⟨m, hm, hhears⟩ := Option.map_eq_some_iff.1 hcomes
  rcases complete_or_reported (fresh_served _) ops hk hphase with
    ⟨cause, hcause', htold, hunarmed, hlater⟩ | ⟨hnone, -⟩
  · obtain rfl := Option.some.inj (hcause.symm.trans hcause')
    exact ⟨fresh_served _, k, m, hk, hphase, htold, hunarmed, hm, hhears,
      hlater 10 m (by decide) hm hhears⟩
  · cases hcause.symm.trans hnone

/-- **A reported end is not the end.** A call waits, and its end is reported to it: it is
disconnected without a cause and with its deadline set, it tells no cause, and when the deadline
comes it hangs up the leg. -/
theorem reported_end_hangs_up :
    let w := served (Leg.waiting "5550100" (some 0))
    let ops : List Op := [.connect (some 0) { direction := .incoming }, .drive 0,
      .enter 0 .disconnected, .advance 20000]
    w.Fresh ∧
      (¬∀ m ∈ w.story ops, ∀ k ∈ m.before.conns, k.phase = .disconnected →
        k.cause.isSome = true ∧ k.causesTold.length = 1 ∧ k.guard.isArmed = false) ∧
      ∃ m ∈ w.story ops, m.hears 0 = true ∧ m.hangs 0 = true ∧
        m.before.conns.map (·.phase) = [.disconnected] ∧
        m.before.conns.map (·.cause) = [none] ∧ m.before.conns.map (·.causesTold) = [[]] ∧
        m.before.conns.map (·.guard.isArmed) = [true] :=
  ⟨fresh_served _, by decide +kernel, by decide +kernel⟩

end World

end CdmaCall
