import CdmaCall.Proofs.Lifecycle.Ending
import CdmaCall.Proofs.Session.Clone

/-!
# Rejected calls

To reject a call asks the network once to release its leg, and whatever the network says the call
ends: at once, or, if the leg rings and is released, when the release is reported. The cause follows
from the state in which the leg was and from the answer of the network (`rejection`), and it is told
once (`reject_resolves`). A call that has ended cannot be rejected again.
-/

namespace CdmaCall

section Defs

/-- The leg rings, and the network will release it and report that later. -/
def Leg.releases (leg : Leg) : Bool := leg.state == .incoming && !leg.refusesHangup

/-- The cause with which the call on a leg ends if it is rejected. -/
def Leg.rejection (leg : Leg) : Cause :=
  match leg.state with
  | .waiting => .incomingRejected
  | .incoming => if leg.refusesHangup then .incomingRejected else .normal
  | _ => .localClearing

/-- The same for a call that need not have a leg. -/
def rejection (leg : Option Leg) : Cause := (leg.map Leg.rejection).getD .localClearing

/-- How often the network was asked to release a leg. -/
def World.attempts (w : World) (l : LegId) : ℕ := (w.legs[l]?.map (·.hangups)).getD 0

/-- Connection `c` was `k`, and is `k'` now that its call has ended for a cause: the end and its
cause were told, and nothing else. -/
structure Conn.Ends (c : ConnId) (cause : Cause) (k k' : Conn) : Prop where
  notices : k'.notices = k.notices ++ [⟨c, .entered .disconnected⟩, ⟨c, .disconnected cause⟩]
  phase : k'.phase = .disconnected
  cause : k'.cause = some cause

end Defs

namespace Scene

variable {s u : Scene} {leg : Leg}

/-! ### What a rejection does -/

theorem ends_disconnect (h : Aside s u) (hlive : s.conn.isLive = true) (cause : Cause) :
    s.conn.Ends s.id cause (u.disconnect cause).conn := by
  have hlive' : u.conn.isLive = true := h.isLive.trans hlive
  rw [disconnect_eq u cause (open_of_isLive hlive') (going_of_isLive hlive')]
  exact ⟨by simp [h.notices, h.anchored.id], rfl, rfl⟩

theorem hangUp_eq (hleg : s.leg = some leg) :
    s.hangUp = (leg.hangUp.1, { s with leg := some leg.hangUp.2 }) := by
  unfold hangUp
  rw [hleg]

theorem aside_hangUp (hleg : s.leg = some leg) : Aside s { s with leg := some leg.hangUp.2 } := by
  have h := Aside.hangUp s
  rwa [hangUp_eq hleg] at h

/-- A waiting call is cleared: its deadline is called off before the network is asked. -/
theorem clearWaiting_eq (hleg : s.leg = some leg) (cause : Cause) :
    ∃ u, Aside s u ∧ u.leg = some leg.hangUp.2 ∧ s.clearWaiting cause = u.disconnect cause := by
  have hdisarm : s.disarm.leg = some leg := hleg
  refine ⟨_, (Aside.disarm s).trans (aside_hangUp hdisarm), rfl, ?_⟩
  unfold clearWaiting hangUpAndDisconnect
  dsimp only
  rw [hdisarm, hangUp_eq hdisarm]

theorem rejection_of_other (hringing : leg.state ≠ .incoming) (hwaiting : leg.state ≠ .waiting) :
    leg.rejection = .localClearing ∧ leg.releases = false := by
  constructor
  · unfold Leg.rejection
    split
    · exact absurd ‹_› hwaiting
    · exact absurd ‹_› hringing
    · rfl
  · simp [Leg.releases, hringing]

/-- **A rejection asks once for the release**, and ends the call unless a ringing leg will report
it. -/
theorem reject_eq (hlive : s.conn.isLive = true) :
    ∃ u, Aside s u ∧ u.leg = s.leg.map (·.hangUp.2) ∧
      s.reject = if s.leg.any Leg.releases then { s with leg := u.leg }
        else u.disconnect (rejection s.leg) := by
  unfold reject
  rw [if_pos hlive]
  cases hleg : s.leg with
  | none => exact ⟨s, .refl s, hleg, rfl⟩
  | some leg =>
    rw [Option.any_some, rejection, Option.map_some, Option.map_some, Option.getD_some]
    dsimp only
    split
    · next hstate =>
      refine ⟨_, aside_hangUp hleg, rfl, ?_⟩
      rw [hangUp_eq hleg]
      cases hrefuses : leg.refusesHangup <;>
        simp [Leg.hangUp, Leg.releases, Leg.rejection, hstate, hrefuses]
    · next hstate =>
      obtain ⟨u, haside, hasked, hclear⟩ := clearWaiting_eq hleg .incomingRejected
      refine ⟨u, haside, hasked, ?_⟩
      simp [hclear, Leg.releases, Leg.rejection, hstate]
    · next hringing hwaiting =>
      obtain ⟨hrejection, hstays⟩ := rejection_of_other hringing hwaiting
      refine ⟨_, aside_hangUp hleg, rfl, ?_⟩
      rw [hangUpAndDisconnect, hangUp_eq hleg, hrejection, hstays]
      rfl

/-- **A call that rings and is released** stays as it was, and the report of the release ends it. -/
theorem update_released (hlive : s.conn.isLive = true)
    (hreleases : s.leg.any Leg.releases = true) :
    s.reject.conn = s.conn ∧ s.reject.leg = s.leg.map (·.hangUp.2) ∧
      s.reject.update.leg = s.reject.leg ∧
      s.conn.Ends s.id (rejection s.leg) s.reject.update.conn := by
  obtain ⟨u, haside, hleg, hreject⟩ := reject_eq hlive
  rw [if_pos hreleases] at hreject
  obtain ⟨leg, hsees, hring⟩ := (Option.any_eq_true _ _).1 hreleases
  obtain ⟨hstate, haccepts⟩ : leg.state = .incoming ∧ leg.refusesHangup = false := by
    simpa [Leg.releases] using hring
  have hgone : leg.hangUp.2.state = .disconnected := by simp [Leg.hangUp, haccepts]
  have hcause : rejection s.leg = .normal := by
    simp [rejection, hsees, Leg.rejection, hstate, haccepts]
  have hupdate : s.reject.update = (s.reject.mark false).disconnect .normal := by
    rw [hreject, hleg, hsees]
    unfold update
    rw [if_pos (show s.conn.isLive = true from hlive)]
    simp [hgone, show (LegState.disconnected == LegState.waiting) = false from rfl]
  have hends := ends_disconnect (Aside.mark s.reject false) (by rwa [hreject]) .normal
  rw [← hupdate, show s.reject.conn = s.conn by rw [hreject],
    show s.reject.id = s.id by rw [hreject]] at hends
  refine ⟨by rw [hreject], by rw [hreject, hleg], ?_, hcause ▸ hends⟩
  rw [hupdate, disconnect_leg]
  rfl

/-- **Any other rejected call** ends at once, and a report changes nothing any more. -/
theorem reject_ends (hlive : s.conn.isLive = true)
    (hstays : ¬s.leg.any Leg.releases = true) :
    s.conn.Ends s.id (rejection s.leg) s.reject.conn ∧ s.reject.leg = s.leg.map (·.hangUp.2) ∧
      s.reject.update = s.reject := by
  obtain ⟨u, haside, hleg, hreject⟩ := reject_eq hlive
  rw [if_neg hstays] at hreject
  have hends := ends_disconnect haside hlive (rejection s.leg)
  rw [← hreject] at hends
  have hover : ¬s.reject.conn.isLive = true := by simp [Conn.isLive, hends.phase, Phase.isTerminal]
  refine ⟨hends, by rw [hreject, disconnect_leg, hleg], ?_⟩
  unfold update
  rw [if_neg hover]

end Scene

namespace World

open Scene

variable {w : World} {c : ConnId} {s u : Scene} {k : Conn}

/-! ### Requests that start no timer -/

theorem Reachable.step (h : w.Reachable) (op : Op) : (w.step op).2.Reachable := by
  obtain ⟨start, ops, hfresh, rfl⟩ := h
  exact ⟨start, ops ++ [op], hfresh, (run_append start ops [op]).symm⟩

theorem Reachable.run (h : w.Reachable) (ops : List Op) : (w.run ops).2.Reachable := by
  obtain ⟨start, before, hfresh, rfl⟩ := h
  exact ⟨start, before ++ ops, hfresh, (run_append start before ops).symm⟩

/-- Where no timer is started nothing comes due. -/
theorem Reachable.settle_putScene (h : w.Reachable) (hin : Within w c s) (hpath : Path true s u) :
    (w.putScene c u).settle = w.putScene c u := by
  refine settle_of_due fun t ht => ?_
  have hnow : u.clock.now = s.clock.now := (onward_path (h.orderly.timed hin) hpath).now
  show u.clock.now < t.due
  rw [hnow, hin.clock]
  exact h.due t (hin.clock ▸ mem_path hpath ht)

theorem Reachable.step_reject (h : w.Reachable) (hin : Within w c s) :
    w.step (.reject c) = (.done, w.putScene c s.reject) := by
  show (Reply.done, (w.onScene c Scene.reject).settle) = _
  rw [onScene_of_within hin, h.settle_putScene hin (path_reject s)]

theorem Reachable.step_update (h : w.Reachable) (hin : Within w c s) :
    w.step (.update c) = (.done, w.putScene c s.update) := by
  show (Reply.done, (w.onScene c Scene.update).settle) = _
  rw [onScene_of_within hin, h.settle_putScene hin (path_update s)]

/-- A call that has ended is not rejected again. -/
theorem Reachable.step_reject_ended (h : w.Reachable) (hk : w.conns[c]? = some k)
    (hphase : k.phase = .disconnected) : w.step (.reject c) = (.done, w) := by
  obtain ⟨s, hin, rfl⟩ := exists_within hk
  have hlive : ¬s.conn.isLive = true := by simp [Conn.isLive, hphase, Phase.isTerminal]
  have hreject : s.reject = s := by
    unfold Scene.reject
    rw [if_neg hlive]
  rw [h.step_reject hin, hreject, hin.putScene_self]

/-- A leg that is asked for its release is asked once more than before, and no other leg is. -/
theorem attempts_putScene (hw : w.Orderly) (hin : Within w c s)
    (hleg : u.leg = s.leg.map (·.hangUp.2)) (l : LegId) :
    (w.putScene c u).attempts l = w.attempts l + if s.conn.leg = some l then 1 else 0 := by
  have hlegs : (w.putScene c u).legs = place w.legs s.conn.leg (s.leg.map (·.hangUp.2)) := by
    show place w.legs (w.legAt c) u.leg = _
    rw [hin.legAt, hleg]
  unfold attempts
  rw [hlegs]
  cases hbound : s.conn.leg with
  | none => simp [place]
  | some l' =>
    obtain ⟨leg, hget⟩ : ∃ leg, w.legs[l']? = some leg :=
      ⟨_, List.getElem?_eq_getElem (hw.lt_legs hin hbound)⟩
    have hsees : s.leg = some leg := by rw [hin.leg, hbound, Option.bind_some, hget]
    rw [hsees]
    by_cases hl : l' = l
    · subst hl
      have hasked : leg.hangUp.2.hangups = leg.hangups + 1 := by
        unfold Leg.hangUp
        dsimp only
        split <;> rfl
      obtain ⟨hlt, rfl⟩ := List.getElem?_eq_some_iff.1 hget
      simp [place, hlt, hasked]
    · simp [place, List.getElem?_set_ne hl, hl]

/-! ### How a rejected call ends -/

/-- **A rejected call ends.** When a live connection of a session is rejected, the network is asked
once to release the leg to which it is bound, if there is one, and no other leg. If the leg rings
and is released, the connection is left as it was; otherwise the call has ended. In either case it
has ended as soon as the state of the leg is reported, which asks for nothing more: the cause is the
one that the leg and the answer of the network determine, it is told now, and it is the only one
that the connection has told. Once the call has ended, however the session goes on, to reject it
again does nothing. -/
theorem reject_resolves (hw : w.Reachable) (hk : w.conns[c]? = some k) (hlive : k.isLive = true) :
    let leg := k.leg.bind (w.legs[·]?)
    let w₁ := (w.step (.reject c)).2
    let w₂ := (w₁.step (.update c)).2
    (∀ l, w₁.attempts l = w.attempts l + if k.leg = some l then 1 else 0) ∧
    w₂.legs = w₁.legs ∧
    (∃ k₁, w₁.conns[c]? = some k₁ ∧
      if leg.any Leg.releases then k₁ = k else k.Ends c (rejection leg) k₁) ∧
    (∃ k₂, w₂.conns[c]? = some k₂ ∧ k.Ends c (rejection leg) k₂ ∧
      k₂.causesTold = [rejection leg]) ∧
    ∀ ops, let v := (w₁.run ops).2
      v.conns[c]?.map (·.phase) = some .disconnected → v.step (.reject c) = (.done, v) := by
  intro leg w₁ w₂
  obtain ⟨s, hin, rfl⟩ := exists_within hk
  have hleg : leg = s.leg := hin.leg.symm
  have hstep : w₁ = w.putScene c s.reject := congrArg Prod.snd (hw.step_reject hin)
  have hin₁ : Within w₁ c s.reject := hstep ▸ hin.putScene (.of_path (path_reject s))
  have hnext : w₂ = w₁.putScene c s.reject.update :=
    congrArg Prod.snd ((hw.step (.reject c)).step_update hin₁)
  have hin₂ : Within w₂ c s.reject.update := hnext ▸ hin₁.putScene (.of_path (path_update _))
  obtain ⟨hasked, hkept, hfirst, hends⟩ : s.reject.leg = s.leg.map (·.hangUp.2) ∧
      s.reject.update.leg = s.reject.leg ∧
      (if leg.any Leg.releases then s.reject.conn = s.conn
        else s.conn.Ends c (rejection leg) s.reject.conn) ∧
      s.conn.Ends c (rejection leg) s.reject.update.conn := by
    rw [hleg, ← hin.id]
    by_cases hreleases : s.leg.any Leg.releases = true
    · obtain ⟨hsame, hasked, hkept, hends⟩ := update_released hlive hreleases
      exact ⟨hasked, hkept, by rwa [if_pos hreleases], hends⟩
    · obtain ⟨hends, hasked, hover⟩ := reject_ends hlive hreleases
      rw [hover]
      exact ⟨hasked, rfl, by rwa [if_neg hreleases], hends⟩
  have htold : s.reject.update.conn.causesTold = [rejection leg] := by
    obtain ⟨start, before, hfresh, hw₂⟩ := (hw.step (.reject c)).step (.update c)
    have hk₂ : w₂.conns[c]? = some s.reject.update.conn := hin₂.conn
    rw [show w₂ = _ from hw₂, run_snd] at hk₂
    rw [causes_told _ hfresh.conns hk₂, hends.cause]
    rfl
  refine ⟨fun l => ?_, hnext ▸ hin₁.legs_eq hkept, ⟨_, hin₁.conn, hfirst⟩,
    ⟨_, hin₂.conn, hends, htold⟩, ?_⟩
  · rw [hstep]
    exact attempts_putScene hw.orderly hin hasked l
  · intro ops v hended
    obtain ⟨k', hk', hphase⟩ := Option.map_eq_some_iff.1 hended
    exact ((hw.step (.reject c)).run ops).step_reject_ended hk' hphase

/-- A call that rings is rejected: it rings until its release is reported. -/
theorem reject_resolves_served :
    let w := ((served (Leg.ringing "5550100" (some 0))).run
      [.connect (some 0) { direction := .incoming }]).2
    let w₁ := (w.step (.reject 0)).2
    let w₂ := (w₁.step (.update 0)).2
    w.Reachable ∧ w₁.attempts 0 = 1 ∧ ∃ k, w.conns[0]? = some k ∧ k.isLive = true ∧
      k.phase = .ringing ∧ w₁.conns[0]? = some k ∧
      ∃ k₂, w₂.conns[0]? = some k₂ ∧ k₂.phase = .disconnected ∧ k₂.causesTold = [.normal] ∧
        w₂.step (.reject 0) = (.done, w₂) := by
  intro w w₁ w₂
  have hreachable : w.Reachable := ⟨_, _, fresh_served _, rfl⟩
  have hrings : w.conns[0]?.map (fun k => (k.isLive, k.phase, k.leg)) =
      some (true, .ringing, some 0) := by decide +kernel
  have hleg : ((some 0).bind (w.legs[·]?)).map (fun leg => (leg.releases, leg.rejection)) =
      some (true, .normal) := by decide +kernel
  have hnone : w.attempts 0 = 0 := by decide +kernel
  obtain ⟨k, hk, hstands⟩ := Option.map_eq_some_iff.1 hrings
  obtain ⟨leg, hget, hrules⟩ := Option.map_eq_some_iff.1 hleg
  simp only [Prod.mk.injEq] at hstands hrules
  obtain ⟨hlive, hphase, hbound⟩ := hstands
  obtain ⟨hasks, -, ⟨k₁, hk₁, hfirst⟩, ⟨k₂, hk₂, hends, htold⟩, hlater⟩ :=
    reject_resolves hreachable hk hlive
  rw [hbound, hget] at hfirst hends htold
  rw [Option.any_some, if_pos hrules.1] at hfirst
  rw [rejection, Option.map_some, Option.getD_some, hrules.2] at htold
  have hended : (w₁.run [.update 0]).2.conns[0]?.map (·.phase) = some .disconnected := by
    decide +kernel
  have hagain := hlater [.update 0] hended
  refine ⟨hreachable, ?_, k, hk, hlive, hphase, hfirst ▸ hk₁, k₂, hk₂, hends.phase, htold, hagain⟩
  rw [hasks 0, hnone, hbound, if_pos rfl]

end World

end CdmaCall
