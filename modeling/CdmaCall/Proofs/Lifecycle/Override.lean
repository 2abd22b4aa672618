import CdmaCall.Proofs.Emergency.Cue
import CdmaCall.Proofs.Lifecycle.Rejection
import CdmaCall.Proofs.Lifecycle.Snapshots

/-!
# Calls shown as dialing

`Op.forceDialing` shows a call as dialing whatever its leg says, and takes that back by following
the leg as any report does. If the connection agreed with its leg, only the phase and the cue can be
different afterwards (`forceDialing_eq`, `taken_back`). A leg that says a phase restores it, and the
cue is silent unless that phase is `Phase.dialing`. While a leg has nothing to report, or there is
none, a call that was shown as dialing stays so (`override_taken_back`, `override_stands`).

That a connection agrees with its leg if a report would not change it, takes that it does not wait
before it has one (`Conn.IdleUnbound`): nothing but a leg makes it wait (`waiting_act_of_none`).
-/

namespace CdmaCall

section Defs

/-- The phase that the leg says, if there is one and it says any. -/
def Scene.said (s : Scene) : Option Phase := s.leg.bind (phaseOf ·.state)

/-- The phase that the leg of connection `c` says, if it has one and that says any. -/
def World.said (w : World) (c : ConnId) : Option Phase :=
  ((w.legAt c).bind (w.legs[·]?)).bind (Scene.phaseOf ·.state)

/-- The connection agrees with its leg, which is not gone. -/
structure Scene.Agrees (s : Scene) : Prop where
  going : ∀ leg, s.leg = some leg → leg.state ≠ .disconnected
  waiting : s.conn.waiting = s.legWaits
  phase : ∀ p, s.said = some p → s.conn.phase = p

/-- A connection that has no leg yet does not wait. -/
def Conn.IdleUnbound (k : Conn) : Prop := k.closed = false → k.leg = none → k.waiting = false

/-- Showing the call of connection `c` as dialing and taking that back leaves no trace, if a report
would not change anything. -/
def World.LeavesNoTrace (w : World) (c : ConnId) : Prop :=
  ∀ k, w.conns[c]? = some k → k.isLive = true → (w.step (.update c)).2 = w →
    let v := (w.run [.forceDialing c true, .forceDialing c false]).2
    ∃ k', v.conns[c]? = some k' ∧ k'.phase = k.phase ∧ k'.waiting = k.waiting ∧
      k'.cause = k.cause ∧ k'.guard = k.guard ∧
      (k.phase ≠ .dialing → ∀ player, v.player = some player → player.playing = false)

end Defs

namespace Scene

variable {s : Scene} {p : Phase}

theorem legWaits_of_none (hleg : s.leg = none) : s.legWaits = false := by
  rw [legWaits, hleg]
  rfl

theorem said_live (hp : s.said = some p) : p.isTerminal = false := by
  obtain ⟨leg, -, hp⟩ := Option.bind_eq_some_iff.1 hp
  exact phaseOf_live hp

/-! ### Following a leg -/

theorem update_of_none (hleg : s.leg = none) : s.update = s := by
  unfold update
  rw [hleg]
  split_ifs <;> rfl

theorem update_of_some (hlive : s.conn.isLive = true) {leg : Leg} (hleg : s.leg = some leg)
    (hgoing : leg.state ≠ .disconnected) :
    s.update = match s.said with
      | none => s.mark s.legWaits
      | some p => (s.mark s.legWaits).setPhase p := by
  have hsaid : s.said = phaseOf leg.state := by rw [said, hleg, Option.bind_some]
  have hwaits : s.legWaits = (leg.state == .waiting) := by
    rw [legWaits, hleg, Option.map_some]
    rfl
  have hgone : ¬ (leg.state == .disconnected) = true := by simpa using hgoing
  unfold update
  rw [if_pos hlive, hleg, hsaid, hwaits]
  dsimp only
  cases phaseOf leg.state <;> exact if_neg hgone

/-- A call whose leg is gone ends, whatever phase it is in. -/
theorem update_of_gone (hlive : s.conn.isLive = true) {leg : Leg} (hleg : s.leg = some leg)
    (hgone : leg.state = .disconnected) : s.update.conn.phase = .disconnected := by
  have hended : s.update = (s.mark false).disconnect .normal := by
    unfold update
    rw [if_pos hlive, hleg]
    simp [hgone, show (LegState.disconnected == LegState.waiting) = false from rfl]
  rw [hended, disconnect_eq (s.mark false) _ (open_of_isLive hlive) (going_of_isLive hlive)]

theorem setPhase_mark (hlive : s.conn.isLive = true) (hp : p.isTerminal = false) :
    ((s.mark s.legWaits).setPhase p).conn.waiting = s.legWaits ∧
      ((s.mark s.legWaits).setPhase p).conn.phase = p := by
  unfold setPhase
  split_ifs with hsame
  · exact ⟨rfl, by simpa using hsame⟩
  · rw [enter_eq (s.mark s.legWaits) p hlive, hp]
    exact ⟨Bool.true_and _, rfl⟩

/-- A connection that a report would not change agrees with its leg. -/
theorem agrees_of_update (hlive : s.conn.isLive = true)
    (hidle : s.leg = none → s.conn.waiting = false) (h : s.update = s) : s.Agrees := by
  cases hleg : s.leg with
  | none =>
    refine ⟨by simp [hleg], ?_, by simp [said, hleg]⟩
    rw [hidle hleg, legWaits_of_none hleg]
  | some leg =>
    have hgoing : leg.state ≠ .disconnected := by
      intro hgone
      have hphase : s.conn.phase = .disconnected := h ▸ update_of_gone hlive hleg hgone
      simp [Conn.isLive, hphase, Phase.isTerminal] at hlive
    have hfollows := update_of_some hlive hleg hgoing
    rw [h] at hfollows
    have hgoes : ∀ leg', s.leg = some leg' → leg'.state ≠ .disconnected := fun leg' hleg' => by
      rwa [← Option.some.inj (hleg.symm.trans hleg')]
    cases hsaid : s.said with
    | none =>
      rw [hsaid] at hfollows
      exact ⟨hgoes, congrArg (·.conn.waiting) hfollows, by simp [hsaid]⟩
    | some p =>
      rw [hsaid] at hfollows
      obtain ⟨hwaiting, hphase⟩ := setPhase_mark hlive (said_live hsaid)
      rw [show (s.mark s.legWaits).setPhase p = s from hfollows.symm] at hwaiting hphase
      refine ⟨hgoes, hwaiting, fun q hq => ?_⟩
      rw [hphase]
      exact Option.some.inj (hsaid.symm.trans hq)

/-- A connection that agrees with its leg but for its phase follows it in that only. -/
theorem update_of_waiting (hlive : s.conn.isLive = true)
    (hgoing : ∀ leg, s.leg = some leg → leg.state ≠ .disconnected)
    (hwaiting : s.conn.waiting = s.legWaits) :
    s.update = match s.said with
      | none => s
      | some p => s.setPhase p := by
  have hmark : s.mark s.legWaits = s := by
    rw [← hwaiting]
    rfl
  cases hleg : s.leg with
  | none =>
    have hsaid : s.said = none := by rw [said, hleg, Option.bind_none]
    rw [update_of_none hleg, hsaid]
  | some leg => rw [update_of_some hlive hleg (hgoing leg hleg), hmark]

/-! ### Showing a call as dialing -/

theorem forceDialing_self (hphase : s.conn.phase = .dialing) : s.forceDialing true = s := by
  show s.setPhase .dialing = s
  unfold setPhase
  rw [hphase]
  rfl

/-- Only the phase and the cue of the call change. -/
theorem forceDialing_eq (hlive : s.conn.isLive = true) (h : s.Agrees)
    (hphase : s.conn.phase ≠ .dialing) :
    s.forceDialing true = { s with
      player := if s.isEmergency then s.player.map CuePlayer.start else s.player
      conn := { s.conn with
        phase := .dialing
        notices := s.conn.notices ++ [⟨s.id, .entered .dialing⟩] } } := by
  have hcue : ((s.mark (!Phase.dialing.isTerminal && s.legWaits)).cue .dialing).player =
      if s.isEmergency then s.player.map CuePlayer.start else s.player := by
    rw [cue_player]
    show s.player.map (fun player => if s.isEmergency then player.start else player) = _
    cases s.isEmergency <;> simp
  have hwaits : (!Phase.dialing.isTerminal && s.legWaits) = s.conn.waiting := by
    rw [h.waiting]
    exact Bool.true_and _
  show s.setPhase .dialing = _
  unfold setPhase
  rw [if_neg (by simpa using hphase), enter_eq s .dialing hlive, hcue, hwaits]

theorem isLive_forceDialing (hlive : s.conn.isLive = true) (h : s.Agrees)
    (hphase : s.conn.phase ≠ .dialing) : (s.forceDialing true).conn.isLive = true := by
  rw [forceDialing_eq hlive h hphase]
  simp [Conn.isLive, open_of_isLive hlive, Phase.isTerminal]

theorem forceDialing_back (hlive : s.conn.isLive = true) (h : s.Agrees)
    (hphase : s.conn.phase ≠ .dialing) :
    (s.forceDialing true).forceDialing false = match s.said with
      | none => s.forceDialing true
      | some p => (s.forceDialing true).enter p := by
  have hshown := forceDialing_eq hlive h hphase
  have hlive' := isLive_forceDialing hlive h hphase
  have hsaid : (s.forceDialing true).said = s.said := by rw [hshown]; rfl
  have hback : (s.forceDialing true).update = match (s.forceDialing true).said with
      | none => s.forceDialing true
      | some p => (s.forceDialing true).setPhase p := by
    refine update_of_waiting hlive' ?_ ?_
    · rw [hshown]
      exact h.going
    · rw [hshown]
      exact h.waiting
  rw [hsaid] at hback
  show (s.forceDialing true).update = _
  rw [hback]
  cases hp : s.said with
  | none => rfl
  | some p =>
    have hother : ¬((s.forceDialing true).conn.phase == p) = true := by
      rw [hshown, ← h.phase p hp]
      simpa using Ne.symm hphase
    show (s.forceDialing true).setPhase p = _
    rw [setPhase, if_neg hother]

/-- **Nothing but the phase and the cue** is different once the override is taken back. -/
theorem taken_back (hlive : s.conn.isLive = true) (h : s.Agrees) :
    let u := (s.forceDialing true).forceDialing false
    u.conn.waiting = s.conn.waiting ∧ u.conn.cause = s.conn.cause ∧ u.conn.guard = s.conn.guard ∧
      u.clock = s.clock ∧
      (s.said.isSome = true ∨ s.conn.phase = .dialing → u.conn.phase = s.conn.phase ∧
        (s.conn.phase ≠ .dialing → ∀ player, u.player = some player → player.playing = false)) ∧
      (s.said = none → u.conn.phase = .dialing ∧
        u.player = if s.conn.phase ≠ .dialing ∧ s.isEmergency = true
          then s.player.map CuePlayer.start else s.player) := by
  intro u
  by_cases hphase : s.conn.phase = .dialing
  · have hsame : u = s := by
      show (s.forceDialing true).update = s
      rw [forceDialing_self hphase, update_of_waiting hlive h.going h.waiting]
      cases hsaid : s.said with
      | none => rfl
      | some p =>
        show s.setPhase p = s
        unfold setPhase
        rw [h.phase p hsaid]
        simp
    rw [hsame]
    exact ⟨rfl, rfl, rfl, rfl, fun _ => ⟨rfl, fun hother => absurd hphase hother⟩,
      fun _ => ⟨hphase, by rw [if_neg fun hurgent => hurgent.1 hphase]⟩⟩
  · have hshown := forceDialing_eq hlive h hphase
    have hu : u = _ := forceDialing_back hlive h hphase
    cases hsaid : s.said with
    | none =>
      rw [hsaid] at hu
      rw [show u = s.forceDialing true from hu, hshown]
      refine ⟨rfl, rfl, rfl, rfl, ?_, fun _ => ⟨rfl, ?_⟩⟩
      · rintro (hsome | hdials)
        · cases hsome
        · exact absurd hdials hphase
      · simp [hphase]
    | some p =>
      have hp : s.conn.phase = p := h.phase p hsaid
      have hlive' := isLive_forceDialing hlive h hphase
      have hwaits : (!p.isTerminal && (s.forceDialing true).legWaits) = s.conn.waiting := by
        rw [said_live hsaid, h.waiting, hshown]
        exact Bool.true_and _
      rw [hsaid] at hu
      rw [show u = (s.forceDialing true).enter p from hu, enter_eq _ p hlive', hwaits]
      refine ⟨rfl, by rw [hshown], by rw [hshown], by rw [hshown], fun _ => ⟨hp.symm, ?_⟩,
        fun hnone => by cases hnone⟩
      intro _ player hplayer
      rw [cue_player] at hplayer
      obtain ⟨old, -, rfl⟩ := Option.map_eq_some_iff.1 hplayer
      rw [if_neg (hp ▸ hphase)]
      rfl

/-! ### Connections without a leg -/

theorem waiting_disconnect (hidle : s.conn.waiting = false) (cause : Cause) :
    (s.disconnect cause).conn.waiting = false := by
  unfold disconnect
  split_ifs
  · exact hidle
  · show ((s.disarm.putCause cause).setPhase .disconnected).conn.waiting = false
    unfold setPhase enter
    split_ifs
    · exact hidle
    · rw [cue_eq]
      rfl
    · exact hidle

theorem waiting_enter (hleg : s.leg = none) (hidle : s.conn.waiting = false) (p : Phase) :
    (s.enter p).conn.waiting = false := by
  by_cases hlive : s.conn.isLive = true
  · rw [enter_eq s p hlive, legWaits_of_none hleg]
    exact Bool.and_false _
  · rw [enter, if_neg hlive]
    exact hidle

theorem waiting_handle_of_none (hleg : s.leg = none) (e : Event) :
    (s.handle e).conn.waiting = s.conn.waiting := by
  refine waiting_handle_of_clearWaiting (fun guard => ?_) e
  have hnone : (s.putGuard guard).disarm.leg = none := hleg
  unfold clearWaiting
  dsimp only
  rw [hnone]
  rfl

/-- **Only a leg makes a connection wait.** -/
theorem waiting_act_of_none (hleg : s.leg = none) (hidle : s.conn.waiting = false) (d : Deed) :
    (s.act d).conn.waiting = false := by
  cases d with
  | play digit => exact (waiting_playTone s digit).trans hidle
  | keys digits => exact (waiting_pressKeys digits s).trans hidle
  | stop => exact (waiting_stopTone s).trans hidle
  | reject =>
    show s.reject.conn.waiting = false
    unfold reject
    rw [hleg]
    split_ifs
    · exact waiting_disconnect hidle _
    · exact hidle
  | answer =>
    show s.answer.conn.waiting = false
    unfold answer
    dsimp only
    split_ifs
    · exact hidle
    · rw [conn_perform]
      exact hidle
    · exact hidle
  | update =>
    rw [act, update_of_none hleg]
    exact hidle
  | close =>
    show s.close.conn.waiting = false
    unfold close
    split_ifs <;> exact hidle
  | enter phase => exact waiting_enter hleg hidle phase
  | forceDialing dialing =>
    cases dialing with
    | true =>
      show (s.setPhase .dialing).conn.waiting = false
      unfold setPhase
      split_ifs
      · exact hidle
      · exact waiting_enter hleg hidle .dialing
    | false =>
      show s.update.conn.waiting = false
      rw [update_of_none hleg]
      exact hidle
  | conference =>
    show s.conference.2.conn.waiting = false
    unfold conference
    split_ifs
    · rw [conn_perform]
      exact hidle
    · exact hidle
  | handle e => exact (waiting_handle_of_none hleg e).trans hidle
  | fetch =>
    show s.fetch.conn.waiting = false
    unfold fetch
    cases s.conn.mailbox.waiting with
    | nil => exact hidle
    | cons e rest =>
      exact (waiting_handle_of_none (s := s.putMail { s.conn.mailbox with waiting := rest })
        hleg e).trans hidle
  | mark => exact legWaits_of_none hleg
  | arm =>
    rw [act, arm_eq]
    split_ifs <;> exact hidle
  | post | attend | retire | register | unregister => exact hidle

end Scene

namespace World

open Scene

variable {w : World} {c : ConnId} {s : Scene} {k : Conn}

theorem Within.said (h : Within w c s) : w.said c = s.said := by
  rw [World.said, h.legAt, Scene.said, h.leg]

theorem idleUnbound_after {hs : List Happening} (hstart : w.conns = [])
    (hk : (w.after hs).conns[c]? = some k) : k.IdleUnbound := by
  refine kept_from_start (P := fun _ k => k.IdleUnbound) (fun _ o _ _ => rfl) ?_ hs hstart hk
  rintro _ w x k k' - hchange hidle
  cases hchange with
  | none h => exact h ▸ hidle
  | deed s d hin hk _ h =>
    subst hk h
    intro hopen hnone
    by_cases hd : d = .close
    · subst hd
      cases hopen.symm.trans (closed_close s)
    · have hbound : s.conn.leg = none := (anchored_act s hd).bound.symm.trans hnone
      have hleg : s.leg = none := by rw [hin.leg, hbound, Option.bind_none]
      exact waiting_act_of_none hleg (hidle ((closed_act s hd).symm.trans hopen) hbound) d
  | mail e h => exact h ▸ hidle
  | leg l _ h =>
    subst h
    exact fun _ hnone => by cases hnone

theorem Reachable.idleUnbound (h : w.Reachable) (hk : w.conns[c]? = some k) : k.IdleUnbound := by
  obtain ⟨start, ops, hfresh, rfl⟩ := h
  rw [run_snd] at hk
  exact idleUnbound_after hfresh.conns hk

theorem Reachable.step_forceDialing (h : w.Reachable) (hin : Within w c s) (dialing : Bool) :
    w.step (.forceDialing c dialing) = (.done, w.putScene c (s.forceDialing dialing)) := by
  show (Reply.done, (w.onScene c (·.forceDialing dialing)).settle) = _
  rw [onScene_of_within hin, h.settle_putScene hin (path_forceDialing s dialing)]

theorem Reachable.run_override (h : w.Reachable) (hin : Within w c s) :
    (w.run [.forceDialing c true, .forceDialing c false]).2 =
      w.putScene c ((s.forceDialing true).forceDialing false) := by
  have hshown : Anchored s (s.forceDialing true) := .of_path (path_forceDialing s true)
  have hback : Anchored _ ((s.forceDialing true).forceDialing false) :=
    .of_path (path_forceDialing _ false)
  have hfirst := h.step_forceDialing hin true
  have hreachable : (w.putScene c (s.forceDialing true)).Reachable := by
    have hstep := h.step (.forceDialing c true)
    rwa [hfirst] at hstep
  have hthen := hreachable.step_forceDialing (hin.putScene hshown) false
  rw [hin.putScene_putScene hshown hback] at hthen
  show ((w.step (.forceDialing c true)).2.step (.forceDialing c false)).2 = _
  rw [hfirst, hthen]

/-- A connection of a session that a report would not change agrees with its leg. -/
theorem Reachable.agrees (h : w.Reachable) (hin : Within w c s) (hlive : s.conn.isLive = true)
    (hsettled : (w.step (.update c)).2 = w) : s.Agrees := by
  rw [h.step_update hin] at hsettled
  have hsame : s.update = s := by
    have hin' := hin.putScene (.of_path (path_update s))
    rw [show w.putScene c s.update = w from hsettled] at hin'
    exact hin'.unique hin
  refine agrees_of_update hlive (fun hleg => ?_) hsame
  refine h.idleUnbound hin.conn (open_of_isLive hlive) ?_
  cases hbound : s.conn.leg with
  | none => rfl
  | some l =>
    have hsees : s.leg = w.legs[l]? := by rw [hin.leg, hbound, Option.bind_some]
    rw [hleg, List.getElem?_eq_getElem (h.orderly.lt_legs hin hbound)] at hsees
    cases hsees

/-! ### What an override leaves behind -/

/-- **An override is undone by the leg.** When a live connection of a session that agrees with its
leg is shown as dialing and that is taken back, it waits, has a cause and a deadline as before. If
the leg says a phase, or the call was dialing, the phase is as before as well, and the cue is silent
unless the call is dialing. If the leg says nothing or there is none, the call is dialing then, and
the cue was started for it if it is an emergency that was not dialing before. -/
theorem override_taken_back (hw : w.Reachable) (hk : w.conns[c]? = some k) (hlive : k.isLive = true)
    (hsettled : (w.step (.update c)).2 = w) :
    let v := (w.run [.forceDialing c true, .forceDialing c false]).2
    ∃ k', v.conns[c]? = some k' ∧ k'.waiting = k.waiting ∧ k'.cause = k.cause ∧
      k'.guard = k.guard ∧ v.clock = w.clock ∧
      ((w.said c).isSome = true ∨ k.phase = .dialing → k'.phase = k.phase ∧
        (k.phase ≠ .dialing → ∀ player, v.player = some player → player.playing = false)) ∧
      (w.said c = none → k'.phase = .dialing ∧
        v.player = if k.phase ≠ .dialing ∧ w.urgent c = true
          then w.player.map CuePlayer.start else w.player) := by
  intro v
  obtain ⟨s, hin, rfl⟩ := exists_within hk
  have hv : v = w.putScene c _ := hw.run_override hin
  obtain ⟨hwaiting, hcause, hguard, hclock, hrestored, hstays⟩ :=
    taken_back hlive (hw.agrees hin hlive hsettled)
  rw [hv, hin.said, hin.urgent, ← hin.clock, ← hin.player]
  exact ⟨_, hin.putScene_same _, hwaiting, hcause, hguard, hclock, hrestored, hstays⟩

/-- An emergency call that got through is shown as dialing for a while. -/
theorem override_taken_back_served :
    let w := ((served (Leg.outgoing "911" (some 0))).run
      [.connect (some 0) {}, .legState 0 .active, .update 0]).2
    let v := (w.run [.forceDialing 0 true, .forceDialing 0 false]).2
    w.Reachable ∧ (w.step (.forceDialing 0 true)).2.player.map (·.playing) = some true ∧
      ∃ k k', w.conns[0]? = some k ∧ k.isLive = true ∧ k.phase = .active ∧
        v.conns[0]? = some k' ∧ k'.phase = .active ∧
        ∃ player, v.player = some player ∧ player.playing = false := by
  intro w v
  have hreachable : w.Reachable := ⟨_, _, fresh_served _, rfl⟩
  have hactive : w.conns[0]?.map (fun k => (k.isLive, k.phase)) = some (true, .active) := by
    decide +kernel
  have hsettled : (w.step (.update 0)).2 = w := by decide +kernel
  have hsaid : (w.said 0).isSome = true := by decide +kernel
  have hplayer : v.player = some { playing := false, starts := 2, stops := 2 } := by decide +kernel
  obtain ⟨k, hk, hstands⟩ := Option.map_eq_some_iff.1 hactive
  obtain ⟨hlive, hphase⟩ := Prod.mk.inj hstands
  obtain ⟨k', hk', -, -, -, -, hrestored, -⟩ :=
    override_taken_back hreachable hk hlive hsettled
  obtain ⟨hback, hsilent⟩ := hrestored (.inl hsaid)
  exact ⟨hreachable, by decide +kernel, k, k', hk, hlive, hphase, hk', hback.trans hphase,
    _, hplayer, hsilent (by rw [hphase]; decide) _ hplayer⟩

/-- **An override stands while the leg has nothing to report.** An emergency call that got through
is on its way to be released when it is shown as dialing and that is taken back: it goes on dialing,
and the cue plays. -/
theorem override_stands :
    let w := ((served (Leg.outgoing "911" (some 0))).run
      [.connect (some 0) {}, .legState 0 .active, .update 0, .legState 0 .disconnecting]).2
    let v := (w.run [.forceDialing 0 true, .forceDialing 0 false]).2
    w.Reachable ∧ w.conns[0]?.map (·.phase) = some .active ∧ (w.step (.update 0)).2 = w ∧
      v.conns[0]?.map (·.phase) = some .dialing ∧ v.player.map (·.playing) = some true ∧
      ¬w.LeavesNoTrace 0 := by
  intro w v
  have hactive : w.conns[0]?.map (fun k => (k.isLive, k.phase)) = some (true, .active) := by
    decide +kernel
  have hsettled : (w.step (.update 0)).2 = w := by decide +kernel
  have hdials : v.conns[0]?.map (·.phase) = some .dialing := by decide +kernel
  refine ⟨⟨_, _, fresh_served _, rfl⟩, by decide +kernel, hsettled, hdials, by decide +kernel, ?_⟩
  intro hnone
  obtain ⟨k, hk, hstands⟩ := Option.map_eq_some_iff.1 hactive
  obtain ⟨hlive, hphase⟩ := Prod.mk.inj hstands
  obtain ⟨k', hk', hback, -⟩ := hnone k hk hlive hsettled
  rw [show v.conns[0]? = some k' from hk', Option.map_some, hback, hphase] at hdials
  cases hdials

end World

end CdmaCall
