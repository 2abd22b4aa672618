import CdmaCall.Proofs.Dtmf.Handover
import CdmaCall.Proofs.Lifecycle.Notices

/-!
# Stopping a continuous tone

Nobody remembers which tone was started where: a request to stop chooses the mode and the phone
anew, by what the user prefers and where the connection is bound to at that moment. So it reaches
the phone on which a tone was started unless the connection was bound to a leg in between, or is on
a circuit switched leg and the user has come to prefer other than long tones
(`stop_reaches_unless_moved`). In both cases the tone goes on (`stop_lost`).
-/

namespace CdmaCall

namespace World

open Scene

variable {w start : World} {c : ConnId} {p : PhoneId} {k : Conn} {x : Happening}
  {hs : List Happening} {m m₀ : Moment} {ops : List Op} {digit : Char} {i j n : ℕ}

/-! ### Between two moments -/

/-- What is open was not closed before. -/
theorem not_closed_before (hc : c < w.conns.length) (hk : (w.after hs).conns[c]? = some k)
    (hopen : k.closed = false) : .deed c .close ∉ hs := by
  intro hclose
  obtain ⟨hs₁, hs₂, rfl⟩ := List.append_of_mem hclose
  obtain ⟨k₁, hk₁, -⟩ := exists_follows hs₁ (List.getElem?_eq_getElem hc)
  obtain ⟨s, hin, -⟩ := exists_within hk₁
  rw [after_append, after_cons] at hk
  obtain ⟨k', hk', hfollows⟩ := exists_follows hs₂ (hin.conn_deed .close)
  obtain rfl := Option.some.inj (hk.symm.trans hk')
  have hshut : s.close.conn.closed = true := closed_close s
  have hclosed : k.closed = s.close.conn.closed :=
    congrArg Standing.closed (hfollows.closed hshut)
  cases (hclosed.trans hshut).symm.trans hopen

/-! ### Stopping -/

/-- A moment at which a continuous tone is started. -/
theorem started_inv (hstart : start.Fresh) (hi : (start.story ops)[i]? = some m₀)
    (hstarted : m₀.Asks c p (.startTone digit)) : ∃ d, m₀.what = .deed c d ∧ d.plays = true ∧
      c < m₀.before.conns.length ∧ m₀.before.phoneAt c = some p ∧ p < m₀.before.phones.length ∧
      m₀.before.toneModeAt c = .continuous := by
  obtain ⟨s, d, hin, hwhat, hphone, hpermits⟩ :=
    asks_story hstart (List.mem_of_getElem? hi) hstarted
  have hlt : p < m₀.before.phones.length := by
    obtain ⟨phone, hget, -⟩ := mem_newActions.1 hstarted.2
    rw [← (sameNetwork_happen m₀.before m₀.what).phones]
    exact (List.getElem?_eq_some_iff.1 hget).1
  cases hpermits with
  | start _ hd hmode => exact ⟨d, hwhat, hd, hin.lt, hphone, hlt, hin.toneModeAt.trans hmode⟩
  | plain ha => cases ha

theorem phones_after (w : World) (hs : List Happening) :
    (w.after hs).phones.length = w.phones.length := by
  induction hs generalizing w with
  | nil => rfl
  | cons x hs ih => exact (ih _).trans (sameNetwork_happen w x).phones

/-- On a circuit switched leg only long tones are continuous. -/
theorem toneType_of_continuous (hmode : w.toneModeAt c = .continuous)
    (hcircuit : w.bearerAt c = .circuitSwitched) : w.toneType = some .long := by
  rw [toneModeAt, hcircuit] at hmode
  rcases ht : w.toneType with _ | _ | _
  · simp [ht, ToneMode.select] at hmode
  · simp [ht, ToneMode.select] at hmode
  · rfl

/-- **A tone can be stopped where it was started**, unless something moved. A connection has started
a continuous tone on phone `p`. When it is asked to stop later, and is open, the stop reaches `p`
just if the connection is bound to a leg of `p` and its digits go out as continuous tones at that
moment. This is so unless in between it was bound to a leg, or its leg is circuit switched and in
between the user came to prefer other than long tones. -/
theorem stop_reaches_unless_moved (hstart : start.Fresh) (hij : i < j)
    (hi : (start.story ops)[i]? = some m₀) (hj : (start.story ops)[j]? = some m)
    (hstarted : m₀.Asks c p (.startTone digit)) (hwhat : m.what = .deed c .stop)
    (hk : m.before.conns[c]? = some k) (hopen : k.closed = false) :
    (m.Asks c p .stopTone ↔
      m.before.phoneAt c = some p ∧ m.before.toneModeAt c = .continuous) ∧
    (m.Asks c p .stopTone ∨ (∃ m' ∈ ((start.story ops).take j).drop (i + 1), m'.Rebinds c) ∨
      m.before.bearerAt c = .circuitSwitched ∧
        ∃ m' ∈ ((start.story ops).take j).drop (i + 1), ∃ t, m'.what = .prefer t ∧
          t ≠ some .long) := by
  obtain ⟨d, hplays, hd, hc, hphone, hp, hmode⟩ := started_inv hstart hi hstarted
  set hs := ((start.history ops).take j).drop (i + 1)
  have hafter : m.before = m₀.before.after (m₀.what :: hs) := by
    rw [before_of_story hj, during_of_le start ops (show i + 1 ≤ j from hij), during_of_story hi]
    rfl
  have hbetween : m₀.after.moments hs = ((start.story ops).take j).drop (i + 1) := by
    rw [← during_of_story hi]
    exact moments_between start ops hij
  have hlen : p < m.before.phones.length := by
    rw [hafter, phones_after]
    exact hp
  have hiff := asks_stop_iff (orderly_story hstart m (List.mem_of_getElem? hj)) hwhat hk hopen hlen
  refine ⟨hiff, ?_⟩
  by_cases hrebinds : ∃ m' ∈ ((start.story ops).take j).drop (i + 1), m'.Rebinds c
  · exact .inr (.inl hrebinds)
  -- The connection stays where it is, so only the mode can have changed.
  have hunbound : Unbound c (m₀.what :: hs) := by
    refine ⟨fun l hl => ?_, not_closed_before hc (hafter ▸ hk) hopen⟩
    rcases List.mem_cons.1 hl with he | hl
    · cases hplays.symm.trans he.symm
    · obtain ⟨m', hm', hassign⟩ := exists_moment hl (w := m₀.after)
      exact hrebinds ⟨m', hbetween ▸ hm', l, hassign⟩
  obtain ⟨hphone', hbearer⟩ := phoneAt_after hunbound (w := m₀.before)
  rw [← hafter] at hphone' hbearer
  by_cases hprefer : m.before.bearerAt c = .circuitSwitched ∧
      ∃ m' ∈ ((start.story ops).take j).drop (i + 1), ∃ t, m'.what = .prefer t ∧ t ≠ some .long
  · exact .inr (.inr hprefer)
  · refine .inl (hiff.2 ⟨hphone'.trans hphone, ?_⟩)
    rw [hafter, toneModeAt_eq hunbound, hmode]
    rcases hb : m₀.before.bearerAt c with _ | _
    · refine .inr fun t ht => ?_
      rw [toneType_of_continuous hmode hb]
      by_contra hother
      rcases List.mem_cons.1 ht with he | ht
      · cases hplays.symm.trans he.symm
      · obtain ⟨m', hm', hwhat'⟩ := exists_moment ht (w := m₀.after)
        exact hprefer ⟨hbearer.trans hb, m', hbetween ▸ hm', t, hwhat', hother⟩
    · exact .inl rfl

/-- A tone is started and stopped on a leg that packet voice carries, whatever the user prefers. -/
theorem stop_reaches_unless_moved_served :
    let w := served packetLeg
    let ops : List Op := [.connect (some 0) {}, .play 0 '1', .toneType (some .normal), .stop 0]
    w.Fresh ∧ ∃ m₀ m k, (w.story ops)[7]? = some m₀ ∧ (w.story ops)[11]? = some m ∧
      m₀.Asks 0 0 (.startTone '1') ∧ m.what = .deed 0 .stop ∧ m.before.conns[0]? = some k ∧
      k.closed = false ∧ m.Asks 0 0 .stopTone := by
  intro w ops
  have hfirst : (w.story ops)[7]?.map (fun m => decide (m.Asks 0 0 (.startTone '1'))) =
      some true := by decide +kernel
  have hlast : (w.story ops)[11]?.map (fun m =>
      (m.what, m.before.bearerAt 0, m.before.conns[0]?.map (·.closed))) =
      some (.deed 0 .stop, .packetVoice, some false) := by decide +kernel
  have hstays : ∀ m' ∈ ((w.story ops).take 11).drop 8, ¬m'.Rebinds 0 := by decide +kernel
  obtain ⟨m₀, hi, hstarted⟩ := Option.map_eq_some_iff.1 hfirst
  obtain ⟨m, hj, hm⟩ := Option.map_eq_some_iff.1 hlast
  simp only [Prod.mk.injEq] at hm
  obtain ⟨hwhat, hpacket, hopen⟩ := hm
  obtain ⟨k, hk, hopen⟩ := Option.map_eq_some_iff.1 hopen
  have hstarted := of_decide_eq_true hstarted
  refine ⟨fresh_served _, m₀, m, k, hi, hj, hstarted, hwhat, hk, hopen, ?_⟩
  obtain ⟨-, hstops | ⟨m', hm', hrebinds⟩ | ⟨hcircuit, -⟩⟩ :=
    stop_reaches_unless_moved (fresh_served _) (show 7 < 11 by decide) hi hj hstarted hwhat hk hopen
  · exact hstops
  · exact absurd hrebinds (hstays m' hm')
  · cases hpacket.symm.trans hcircuit

/-- A phone each for two legs. -/
def servedApart : World :=
  { phones := [{ id := 0 }, { id := 1 }]
    legs := [Leg.outgoing "5550100" (some 0), Leg.outgoing "5550101" (some 1)]
    toneType := some .long }

/-- **A tone that is not stopped.** A long tone is started, the user comes to prefer normal tones,
and the stop reaches no phone. Or the connection is bound to a leg of another phone, and the stop
reaches that one. -/
theorem stop_lost :
    (let w := { served (Leg.outgoing "5550100" (some 0)) with toneType := some .long }
     let ops : List Op := [.connect (some 0) {}, .play 0 '1', .toneType (some .normal), .stop 0]
     w.Fresh ∧
      (¬∀ i j m₀ m k, i < j → (w.story ops)[i]? = some m₀ → (w.story ops)[j]? = some m →
        m₀.Asks 0 0 (.startTone '1') →
        (∀ m' ∈ ((w.story ops).take j).drop (i + 1),
          (0, .stopTone) ∉ m'.before.newActions m'.after) →
        m.what = .deed 0 .stop → m.before.conns[0]? = some k → k.closed = false →
        m.Asks 0 0 .stopTone) ∧
      (w.run ops).2.phones.map (·.startedTones) = [['1']] ∧
      (w.run ops).2.phones.map (·.count .stopTone) = [0]) ∧
    (let ops : List Op := [.connect (some 0) {}, .play 0 '1', .rebind 0 1, .stop 0]
     servedApart.Fresh ∧ (servedApart.run ops).2.phones.map (·.startedTones) = [['1'], []] ∧
      (servedApart.run ops).2.phones.map (·.count .stopTone) = [0, 1]) := by
  refine ⟨?_, ⟨rfl, rfl, by simp [servedApart], by simp [servedApart], by simp [servedApart]⟩,
    by decide +kernel, by decide +kernel⟩
  intro w ops
  refine ⟨⟨rfl, rfl, by simp [w, served], by simp [w, served], by simp [w, served]⟩,
    fun hall => ?_, by decide +kernel, by decide +kernel⟩
  have hfirst : (w.story ops)[7]?.map (fun m => decide (m.Asks 0 0 (.startTone '1'))) =
      some true := by decide +kernel
  have hlast : (w.story ops)[11]?.map (fun m => (m.what, m.before.conns[0]?.map (·.closed),
      decide (m.Asks 0 0 .stopTone))) = some (.deed 0 .stop, some false, false) := by decide +kernel
  have hbetween : ∀ m' ∈ ((w.story ops).take 11).drop 8,
      (0, .stopTone) ∉ m'.before.newActions m'.after := by decide +kernel
  obtain ⟨m₀, hi, hstarted⟩ := Option.map_eq_some_iff.1 hfirst
  obtain ⟨m, hj, hm⟩ := Option.map_eq_some_iff.1 hlast
  simp only [Prod.mk.injEq] at hm
  obtain ⟨hwhat, hopen, hsilent⟩ := hm
  obtain ⟨k, hk, hopen⟩ := Option.map_eq_some_iff.1 hopen
  exact of_decide_eq_false hsilent
    (hall 7 11 m₀ m k (by decide) hi hj (of_decide_eq_true hstarted) hbetween hwhat hk hopen)

end World

end CdmaCall
