import CdmaCall.Proofs.Waiting.Deadline

/-!
# Legs that stay and deadlines that stay set

What a deed and a happening do to the state of a leg and to a deadline that is set, whatever runs
are allowed to contain: the leg stays in its state or is released unless the network reports
otherwise (`legStays_happen`), and a deadline that is set was set before, without a cause or an
answer since, unless it was set just now (`armed_happen`).
-/

namespace CdmaCall

namespace Scene

variable {s s' s'' : Scene} {full : Bool} {a : Deadline}

/-! ## What deeds make of the leg -/

section Legs

/-- The state of the leg stays, or the leg is released. -/
def LegStays (s s' : Scene) : Prop := ∀ leg', s'.leg = some leg' →
  ∃ leg, s.leg = some leg ∧ (leg'.state = leg.state ∨ leg'.state = .disconnected)

theorem LegStays.of_eq (h : s'.leg = s.leg) : LegStays s s' :=
  fun leg' hleg' => ⟨leg', h ▸ hleg', .inl rfl⟩

theorem LegStays.trans (h : LegStays s s') (h' : LegStays s' s'') : LegStays s s'' := by
  intro leg'' hleg''
  obtain ⟨leg', hleg', hstate'⟩ := h' leg'' hleg''
  obtain ⟨leg, hleg, hstate⟩ := h leg' hleg'
  refine ⟨leg, hleg, ?_⟩
  rcases hstate' with hstate' | hstate'
  · rw [hstate']
    exact hstate
  · exact .inr hstate'

/-- A leg that is asked to hang up is released, or refuses. -/
theorem state_hangUp (leg : Leg) :
    leg.hangUp.2.state = leg.state ∨ leg.hangUp.2.state = .disconnected := by
  unfold Leg.hangUp
  dsimp only
  split_ifs
  · exact .inl rfl
  · exact .inr rfl

theorem perform_leg (s : Scene) (a : Action) : (s.perform a).leg = s.leg := by
  unfold perform
  cases s.phone with
  | none => rfl
  | some p => dsimp only; split <;> rfl

theorem legStays_bit (h : Bit full s s') : LegStays s s' := by
  cases h with
  | perform => exact .of_eq (perform_leg s _)
  | hangUp =>
    intro leg' hleg'
    unfold hangUp at hleg'
    cases hl : s.leg with
    | none => simp [hl] at hleg'
    | some leg =>
      simp only [hl, Option.some.injEq] at hleg'
      exact ⟨leg, rfl, hleg' ▸ state_hangUp leg⟩
  | correct =>
    intro leg' hleg'
    unfold onLineControl at hleg'
    cases hl : s.leg with
    | none => simp [hl] at hleg'
    | some leg =>
      simp only [hl, Option.some.injEq] at hleg'
      refine ⟨leg, rfl, .inl ?_⟩
      rw [← hleg']
      unfold Correction.onRecord
      split_ifs <;> rfl
  | _ => exact .of_eq rfl

theorem legStays_path (h : Path full s s') : LegStays s s' :=
  Path.keeps (fun _ _ hb (ht : LegStays s _) => ht.trans (legStays_bit hb)) h (.of_eq rfl)

theorem legStays_keyBit (h : KeyBit s s') : LegStays s s' := by
  cases h with
  | quiet h => exact legStays_bit h
  | queue => exact .of_eq rfl
  | send digits => exact .of_eq (perform_leg _ _)

theorem legStays_keyPath (h : KeyPath s s') : LegStays s s' :=
  KeyPath.keeps (fun _ _ hb (ht : LegStays s _) => ht.trans (legStays_keyBit hb)) h (.of_eq rfl)

theorem legStays_handle (s : Scene) (e : Event) : LegStays s (s.handle e) := by
  by_cases he : e = .burstConfirmed
  · subst he
    unfold handle
    split_ifs
    · exact .of_eq rfl
    · rcases onBurstConfirmed_cases s with ⟨-, h⟩ | ⟨-, -, h⟩
      · rw [h]
        exact .of_eq rfl
      · rw [h]
        exact .of_eq (perform_leg _ _)
  · exact legStays_path (path_handle s he)

/-- **Deeds** at most release the leg. -/
theorem legStays_act (s : Scene) (d : Deed) : LegStays s (s.act d) := by
  by_cases hbits : d.ofBits = true
  · exact legStays_path (path_act s hbits)
  cases d with
  | play digit => exact legStays_keyPath (keyPath_playTone s digit)
  | keys digits => exact legStays_keyPath (keyPath_pressKeys digits s)
  | close =>
    refine .of_eq ?_
    show s.close.leg = s.leg
    unfold close
    split_ifs <;> rfl
  | handle e => exact legStays_handle s e
  | fetch =>
    show LegStays s s.fetch
    unfold fetch
    cases s.conn.mailbox.waiting with
    | nil => exact .of_eq rfl
    | cons e rest => exact legStays_handle (s.putMail _) e
  | post | attend | retire | arm => exact .of_eq rfl
  | _ => exact absurd rfl hbits

end Legs

/-! ## What deeds make of the guard -/

section Guards

theorem unarmed_path (h : Path full s s') (hs : s.conn.guard.armed = none) :
    s'.conn.guard.armed = none := by
  refine Path.keeps (fun t t' hb (ht : t.conn.guard.armed = none) => ?_) h hs
  cases hb with
  | perform =>
    rename_i a ha
    rw [perform_eq_of_not_burst t ha]
    exact ht
  | disarm => exact disarm_armed t
  | expire => rfl
  | hangUp => unfold hangUp; cases t.leg <;> exact ht
  | correct => unfold onLineControl; cases t.leg <;> exact ht
  | _ => exact ht

theorem disconnect_armed (s : Scene) (cause : Cause) (hlive : ¬s.conn.phase.isTerminal = true) :
    (s.disconnect cause).conn.guard.armed = none := by
  unfold disconnect
  rw [if_neg hlive]
  show ((s.disarm.putCause cause).setPhase .disconnected).conn.guard.armed = none
  exact unarmed_path (path_setPhase _ fun _ => rfl : Path true (s.disarm.putCause cause) _)
    (disarm_armed s)

/-- The deadline that is set was set before, and no cause was recorded meanwhile. -/
def StillArmed (s s' : Scene) (a : Deadline) : Prop :=
  s'.conn.guard.armed = some a → s.conn.guard.armed = some a ∧ s'.conn.cause = s.conn.cause

theorem Outcome.stillArmed (h : Outcome s s') : StillArmed s s' a := by
  intro ha
  cases h with
  | steady h => exact ⟨by rw [← h.guard, ha], h.cause⟩
  | ended cause hcause s₁ h heq =>
    subst heq
    by_cases hterm : s₁.conn.phase.isTerminal = true
    · rw [disconnect_terminal cause hterm] at ha ⊢
      rcases h with h | h
      · exact ⟨by rw [← h.guard, ha], h.cause⟩
      · rw [h.guard, disarm_armed] at ha
        cases ha
    · rw [disconnect_armed s₁ cause hterm] at ha
      cases ha

/-- A deadline that counts is set no more. -/
theorem expire_armed {g g' : Guard} {n : ℕ} (h : g.expire n = (true, g')) : g'.armed = none := by
  unfold Guard.expire at h
  cases harmed : g.armed with
  | none => simp [harmed] at h
  | some d =>
    simp only [harmed] at h
    split_ifs at h
    · rw [← (Prod.mk.inj h).2]
    · cases h

theorem stillArmed_handle (s : Scene) (e : Event) : StillArmed s (s.handle e) a := by
  cases e with
  | missed g =>
    intro ha
    by_cases hclosed : s.conn.closed = true
    · unfold handle at ha ⊢
      rw [if_pos hclosed] at ha ⊢
      exact ⟨ha, rfl⟩
    · unfold handle at ha ⊢
      rw [if_neg hclosed] at ha ⊢
      unfold onMissed at ha ⊢
      rcases hexpire : s.conn.guard.expire g with ⟨_ | _, guard⟩
      · simp only [hexpire] at ha ⊢
        exact ⟨ha, trivial⟩
      · simp only [hexpire] at ha
        rw [unarmed_path (path_clearWaiting _ _) (expire_armed hexpire)] at ha
        cases ha
  | _ => exact (Outcome.steady (Steady.handle s rfl)).stillArmed

theorem answer_armed (hlive : s.conn.isLive = true) : s.answer.conn.guard.armed = none :=
  unarmed_path (answer_cases s hlive) (disarm_armed s)

theorem close_armed (hopen : s.conn.closed = false) : s.close.conn.guard.armed = none := by
  rw [close_eq s hopen]
  exact disarm_armed s

/-- **A deadline that is set after a deed** was set before. -/
theorem stillArmed_act (s : Scene) {d : Deed} (hd : d ≠ .arm) : StillArmed s (s.act d) a := by
  by_cases hplain : d.isOrdinary = true ∧ d.touchesMail = false ∧ d ≠ .answer
  · exact (outcome_act s hplain.1 hplain.2.1 hplain.2.2).stillArmed
  · cases d with
    | answer =>
      intro ha
      by_cases hlive : s.conn.isLive = true
      · exact absurd ((answer_armed hlive).symm.trans ha) (by simp)
      · change s.answer.conn.guard.armed = some a at ha
        show _ ∧ s.answer.conn.cause = _
        unfold answer at ha ⊢
        rw [if_neg hlive] at ha ⊢
        exact ⟨ha, rfl⟩
    | close =>
      intro ha
      change s.close.conn.guard.armed = some a at ha
      show _ ∧ s.close.conn.cause = _
      by_cases hclosed : s.conn.closed = true
      · unfold close at ha ⊢
        rw [if_pos hclosed] at ha ⊢
        exact ⟨ha, rfl⟩
      · exact absurd ((close_armed (by simpa using hclosed)).symm.trans ha) (by simp)
    | enter p =>
      intro ha
      change (s.enter p).conn.guard.armed = some a at ha
      show _ ∧ (s.enter p).conn.cause = _
      by_cases hlive : s.conn.isLive = true
      · rw [enter_eq s p hlive] at ha ⊢
        exact ⟨ha, rfl⟩
      · unfold enter at ha ⊢
        rw [if_neg hlive] at ha ⊢
        exact ⟨ha, rfl⟩
    | handle e => exact stillArmed_handle s e
    | fetch =>
      intro ha
      change s.fetch.conn.guard.armed = some a at ha
      show _ ∧ s.fetch.conn.cause = _
      unfold fetch at ha ⊢
      cases hw : s.conn.mailbox.waiting with
      | nil =>
        simp only [hw] at ha ⊢
        exact ⟨ha, trivial⟩
      | cons e rest =>
        simp only [hw] at ha ⊢
        exact stillArmed_handle (s.putMail { s.conn.mailbox with waiting := rest }) e ha
    | arm => exact absurd rfl hd
    | post e => exact fun ha => ⟨ha, rfl⟩
    | attend => exact fun ha => ⟨ha, rfl⟩
    | retire => exact fun ha => ⟨ha, rfl⟩
    | _ => exact absurd ⟨rfl, rfl, by simp⟩ hplain

end Guards

end Scene

namespace World

open Scene

variable {w w' : World} {c : ConnId} {s s' : Scene} {a : Deadline} {l : LegId} {leg leg' : Leg}
  {x : Happening} {ms : List Moment}

/-! ## What happenings make of legs and guards -/

section Happenings

theorem legStays_putScene {i : ConnId} (h : Within w i s) (hs : LegStays s s')
    (hleg' : (w.putScene i s').legs[l]? = some leg') :
    ∃ leg, w.legs[l]? = some leg ∧ (leg'.state = leg.state ∨ leg'.state = .disconnected) := by
  change (place w.legs (w.legAt i) s'.leg)[l]? = some leg' at hleg'
  rw [h.legAt] at hleg'
  cases hl : s.conn.leg with
  | none => exact ⟨leg', by simpa [hl, place] using hleg', .inl rfl⟩
  | some l₁ =>
    cases hs' : s'.leg with
    | none => exact ⟨leg', by simpa [hl, hs', place] using hleg', .inl rfl⟩
    | some leg₁ =>
      rw [hl, hs'] at hleg'
      by_cases hsame : l₁ = l
      · subst hsame
        obtain ⟨leg, hleg, hstate⟩ := hs leg₁ hs'
        have hlt : l₁ < w.legs.length := (h.leg_isSome.1 (by rw [hleg]; rfl)).elim fun l₂ hl₂ => by
          rw [hl] at hl₂
          obtain rfl := Option.some.inj hl₂.1
          exact hl₂.2
        have heq : leg₁ = leg' := by simpa [place, hlt] using hleg'
        refine ⟨leg, ?_, heq ▸ hstate⟩
        rw [h.leg, hl] at hleg
        exact hleg
      · exact ⟨leg', by simpa [place, hsame] using hleg', .inl rfl⟩

theorem legStays_deed {i : ConnId} {d : Deed}
    (hleg' : (w.happen (.deed i d)).legs[l]? = some leg') :
    ∃ leg, w.legs[l]? = some leg ∧ (leg'.state = leg.state ∨ leg'.state = .disconnected) := by
  rw [happen] at hleg'
  rcases within_or_le w i with ⟨s, hin⟩ | hle
  · rw [onScene_of_within hin] at hleg'
    exact legStays_putScene hin (legStays_act s d) hleg'
  · rw [onScene_of_none hle] at hleg'
    exact ⟨leg', hleg', .inl rfl⟩

/-- **Unless the network reports otherwise**, a leg stays in its state or is released. -/
theorem legStays_happen (hx : ∀ state, x ≠ .report l state)
    (hleg' : (w.happen x).legs[l]? = some leg') :
    ∃ leg, w.legs[l]? = some leg ∧ (leg'.state = leg.state ∨ leg'.state = .disconnected) := by
  cases x with
  | deed i d => exact legStays_deed hleg'
  | report l₁ state =>
    have hne : l₁ ≠ l := fun he => hx state (he ▸ rfl)
    rw [happen, setLegState] at hleg'
    exact ⟨leg', by simpa [List.getElem?_modify, hne] using hleg', .inl rfl⟩
  | refuse l₁ yes =>
    rw [happen, setRefusesHangup, List.getElem?_modify] at hleg'
    obtain ⟨leg, hleg, rfl⟩ := Option.map_eq_some_iff.1 hleg'
    refine ⟨leg, hleg, .inl ?_⟩
    split_ifs <;> rfl
  | release l₁ =>
    rw [happen, hangUpLeg] at hleg'
    cases hl : w.legs[l₁]? with
    | none => exact ⟨leg', by simpa [hl] using hleg', .inl rfl⟩
    | some leg₁ =>
      simp only [hl] at hleg'
      rw [List.getElem?_set] at hleg'
      split_ifs at hleg' with hsame hlt
      · subst hsame
        obtain rfl := Option.some.inj hleg'
        exact ⟨leg₁, hl, state_hangUp leg₁⟩
      · exact ⟨leg', hleg', .inl rfl⟩
  | confirm p =>
    rw [happen] at hleg'
    cases hp : w.phones[p]?.bind (·.releaseBurst) with
    | none => exact ⟨leg', by simpa [hp] using hleg', .inl rfl⟩
    | some taken =>
      simp only [hp] at hleg'
      exact legStays_deed (w := { w with phones := w.phones.set p taken.2 }) hleg'
  | expire limit =>
    rw [happen] at hleg'
    cases hn : w.clock.next? limit with
    | none => exact ⟨leg', by simpa [hn] using hleg', .inl rfl⟩
    | some next =>
      simp only [hn] at hleg'
      exact legStays_deed (w := { w with clock := next.2 }) hleg'
  | _ => exact ⟨leg', hleg', .inl rfl⟩

/-- A deed of a connection, or of another. -/
theorem armed_deed {i : ConnId} {d : Deed} {k' : Conn} (hd : i = c → d ≠ .arm)
    (hk' : (w.happen (.deed i d)).conns[c]? = some k') (ha : k'.guard.armed = some a) :
    ∃ k, w.conns[c]? = some k ∧ k.guard.armed = some a ∧ k'.cause = k.cause ∧ k'.leg = k.leg ∧
      (k.closed = false → k'.closed = false ∧
        (i = c → d ≠ .close ∧ (d = .answer → k.isLive = false))) := by
  rw [happen] at hk'
  rcases within_or_le w i with ⟨s, hin⟩ | hle
  · rw [onScene_of_within hin] at hk'
    by_cases hi : i = c
    · subst hi
      rw [hin.putScene_same] at hk'
      obtain rfl := Option.some.inj hk'
      obtain ⟨harmed, hcause⟩ := stillArmed_act s (hd rfl) ha
      have hclose : s.conn.closed = false → d ≠ .close := by
        rintro hopen rfl
        exact absurd ((close_armed hopen).symm.trans ha) (by simp)
      have hanswer : d = .answer → s.conn.isLive = false := by
        rintro rfl
        by_contra hlive
        exact absurd ((answer_armed (by simpa using hlive)).symm.trans ha) (by simp)
      refine ⟨s.conn, hin.conn, harmed, hcause, ?_, fun hopen => ?_⟩
      · by_cases hclosed : d = .close
        · subst hclosed
          have hsame : s.conn.closed = true := by
            by_contra hopen
            exact hclose (by simpa using hopen) rfl
          show s.close.conn.leg = s.conn.leg
          unfold close
          rw [if_pos hsame]
        · exact (anchored_act s hclosed).bound
      · exact ⟨(closed_act s (hclose hopen)).trans hopen, fun _ => ⟨hclose hopen, hanswer⟩⟩
    · rw [putScene_other (Ne.symm hi)] at hk'
      exact ⟨k', hk', ha, rfl, rfl, fun hopen => ⟨hopen, fun he => absurd he hi⟩⟩
  · rw [onScene_of_none hle] at hk'
    refine ⟨k', hk', ha, rfl, rfl, fun hopen => ⟨hopen, ?_⟩⟩
    rintro rfl
    rw [List.getElem?_eq_none_iff.2 hle] at hk'
    cases hk'

/-- The deadline `a` of connection `c` was set before `x`, which left the cause alone, did not close
the connection and did not make the deadline void. -/
def StaysSet (w : World) (c : ConnId) (x : Happening) (a : Deadline) (k' : Conn) : Prop :=
  ∃ k, w.conns[c]? = some k ∧ k.guard.armed = some a ∧ k'.cause = k.cause ∧
    (k'.leg = k.leg ∨ ∃ l, k'.leg = some l ∧ x = .assign c l) ∧
    (k.closed = false → k'.closed = false ∧ (k.cause = none → ¬Moment.voids c ⟨w, x⟩))

theorem staysSet {k k' : Conn} (hk : w.conns[c]? = some k)
    (hk' : (w.happen x).conns[c]? = some k') (harmed : k.guard.armed = some a)
    (hcause : k'.cause = k.cause) (hleg : k'.leg = k.leg ∨ ∃ l, k'.leg = some l ∧ x = .assign c l)
    (hopen : k.closed = false → k'.closed = false ∧ (x = .deed c .answer → k.isLive = false) ∧
      x ≠ .deed c .close) : StaysSet w c x a k' := by
  refine ⟨k, hk, harmed, hcause, hleg, fun h => ⟨(hopen h).1, fun hnone => ?_⟩⟩
  refine Moment.not_voids (fun k₁ hk₁ => ?_) (fun hwhat k₁ hk₁ => ?_) (hopen h).2.2
  · obtain rfl := Option.some.inj (hk'.symm.trans hk₁)
    exact hcause.trans hnone
  · obtain rfl := Option.some.inj (hk.symm.trans hk₁)
    exact (hopen h).2.1 hwhat

/-- **A deadline that is set** was set before, for a connection that stayed open, unless it was set
just now. -/
theorem armed_happen {k' : Conn} (hx : x ≠ .deed c .arm) (hk' : (w.happen x).conns[c]? = some k')
    (ha : k'.guard.armed = some a) : StaysSet w c x a k' := by
  have hsame (hk : w.conns[c]? = some k') (hnot : ∀ d, x ≠ .deed c d) : StaysSet w c x a k' :=
    staysSet hk hk' ha rfl (.inl rfl) fun h => ⟨h, fun he => absurd he (hnot _), hnot _⟩
  -- What arrives leaves the deadline alone, whatever it was taken from.
  have hhand {v : World} (hconns : v.conns = w.conns) {d : Delivery}
      (hdeed : (v.hand d).conns[c]? = some k') (hnot : ∀ d, x ≠ .deed c d) :
      StaysSet w c x a k' := by
    obtain ⟨k, hk, harmed, hcause, hleg, hopen⟩ :=
      armed_deed (d := .post d.event) (fun _ => by simp) hdeed ha
    exact staysSet (hconns ▸ hk) hk' harmed hcause (.inl hleg) fun h =>
      ⟨(hopen h).1, fun he => absurd he (hnot _), hnot _⟩
  cases x with
  | deed i d =>
    obtain ⟨k, hk, harmed, hcause, hleg, hopen⟩ :=
      armed_deed (fun hi hd => hx (by rw [hi, hd])) hk' ha
    refine staysSet hk hk' harmed hcause (.inl hleg) fun h => ⟨(hopen h).1, ?_, ?_⟩
    · intro he
      obtain ⟨rfl, rfl⟩ := Happening.deed.inj he
      exact ((hopen h).2 rfl).2 rfl
    · intro he
      obtain ⟨rfl, rfl⟩ := Happening.deed.inj he
      exact ((hopen h).2 rfl).1 rfl
  | enlist o =>
    rw [happen] at hk'
    change (w.conns ++ [Conn.fresh o])[c]? = some k' at hk'
    rw [List.getElem?_append] at hk'
    split_ifs at hk' with hc
    · exact hsame hk' (by simp)
    · have hfresh := List.mem_singleton.1 (List.mem_of_getElem? hk')
      rw [hfresh] at ha
      cases ha
  | assign i l =>
    have hget := setLeg_getElem? w i l c
    rw [happen, hget] at hk'
    split_ifs at hk' with hi
    · have hget' : (w.happen (.assign i l)).conns[c]? = some k' := by
        rw [happen, hget, if_pos hi, hk']
      obtain ⟨k, hk, rfl⟩ := Option.map_eq_some_iff.1 hk'
      exact staysSet hk hget' ha rfl (.inr ⟨l, rfl, by rw [hi]⟩) fun h => ⟨h, by simp, by simp⟩
    · exact hsame hk' (by simp)
  | confirm p =>
    have hdeed := hk'
    cases hp : w.phones[p]?.bind (·.releaseBurst) with
    | none =>
      simp only [happen, hp] at hdeed
      exact hsame hdeed (by simp)
    | some taken =>
      simp only [happen, hp] at hdeed
      exact hhand (v := { w with phones := w.phones.set p taken.2 }) rfl hdeed (by simp)
  | expire limit =>
    have hdeed := hk'
    cases hn : w.clock.next? limit with
    | none =>
      simp only [happen, hn] at hdeed
      exact hsame hdeed (by simp)
    | some next =>
      simp only [happen, hn] at hdeed
      exact hhand (v := { w with clock := next.2 }) rfl hdeed (by simp)
  | release l =>
    have hconns : (w.happen (.release l)).conns = w.conns := by
      rw [happen, hangUpLeg]
      cases w.legs[l]? <;> rfl
    exact hsame (hconns ▸ hk') (by simp)
  | _ => exact hsame hk' (by simp)

end Happenings

end World

end CdmaCall
