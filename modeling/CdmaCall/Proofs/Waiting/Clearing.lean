import CdmaCall.Proofs.Waiting.Armed

/-!
# Which calls a deadline clears

Handling a deadline hangs up the leg that its connection is bound to at that moment, and does not
look at the state of the leg. What is known about that leg comes from the history of the connection:
its deadline was set when it was made on a leg that waited, and since then nothing has made the
deadline void (`cleared_unanswered`). The leg still waits, or was released, unless the network
reported another state for it or the connection was bound to it later. Both happen, and then an
active call is cleared (`not_only_waiting`).
-/

namespace CdmaCall

namespace Moment

/-- The deadline of connection `c` is set: the connection is open, no cause is recorded, and its leg
is circuit switched and waits. -/
structure Sets (c : ConnId) (m : Moment) : Prop where
  what : m.what = .deed c .arm
  waits : ∃ k l leg, m.before.conns[c]? = some k ∧ k.closed = false ∧ k.cause = none ∧
    k.leg = some l ∧ m.before.legs[l]? = some leg ∧ leg.state = .waiting ∧
    leg.bearer = .circuitSwitched

/-- Whether the network reports a state of leg `l`, or connection `c` is bound to it. -/
def moves (c : ConnId) (l : LegId) (m : Moment) : Prop :=
  (∃ state, m.what = .report l state) ∨ m.what = .assign c l

/-- Whether leg `l` is asked to hang up. -/
def hangs (l : LegId) (m : Moment) : Bool :=
  m.after.legs[l]?.map (·.hangups) != m.before.legs[l]?.map (·.hangups)

end Moment

namespace Scene

variable {s u : Scene} {leg : Leg} {a : Deadline}

theorem disconnect_leg (s : Scene) (cause : Cause) : (s.disconnect cause).leg = s.leg := by
  unfold disconnect
  split_ifs
  · rfl
  · exact setPhase_leg _ _

/-- Handling a deadline leaves the leg alone, or it is the deadline that is set, and the leg is
asked to hang up. -/
theorem handle_missed_cases (s : Scene) (g : ℕ) :
    (s.handle (.missed g)).leg = s.leg ∨
      ∃ a leg, s.conn.closed = false ∧ s.conn.guard.armed = some a ∧ s.leg = some leg ∧
        s.handle (.missed g) =
          (s.putGuard { s.conn.guard with armed := none }).hangUp.2.disconnect .incomingMissed := by
  by_cases hclosed : s.conn.closed = true
  · left
    unfold handle
    rw [if_pos hclosed]
  cases harmed : s.conn.guard.armed with
  | none =>
    left
    unfold handle onMissed Guard.expire
    simp [harmed, hclosed]
  | some a =>
    by_cases hg : a.generation = g
    · subst hg
      cases hleg : s.leg with
      | none =>
        left
        unfold handle onMissed Guard.expire clearWaiting
        simp [harmed, hclosed, hleg, putGuard, disarm]
      | some leg =>
        have hopen : s.conn.closed = false := by simpa using hclosed
        exact .inr ⟨a, leg, hopen, rfl, rfl, handle_missed_eq s hopen harmed hleg⟩
    · left
      unfold handle onMissed Guard.expire
      simp [harmed, hclosed, hg]

/-- What is left of a call whose leg was asked to hang up because of its deadline. -/
theorem cleared_eq (hopen : s.conn.closed = false) (hcause : s.conn.cause = none)
    (hunarmed : s.conn.guard.armed = none) (hleg : s.leg = some leg) :
    let s' := s.hangUp.2.disconnect .incomingMissed
    s'.leg = some leg.hangUp.2 ∧ s'.conn.phase = .disconnected ∧ s'.conn.guard.armed = none ∧
      s'.conn.cause = if s.conn.phase.isTerminal then none else some .incomingMissed := by
  intro s'
  set v : Scene := { s with leg := some leg.hangUp.2 }
  have hdisconnect : s' = v.disconnect .incomingMissed := by
    have hhung : s.hangUp.2 = v := by
      unfold hangUp
      rw [hleg]
    exact congrArg (disconnect · .incomingMissed) hhung
  refine ⟨by rw [hdisconnect, disconnect_leg], ?_⟩
  by_cases hterm : v.conn.phase.isTerminal = true
  · have hphase : v.conn.phase = .disconnected := by simpa [Phase.isTerminal] using hterm
    rw [hdisconnect, disconnect_terminal _ hterm, if_pos hterm]
    exact ⟨hphase, hunarmed, hcause⟩
  · rw [hdisconnect, disconnect_eq v _ hopen (by simpa using hterm), if_neg hterm]
    exact ⟨rfl, disarm_armed v, rfl⟩

end Scene

namespace World

open Scene

variable {w w' : World} {c : ConnId} {s s' : Scene} {a : Deadline} {l : LegId} {leg : Leg}
  {o : Options} {x : Happening} {ms : List Moment} {hs : List Happening}

/-! ## Where deadlines are set -/

section Setting

theorem Within.unique (h : Within w c s) (h' : Within w c s') : s = s' :=
  Option.some.inj ((scene?_eq_some_iff.2 h).symm.trans (scene?_eq_some_iff.2 h'))

theorem bearer_of_isPacketVoice (hleg : s.leg = some leg) (h : s.isPacketVoice = false) :
    leg.bearer = .circuitSwitched := by
  have hbearer : s.bearer = leg.bearer := by simp [Scene.bearer, hleg]
  rw [isPacketVoice, hbearer] at h
  cases hb : leg.bearer with
  | circuitSwitched => rfl
  | packetVoice =>
    rw [hb] at h
    cases h

/-- A new connection that waits is on a leg that waits, and nothing has happened to it. -/
theorem waits_of_build {leg? : Option LegId} (hw : w.Orderly)
    (hin : Within (w.build leg? o).2 w.conns.length s) (hwaits : s.conn.waiting = true) :
    s.Newborn o ∧ ∃ leg, s.leg = some leg ∧ leg.state = .waiting := by
  set c := w.conns.length
  set w₀ : World := { w with conns := w.conns ++ [Conn.fresh o] }
  have hunbound : (w.build leg? o).2 ≠ w₀.onScene c fun s => s.mark s.legWaits := by
    intro hbuild
    obtain ⟨s₀, hs₀, hconn₀⟩ : ∃ s, Within w₀ c s ∧ s.conn = Conn.fresh o :=
      exists_within (by simp [w₀, c])
    have hleg₀ : s₀.leg = none := by simp [hs₀.leg, hconn₀, Conn.fresh]
    rw [hbuild, onScene_of_within hs₀] at hin
    have hsame := hin.unique (hs₀.putScene (Anchored.of_path (path_mark s₀ s₀.legWaits)))
    rw [hsame] at hwaits
    simp [mark, legWaits, hleg₀] at hwaits
  cases leg? with
  | none => exact absurd rfl hunbound
  | some l =>
    by_cases hlt : l < w.legs.length
    · have hleg : w.legs[l]? = some w.legs[l] := List.getElem?_eq_getElem hlt
      obtain ⟨s₁, -, -, -, hleg₁, -, hin'⟩ := scene_build (o := o) hw hleg
      have hstate : w.legs[l].state = .waiting := by
        rw [hin.unique hin'] at hwaits
        have hlegWaits : s₁.register.update.legWaits = true := hwaits
        unfold legWaits at hlegWaits
        cases hu : s₁.register.update.leg with
        | none => simp [hu] at hlegWaits
        | some leg' =>
          have hpath := (path_register s₁).toFull.trans (path_update _)
          obtain ⟨leg₀, hleg₀, hstays⟩ := legStays_path hpath leg' hu
          obtain rfl := Option.some.inj (hleg₁.symm.trans hleg₀)
          have hwaits' : leg'.state = .waiting := by simpa [hu] using hlegWaits
          rw [hwaits'] at hstays
          rcases hstays with hstays | hstays
          · exact hstays.symm
          · cases hstays
      obtain ⟨s₂, hin₂, hnew, hleg₂, -⟩ := newborn_build (o := o) hw hleg hstate
      rw [hin.unique hin₂]
      exact ⟨hnew, _, hleg₂, hstate⟩
    · refine absurd ?_ hunbound
      show (w₀.bind c l).onScene c _ = _
      unfold World.bind
      rw [if_neg hlt]

theorem not_minor_arm (hx : x.isMinor = true) : x ≠ .deed c .arm := by
  rintro rfl
  cases hx

theorem sets_build (hw : w.Orderly) {leg? : Option LegId} {m : Moment}
    (hin : Within (w.build leg? o).2 w.conns.length s)
    (hcond : (s.conn.waiting && !s.isPacketVoice) = true)
    (hm : m = ⟨(w.build leg? o).2, .deed w.conns.length .arm⟩) (hwhat : m.what = .deed c .arm) :
    m.Sets c := by
  obtain ⟨hwaits, hpacket⟩ := Bool.and_eq_true_iff.1 hcond
  obtain ⟨hnew, leg, hleg, hstate⟩ := waits_of_build hw hin hwaits
  have hbearer := bearer_of_isPacketVoice hleg (by simpa using hpacket)
  obtain ⟨l, hl, hget⟩ := Option.bind_eq_some_iff.1 (hin.leg ▸ hleg)
  subst hm
  obtain ⟨rfl, -⟩ := Happening.deed.inj hwhat
  exact ⟨rfl, s.conn, l, leg, hin.conn, hnew.opened, hnew.cause, hl, hget, hstate, hbearer⟩

/-- A deadline is set when a connection is made, and the connection waits. -/
theorem sets_connect (hw : w.Orderly) {leg? : Option LegId} {m : Moment}
    (hm : m ∈ w.moments (w.connectCourse leg? o)) (hwhat : m.what = .deed c .arm) : m.Sets c := by
  rw [connectCourse, moments_append] at hm
  rcases List.mem_append.1 hm with hm | hm
  · exact absurd hwhat (not_minor_arm (minor_build (what_mem hm)))
  · have hafter : w.after (w.buildCourse leg? o) = (w.build leg? o).2 := by rw [build_eq]
    rw [hafter] at hm
    unfold armCourse at hm
    cases hscene : (w.build leg? o).2.scene? w.conns.length with
    | none => simp [hscene, moments] at hm
    | some s =>
      simp only [hscene] at hm
      split_ifs at hm with hcond hrunning
      all_goals simp only [moments, List.mem_cons, List.not_mem_nil, or_false] at hm
      · exact sets_build hw (scene?_eq_some_iff.1 hscene) hcond hm hwhat
      · rcases hm with hm | hm
        · exact sets_build hw (scene?_eq_some_iff.1 hscene) hcond hm hwhat
        · rw [hm] at hwhat
          exact absurd (Happening.deed.inj hwhat).2 (by decide)

/-- No other request sets a deadline. -/
theorem arm_not_mem {op : Op} (hop : ∀ leg? o, op ≠ .connect leg? o) :
    .deed c .arm ∉ w.course op := by
  intro hh
  rcases routine_or_asked hh with hr | ha
  · cases hr with
    | minor hm => exact not_minor_arm hm rfl
    | timer n ht => rcases ht with ht | ht <;> cases ht
    | arm leg? o => exact hop leg? o rfl
  · cases op <;> simp [Op.happening?] at ha

/-- **Wherever a deadline is set** in a run, the call waits. -/
theorem sets_story (ops : List Op) (hw : w.Orderly) :
    ∀ m ∈ w.story ops, m.what = .deed c .arm → m.Sets c := by
  induction ops generalizing w with
  | nil => simp [story, history, moments]
  | cons op ops ih =>
    intro m hm hwhat
    rw [story_cons, moments_append] at hm
    rcases List.mem_append.1 hm with hm | hm
    · rcases List.mem_append.1 hm with hm | hm
      · by_cases hop : ∃ leg? o, op = .connect leg? o
        · obtain ⟨leg?, o, rfl⟩ := hop
          exact sets_connect hw hm hwhat
        · have hnot : .deed c .arm ∉ w.course op :=
            arm_not_mem fun leg? o he => hop ⟨leg?, o, he⟩
          exact absurd (hwhat ▸ what_mem hm) hnot
      · have hord : m.what.Ordinary c := ordinary_timers (what_mem hm)
        rw [hwhat] at hord
        exact absurd (hord rfl).1 (by decide)
    · exact ih (hw.step op) m hm hwhat

end Setting

/-! ## Since a deadline was set -/

section Since

/-- If the deadline of `c` is set, it was set at one of the moments so far, and nothing has made it
void since. The leg waits or was released, unless it was moved since. -/
def Accounted (c : ConnId) (ms : List Moment) (w : World) : Prop :=
  ∀ k a, w.conns[c]? = some k → k.guard.armed = some a → k.closed = false ∧ k.cause = none ∧
    ∃ pre m post, ms = pre ++ m :: post ∧ m.Sets c ∧ (∀ m' ∈ post, ¬m'.voids c) ∧
      ∀ l leg, k.leg = some l → w.legs[l]? = some leg →
        leg.state = .waiting ∨ leg.state = .disconnected ∨ ∃ m' ∈ post, m'.moves c l

theorem Accounted.next (h : Accounted c ms w)
    (hset : x = .deed c .arm → (Moment.mk w x).Sets c) :
    Accounted c (ms ++ [⟨w, x⟩]) (w.happen x) := by
  intro k' a hk' ha
  by_cases hx : x = .deed c .arm
  · have hsets := hset hx
    obtain ⟨k, l, leg, hk, hopen, hcause, hl, hleg, hstate, -⟩ := hsets.waits
    obtain ⟨s, hin, hconn⟩ := exists_within hk
    have harmed : k' = (s.act .arm).conn := by
      rw [hx, happen, onScene_of_within hin, hin.putScene_same] at hk'
      exact (Option.some.inj hk').symm
    subst harmed hconn
    refine ⟨hopen, hcause, ms, _, [], rfl, hsets, by simp, fun l' leg' hl' hleg' => ?_⟩
    obtain rfl := Option.some.inj (hl.symm.trans hl')
    have hreport : ∀ state, x ≠ .report l state := fun state he => by rw [hx] at he; cases he
    obtain ⟨leg₀, hleg₀, hstays⟩ := legStays_happen hreport hleg'
    obtain rfl := Option.some.inj (hleg.symm.trans hleg₀)
    rw [hstate] at hstays
    rcases hstays with hstays | hstays
    · exact .inl hstays
    · exact .inr (.inl hstays)
  · obtain ⟨k, hk, harmed, hcause, hleg, hopen⟩ := armed_happen hx hk' ha
    obtain ⟨hk₀, hnone, pre, m, post, hms, hsets, hcalm, hstates⟩ := h k a hk harmed
    obtain ⟨hk₀', hvoids⟩ := hopen hk₀
    refine ⟨hk₀', hcause.trans hnone, pre, m, post ++ [⟨w, x⟩], by simp [hms], hsets,
      forall_moment hcalm (hvoids hnone), fun l leg' hl hleg' => ?_⟩
    by_cases hmoves : Moment.moves c l ⟨w, x⟩
    · exact .inr (.inr ⟨_, List.mem_append_right _ (List.mem_singleton_self _), hmoves⟩)
    · have hreport : ∀ state, x ≠ .report l state := fun state he => hmoves (.inl ⟨state, he⟩)
      obtain ⟨leg, hleg₀, hstate⟩ := legStays_happen hreport hleg'
      have hl₀ : k.leg = some l := by
        rcases hleg with hsame | ⟨l₁, hl₁, hassign⟩
        · rw [← hsame, hl]
        · obtain rfl := Option.some.inj (hl.symm.trans hl₁)
          exact absurd (.inr hassign) hmoves
      rcases hstate with hstate | hstate
      · rw [hstate]
        rcases hstates l leg hl₀ hleg₀ with hw | hd | ⟨m', hm', hmoved⟩
        · exact .inl hw
        · exact .inr (.inl hd)
        · exact .inr (.inr ⟨m', List.mem_append_left _ hm', hmoved⟩)
      · exact .inr (.inl hstate)

theorem Accounted.after (h : Accounted c ms w)
    (hset : ∀ m ∈ w.moments hs, m.what = .deed c .arm → m.Sets c) :
    Accounted c (ms ++ w.moments hs) (w.after hs) := by
  induction hs generalizing w ms with
  | nil => simpa [moments] using h
  | cons x hs ih =>
    have hnext := h.next (hset _ (List.mem_cons_self ..))
    have hrest := ih hnext fun m hm => hset m (List.mem_cons_of_mem _ hm)
    simpa [moments] using hrest

/-- What is known after any part of a run that starts afresh. -/
theorem accounted_during {start : World} (hstart : start.Fresh) (ops : List Op) (n : ℕ)
    (c : ConnId) : Accounted c ((start.story ops).take n) (start.during ops n) := by
  have hempty : Accounted c [] start := by
    intro k a hk
    simp [hstart.conns] at hk
  have hset : ∀ m ∈ start.moments ((start.history ops).take n), m.what = .deed c .arm →
      m.Sets c := by
    intro m hm
    rw [moments_take] at hm
    exact sets_story ops hstart.orderly m (List.mem_of_mem_take hm)
  have hafter := hempty.after hset
  rwa [moments_take] at hafter

/-- **At every moment of a run** that starts afresh. -/
theorem accounted_story {start : World} {ops : List Op} {pre post : List Moment} {m : Moment}
    (hstart : start.Fresh) (hstory : start.story ops = pre ++ m :: post) (c : ConnId) :
    Accounted c pre m.before := by
  obtain ⟨hs₁, hs₂, hhistory, hpre, hbefore⟩ := moments_split hstory
  have hempty : Accounted c [] start := by
    intro k a hk
    simp [hstart.conns] at hk
  have hset : ∀ m' ∈ start.moments hs₁, m'.what = .deed c .arm → m'.Sets c := by
    intro m' hm'
    refine sets_story ops hstart.orderly m' ?_
    rw [story, hhistory, moments_append]
    exact List.mem_append_left _ hm'
  have hafter := hempty.after hset
  rwa [hpre, hbefore]

end Since

/-! ## Clearing -/

section Clearing

/-- Handling a deadline is one request of the connection, whether it is handed over or fetched. -/
theorem hears_cases {m : Moment} (h : m.hears c = true) :
    m.after = m.before ∨ ∃ s mailbox g, Within m.before c s ∧
      m.after = m.before.putScene c ((s.putMail mailbox).handle (.missed g)) := by
  obtain ⟨w, x⟩ := m
  cases x with
  | deed i d =>
    rcases within_or_le w i with ⟨s, hin⟩ | hle
    · have hafter : (Moment.mk w (.deed i d)).after = w.putScene i (s.act d) :=
        onScene_of_within hin _
      cases d with
      | handle e =>
        obtain ⟨hi, he⟩ := Bool.and_eq_true_iff.1 h
        obtain rfl : i = c := by simpa using hi
        cases e with
        | missed g => exact .inr ⟨s, s.conn.mailbox, g, hin, hafter⟩
        | _ => cases he
      | fetch =>
        obtain ⟨hi, he⟩ := Bool.and_eq_true_iff.1 h
        obtain rfl : i = c := by simpa using hi
        simp only [hin.conn, Option.bind_some] at he
        cases hw : s.conn.mailbox.waiting with
        | nil => simp [hw] at he
        | cons e rest =>
          cases e with
          | missed g =>
            refine .inr ⟨s, { s.conn.mailbox with waiting := rest }, g, hin, hafter.trans ?_⟩
            show w.putScene i s.fetch = _
            unfold fetch
            rw [hw]
          | _ => simp [hw, Event.isMissed] at he
      | _ => cases h
    · exact .inl (onScene_of_none hle _)
  | _ => cases h

/-- **Whenever a deadline makes a connection hang up a leg**, it is the leg to which the connection
is bound. The deadline was set when the connection was made on a leg that waited, and since then
nothing has made it void. The leg waits or was released, unless since then the network reported a
state for it or the connection was bound to it. Whatever its state is, it is asked to hang up, and
the call has ended, as missed unless it had ended before. -/
theorem cleared_unanswered {start : World} {ops : List Op} {pre post : List Moment} {m : Moment}
    (hstart : start.Fresh) (hstory : start.story ops = pre ++ m :: post)
    (hhears : m.hears c = true) (hhangs : m.hangs l = true) :
    ∃ k leg, m.before.conns[c]? = some k ∧ k.leg = some l ∧ m.before.legs[l]? = some leg ∧
      k.closed = false ∧ k.cause = none ∧
      (∃ first arm since, pre = first ++ arm :: since ∧ arm.Sets c ∧
        (∀ m' ∈ since, ¬m'.voids c) ∧
        (leg.state = .waiting ∨ leg.state = .disconnected ∨ ∃ m' ∈ since, m'.moves c l)) ∧
      m.after.legs = m.before.legs.set l leg.hangUp.2 ∧
      ∃ k', m.after.conns[c]? = some k' ∧ k'.phase = .disconnected ∧
        k'.guard.isArmed = false ∧
        k'.cause = if k.phase.isTerminal then none else some .incomingMissed := by
  have hmoved : m.after.legs[l]?.map (·.hangups) ≠ m.before.legs[l]?.map (·.hangups) := by
    simpa [Moment.hangs] using hhangs
  rcases hears_cases hhears with hsame | ⟨s, mailbox, g, hin, hafter⟩
  · rw [hsame] at hmoved
    exact absurd rfl hmoved
  · set u := s.putMail mailbox
    rcases handle_missed_cases u g with hkept | ⟨a, leg, hopen, harmed, hleg, hhandle⟩
    · have hlegs : m.after.legs = m.before.legs := by
        rw [hafter]
        show place _ (m.before.legAt c) _ = _
        rw [hkept, hin.legAt]
        exact place_self hin.leg
      rw [hlegs] at hmoved
      exact absurd rfl hmoved
    · obtain ⟨-, hcause, first, arm, since, hpre, hsets, hcalm, hstates⟩ :=
        accounted_story hstart hstory c s.conn a hin.conn harmed
      obtain ⟨hleg', hphase, hunarmed, hcause'⟩ := cleared_eq
        (s := u.putGuard { u.conn.guard with armed := none }) hopen hcause rfl hleg
      obtain ⟨l₁, hl₁, hget⟩ := Option.bind_eq_some_iff.1 (hin.leg ▸ (hleg : s.leg = some leg))
      rw [hhandle] at hafter
      have hlegs : m.after.legs = m.before.legs.set l₁ leg.hangUp.2 := by
        rw [hafter]
        show place _ (m.before.legAt c) _ = _
        rw [hin.legAt, hl₁, hleg']
        rfl
      obtain rfl : l₁ = l := by
        by_contra hne
        rw [hlegs, List.getElem?_set_ne hne] at hmoved
        exact hmoved rfl
      refine ⟨s.conn, leg, hin.conn, hl₁, hget, hopen, hcause,
        ⟨first, arm, since, hpre, hsets, hcalm, hstates l₁ leg hl₁ hget⟩, hlegs, _, ?_, hphase, ?_,
        hcause'⟩
      · rw [hafter]
        exact hin.putScene_same _
      · simp [Guard.isArmed, hunarmed]

/-- The network reports a call as active that nobody answered here. -/
theorem cleared_unanswered_served :
    let w := served (Leg.waiting "5550100" (some 0))
    let ops : List Op := [.connect (some 0) { direction := .incoming }, .drive 0,
      .legState 0 .active, .advance 20000]
    ∃ pre m post, w.story ops = pre ++ m :: post ∧ m.hears 0 = true ∧ m.hangs 0 = true ∧
      ∃ first arm since, pre = first ++ arm :: since ∧ arm.Sets 0 ∧ ∃ m' ∈ since, m'.moves 0 0 := by
  intro w ops
  have hheard : ∃ m ∈ w.story ops, m.hears 0 = true ∧ m.hangs 0 = true ∧
      m.before.legs.map (·.state) = [.active] := by decide +kernel
  obtain ⟨m, hm, hhears, hhangs, hactive⟩ := hheard
  obtain ⟨pre, post, hstory⟩ := List.append_of_mem hm
  obtain ⟨k, leg, -, -, hleg, -, -, ⟨first, arm, since, hpre, hsets, -, hstate⟩, -⟩ :=
    cleared_unanswered (fresh_served _) hstory hhears hhangs
  refine ⟨pre, m, post, hstory, hhears, hhangs, first, arm, since, hpre, hsets, ?_⟩
  have hmap := congrArg (·[0]?) hactive
  simp only [List.getElem?_map, hleg, Option.map_some] at hmap
  rw [Option.some.inj hmap] at hstate
  rcases hstate with hstate | hstate | hmoved
  · cases hstate
  · cases hstate
  · exact hmoved

/-- **The deadline does not look at the leg.** A call that waited, and that the network reports as
active and the connection follows, is hung up and counts as missed all the same. -/
theorem not_only_waiting :
    let w := served (Leg.waiting "5550100" (some 0))
    let ops : List Op := [.connect (some 0) { direction := .incoming }, .drive 0,
      .legState 0 .active, .update 0, .advance 20000]
    w.Fresh ∧
      (¬∀ m ∈ w.story ops, m.hears 0 = true → m.hangs 0 = true →
        m.before.legs.map (·.state) = [.waiting]) ∧
      ∃ m ∈ w.story ops, m.hears 0 = true ∧ m.hangs 0 = true ∧
        m.before.legs.map (·.state) = [.active] ∧ m.before.conns.map (·.phase) = [.active] ∧
        m.after.conns.map (·.cause) = [some .incomingMissed] :=
  ⟨fresh_served _, by decide +kernel, by decide +kernel⟩

end Clearing

end World

end CdmaCall
