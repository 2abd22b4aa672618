import CdmaCall.Proofs.Session.Setup
import CdmaCall.Proofs.World.Network
import CdmaCall.Proofs.World.Workload

/-!
# The connect time is corrected once

A line control record is ripe for a connection if its leg is active, outgoing and connected for some
time. The first ripe record that a connection handles while it is open starts the duration of the
leg anew, and sets a latch that only closing takes back. So a connection corrects a connect time
once at most, at its first ripe record, whatever else happens and to whichever legs it was bound
before, and its snapshot shows whether it did (`corrected_once`).
-/

namespace CdmaCall

/-! ## Definitions -/

section Defs

/-- Whether a line control record shows that the far end has answered: the leg is active, the local
subscriber placed it, and it has lasted for some time. -/
def Leg.isRipe (l : Leg) (now : ℕ) : Bool :=
  l.state == .active && !l.incoming && 0 < l.duration now

/-- Whether the leg of a connection is ripe. -/
def Scene.isRipe (s : Scene) : Bool := s.leg.any (·.isRipe s.clock.now)

/-- Whether a line control record is what a connection corrects the connect time at. -/
def Scene.isDue (s : Scene) : Bool := !s.conn.closed && !s.conn.correction.made && s.isRipe

/-- The connect time of the leg is corrected. -/
def Scene.rebase (s : Scene) : Scene :=
  { s with
    conn := { s.conn with correction := ⟨true⟩ }
    leg := s.leg.map (·.resetTime s.clock.now) }

namespace World

/-- Whether a line control record would be ripe for connection `c`. -/
def ripe (w : World) (c : ConnId) : Bool := (w.scene? c).any (·.isRipe)

/-- Whether the latch of connection `c` is set. -/
def corrected (w : World) (c : ConnId) : Bool :=
  (w.conns[c]?.map (·.correction.made)).getD false

/-- Whether connection `c` is closed. -/
def isClosed (w : World) (c : ConnId) : Bool := (w.conns[c]?.map (·.closed)).getD false

end World

namespace Moment

/-- Whether connection `c` handles a line control record, which it ignores if it is closed. -/
def hearsRecord (c : ConnId) (m : Moment) : Bool :=
  match m.what with
  | .deed i d => i == c && (m.before.scene? c).any fun s => s.event? d == some .lineControl
  | _ => false

/-- Whether connection `c` handles a ripe line control record while it is open. -/
def hearsRipe (c : ConnId) (m : Moment) : Bool :=
  m.hearsRecord c && !m.before.isClosed c && m.before.ripe c

/-- Whether connection `c` resets the connect time of a leg. -/
def corrects (c : ConnId) (m : Moment) : Bool :=
  m.what.subject? == some c && m.after.legs.map (·.timeResets) != m.before.legs.map (·.timeResets)

end Moment

end Defs

/-! ## Scenes -/

namespace Scene

variable {s s' : Scene} {d : Deed}

theorem onRecord_eq (k : Correction) (leg : Leg) (now : ℕ) : k.onRecord leg now =
    if k.made = false ∧ leg.isRipe now = true then (true, ⟨true⟩, leg.resetTime now)
    else (false, k, leg) := by
  have hdue : (!k.made && leg.state == .active && leg.duration now != 0 && !leg.incoming) = true ↔
      k.made = false ∧ leg.isRipe now = true := by
    simp only [Leg.isRipe, Bool.and_eq_true, Bool.not_eq_true', bne_iff_ne, decide_eq_true_eq,
      Nat.pos_iff_ne_zero]
    tauto
  simp only [Correction.onRecord, hdue]

/-- A record corrects the connect time, or changes nothing. -/
theorem onLineControl_eq (s : Scene) :
    s.onLineControl = if s.conn.correction.made = false ∧ s.isRipe = true then s.rebase else s := by
  unfold onLineControl isRipe rebase
  rcases hl : s.leg with _ | leg
  · simp
  · dsimp only [Option.any_some, Option.map_some]
    rw [onRecord_eq]
    split_ifs
    · rfl
    · rw [← hl]

/-- **What a line control record does.** -/
theorem act_record (he : s.event? d = some .lineControl) :
    ∃ mailbox, s.act d = if s.isDue then (s.putMail mailbox).rebase else s.putMail mailbox := by
  obtain ⟨mailbox, hact⟩ := act_of_event he
  refine ⟨mailbox, ?_⟩
  rw [hact, handle, isDue]
  show (if s.conn.closed = true then _ else (s.putMail mailbox).onLineControl) = _
  rw [onLineControl_eq]
  show (if s.conn.closed = true then _ else if s.conn.correction.made = false ∧ s.isRipe = true
    then _ else _) = _
  by_cases hclosed : s.conn.closed = true
  · simp [hclosed]
  · simp [hclosed]

theorem resets_of_bare {l l' : Option Leg} (h : l'.map Leg.bare = l.map Leg.bare) :
    l'.map (·.timeResets) = l.map (·.timeResets) := by
  have hresets := congrArg (Option.map (·.timeResets)) h
  rw [Option.map_map, Option.map_map] at hresets
  exact hresets

/-- Nothing but a line control record resets a connect time. -/
theorem resets_act (he : s.event? d ≠ some .lineControl) :
    (s.act d).leg.map (·.timeResets) = s.leg.map (·.timeResets) := by
  rcases (effect_act s d).unmoved_or with
    h | ⟨-, hopen, hs'⟩ | ⟨-, he', -⟩ | ⟨-, hs'⟩ | ⟨-, hs'⟩
  · exact resets_of_bare h.leg
  · rw [hs', close_eq s hopen]
    rfl
  · exact absurd he' he
  · rw [hs']
    rfl
  · rw [hs']
    rfl

/-- Nothing but closing and a line control record touches the latch. -/
theorem correction_act (he : s.event? d ≠ some .lineControl)
    (hclose : d = .close → s.conn.closed = true) :
    (s.act d).conn.correction = s.conn.correction := by
  rcases (effect_act s d).unmoved_or with
    h | ⟨hd, hopen, -⟩ | ⟨-, he', -⟩ | ⟨-, hs'⟩ | ⟨-, hs'⟩
  · exact h.correction
  · cases (hclose hd).symm.trans hopen
  · exact absurd he' he
  · rw [hs']
    rfl
  · rw [hs']
    rfl

end Scene

/-! ## Whatever happens -/

namespace World

open Scene

variable {w start : World} {c i : ConnId} {s : Scene} {d : Deed} {x : Happening}
  {ms pre post : List Moment} {m : Moment}

theorem Within.ripe (h : Within w c s) : w.ripe c = s.isRipe := by
  simp [World.ripe, scene?_eq_some_iff.2 h]

theorem Within.corrected (h : Within w c s) : w.corrected c = s.conn.correction.made := by
  simp [World.corrected, h.conn]

theorem Within.isClosed (h : Within w c s) : w.isClosed c = s.conn.closed := by
  simp [World.isClosed, h.conn]

/-- What something that happens has to do with line control records and connection `c`. -/
inductive RecordStep (w : World) (c : ConnId) (x : Happening) : Prop
  | aside (hhears : Moment.hearsRecord c ⟨w, x⟩ = false)
      (hcorrects : Moment.corrects c ⟨w, x⟩ = false)
      (hclosed : (w.happen x).isClosed c = w.isClosed c)
      (hlatch : (w.happen x).corrected c = w.corrected c)
  | shut (hhears : Moment.hearsRecord c ⟨w, x⟩ = false)
      (hcorrects : Moment.corrects c ⟨w, x⟩ = false)
      (hclosed : (w.happen x).isClosed c = true)
      (hlatch : (w.happen x).corrected c = false)
  /-- The record is not ripe, or comes too late. -/
  | ignore (hhears : Moment.hearsRecord c ⟨w, x⟩ = true)
      (hdue : w.isClosed c = true ∨ w.corrected c = true ∨ w.ripe c = false)
      (hlegs : (w.happen x).legs = w.legs)
      (hclosed : (w.happen x).isClosed c = w.isClosed c)
      (hlatch : ∀ i, (w.happen x).corrected i = w.corrected i)
  /-- The first ripe record. -/
  | rebase (hhears : Moment.hearsRecord c ⟨w, x⟩ = true) (hopen : w.isClosed c = false)
      (hmade : w.corrected c = false) (hripe : w.ripe c = true)
      (hlegs : ∃ l leg, w.legAt c = some l ∧ w.legs[l]? = some leg ∧
        (w.happen x).legs = w.legs.set l (leg.resetTime w.clock.now))
      (hclosed : (w.happen x).isClosed c = false)
      (hlatch : (w.happen x).corrected c = true)

theorem corrects_of_resets
    (h : (w.happen x).legs.map (·.timeResets) = w.legs.map (·.timeResets)) :
    Moment.corrects c ⟨w, x⟩ = false := by
  simp [Moment.corrects, Moment.after, h]

/-- What happens to others leaves the latch alone. -/
theorem recordStep_other (hx : ∀ d, x ≠ .deed c d) : RecordStep w c x := by
  have hhears : Moment.hearsRecord c ⟨w, x⟩ = false := by
    cases x with
    | deed i d =>
      have hi : (i == c) = false := beq_eq_false_iff_ne.2 fun hi => hx d (by rw [hi])
      simp [Moment.hearsRecord, hi]
    | _ => rfl
  have hcorrects : Moment.corrects c ⟨w, x⟩ = false := by
    by_cases hassign : ∃ l, x = .assign c l
    · obtain ⟨l, rfl⟩ := hassign
      exact corrects_of_resets rfl
    · have hsubject : x.subject? ≠ some c := by
        intro hsubject
        cases x with
        | deed i d => exact hx d (by rw [Option.some.inj hsubject])
        | assign i l => exact hassign ⟨l, by rw [Option.some.inj hsubject]⟩
        | _ => cases hsubject
      simp [Moment.corrects, hsubject]
  exact .aside hhears hcorrects (seen_happen (fun _ => rfl) (fun _ _ => rfl) (fun _ _ => rfl) hx)
    (seen_happen (fun _ => rfl) (fun _ _ => rfl) (fun _ _ => rfl) hx)

theorem Within.hearsRecord (h : Within w c s) (d : Deed) :
    Moment.hearsRecord c ⟨w, .deed c d⟩ = (s.event? d == some .lineControl) := by
  simp [Moment.hearsRecord, scene?_eq_some_iff.2 h]

theorem Within.isClosed_deed (h : Within w c s) (d : Deed) :
    (w.happen (.deed c d)).isClosed c = (s.act d).conn.closed := by
  rw [World.isClosed, h.conn_deed]
  rfl

theorem Within.corrected_deed (h : Within w c s) (d : Deed) :
    (w.happen (.deed c d)).corrected c = (s.act d).conn.correction.made := by
  rw [World.corrected, h.conn_deed]
  rfl

/-- A record that the connect time is corrected at. -/
theorem recordStep_due (hin : Within w c s) (he : s.event? d = some .lineControl)
    (hdue : s.isDue = true) : RecordStep w c (.deed c d) := by
  obtain ⟨mailbox, hact⟩ := act_record he
  rw [if_pos hdue] at hact
  simp only [isDue, Bool.and_eq_true, Bool.not_eq_true'] at hdue
  obtain ⟨⟨hopen, hmade⟩, hripe⟩ := hdue
  refine .rebase (by simp [hin.hearsRecord, he]) (hin.isClosed.trans hopen)
    (hin.corrected.trans hmade) (hin.ripe.trans hripe) ?_ ?_ ?_
  · obtain ⟨leg, hleg, -⟩ := (Option.any_eq_true _ _).1 hripe
    obtain ⟨l, hl, hleg'⟩ := Option.bind_eq_some_iff.1 (hin.leg ▸ hleg)
    have hplace : (w.putScene c (s.putMail mailbox).rebase).legs =
        place w.legs (w.legAt c) (s.leg.map (·.resetTime s.clock.now)) := rfl
    refine ⟨l, leg, hin.legAt.trans hl, hleg', ?_⟩
    rw [hin.happen_deed, hact, hplace, hin.legAt, hl, hleg, hin.clock]
    rfl
  · rw [hin.isClosed_deed, hact]
    exact hopen
  · rw [hin.corrected_deed, hact]
    rfl

theorem not_due (hdue : s.isDue = false) :
    s.conn.closed = true ∨ s.conn.correction.made = true ∨ s.isRipe = false := by
  unfold isDue at hdue
  rcases hclosed : s.conn.closed with _ | _
  · rcases hmade : s.conn.correction.made with _ | _
    · simpa [hclosed, hmade] using hdue
    · exact .inr (.inl rfl)
  · exact .inl rfl

/-- Any other record changes at most a mailbox. -/
theorem recordStep_ignored (hin : Within w c s) (he : s.event? d = some .lineControl)
    (hdue : s.isDue = false) : RecordStep w c (.deed c d) := by
  obtain ⟨mailbox, hact⟩ := act_record he
  rw [if_neg (by simp [hdue])] at hact
  refine .ignore (by simp [hin.hearsRecord, he]) ?_ ?_ ?_ fun i => ?_
  · rw [hin.isClosed, hin.corrected, hin.ripe]
    exact not_due hdue
  · have hplace : (w.putScene c (s.putMail mailbox)).legs = place w.legs (w.legAt c) s.leg := rfl
    rw [hin.happen_deed, hact, hplace, place_self (hin.legAt ▸ hin.leg)]
  · rw [hin.isClosed_deed, hact, hin.isClosed]
    rfl
  · by_cases hi : i = c
    · rw [hi, hin.corrected_deed, hact, hin.corrected]
      rfl
    · exact seen_happen (fun _ => rfl) (fun _ _ => rfl) (fun _ _ => rfl)
        fun d' hd' => hi (Happening.deed.inj hd').1.symm

/-- A deed that has nothing to do with a record. -/
theorem recordStep_plain (hin : Within w c s) (he : s.event? d ≠ some .lineControl) :
    RecordStep w c (.deed c d) := by
  have hhears : Moment.hearsRecord c ⟨w, .deed c d⟩ = false := by
    rw [hin.hearsRecord, beq_eq_false_iff_ne]
    exact he
  have hcorrects : Moment.corrects c ⟨w, .deed c d⟩ = false := by
    refine corrects_of_resets ?_
    rw [hin.happen_deed]
    exact map_place_of_eq (hin.legAt ▸ hin.leg) (resets_act he)
  by_cases hclose : d = .close
  · subst hclose
    have hclosed : (w.happen (.deed c .close)).isClosed c = true :=
      (hin.isClosed_deed .close).trans (closed_close s)
    by_cases hopen : s.conn.closed = false
    · refine .shut hhears hcorrects hclosed ?_
      rw [hin.corrected_deed]
      show s.close.conn.correction.made = false
      rw [close_eq s hopen]
      rfl
    · have hshut : s.conn.closed = true := by simpa using hopen
      refine .aside hhears hcorrects (by rw [hclosed, hin.isClosed, hshut]) ?_
      rw [hin.corrected_deed, hin.corrected, correction_act he fun _ => hshut]
  · refine .aside hhears hcorrects ?_ ?_
    · rw [hin.isClosed_deed, hin.isClosed, closed_act s hclose]
    · rw [hin.corrected_deed, hin.corrected, correction_act he fun hd => absurd hd hclose]

/-- **Line control records, whatever happens.** -/
theorem recordStep (w : World) (c : ConnId) (x : Happening) : RecordStep w c x := by
  by_cases hx : ∃ d, x = .deed c d
  · obtain ⟨d, rfl⟩ := hx
    rcases within_or_le w c with ⟨s, hin⟩ | hle
    · by_cases he : s.event? d = some .lineControl
      · rcases hdue : s.isDue with _ | _
        · exact recordStep_ignored hin he hdue
        · exact recordStep_due hin he hdue
      · exact recordStep_plain hin he
    · have hsame : w.happen (.deed c d) = w := onScene_of_none hle _
      refine .aside ?_ (corrects_of_resets (by rw [hsame])) (by rw [hsame]) (by rw [hsame])
      simp [Moment.hearsRecord, scene?_eq_none_iff.2 hle]
  · exact recordStep_other fun d hd => hx ⟨d, hd⟩

/-! ## The latch -/

/-- The latch of connection `c` is set if it has corrected a connect time and is open, and it has
corrected one if it has heard a ripe record. -/
structure Latch (c : ConnId) (ms : List Moment) (w : World) : Prop where
  set_iff : w.corrected c = true ↔ w.isClosed c = false ∧ ∃ m ∈ ms, m.corrects c = true
  heard : (∃ m ∈ ms, m.hearsRipe c = true) ↔ ∃ m ∈ ms, m.corrects c = true

theorem corrects_of_rebase (hhears : Moment.hearsRecord c ⟨w, x⟩ = true)
    (hlegs : ∃ l leg, w.legAt c = some l ∧ w.legs[l]? = some leg ∧
      (w.happen x).legs = w.legs.set l (leg.resetTime w.clock.now)) :
    Moment.corrects c ⟨w, x⟩ = true := by
  obtain ⟨l, leg, -, hleg, hafter⟩ := hlegs
  have hsubject : x.subject? = some c := by
    cases x with
    | deed i d =>
      obtain ⟨hi, -⟩ := Bool.and_eq_true_iff.1 hhears
      exact congrArg some (beq_iff_eq.1 hi)
    | _ => cases hhears
  have hresets : (w.happen x).legs.map (·.timeResets) ≠ w.legs.map (·.timeResets) := by
    intro hsame
    have hlt : l < w.legs.length := (List.getElem?_eq_some_iff.1 hleg).1
    have hnow := congrArg (·[l]?) hsame
    simp only [hafter, List.getElem?_map, List.getElem?_set_self hlt, hleg, Option.map_some,
      Option.some.injEq, Leg.resetTime] at hnow
    omega
  simp [Moment.corrects, Moment.after, hsubject, hresets]

/-- **A connection corrects a connect time when it hears a ripe record and has not done so yet.** -/
theorem corrects_iff : Moment.corrects c ⟨w, x⟩ = true ↔
    Moment.hearsRipe c ⟨w, x⟩ = true ∧ w.corrected c = false := by
  have hripe : Moment.hearsRipe c ⟨w, x⟩ = true ↔
      Moment.hearsRecord c ⟨w, x⟩ = true ∧ w.isClosed c = false ∧ w.ripe c = true := by
    simp [Moment.hearsRipe, and_assoc]
  rw [hripe]
  rcases recordStep w c x with ⟨hhears, hcorrects, -⟩ | ⟨hhears, hcorrects, -⟩ |
    ⟨-, hdue, hlegs, -⟩ | ⟨hhears, hopen, hmade, hripe, hlegs, -⟩
  · simp [hhears, hcorrects]
  · simp [hhears, hcorrects]
  · rw [corrects_of_resets (by rw [hlegs])]
    rcases hdue with h | h | h <;> simp [h]
  · simp [corrects_of_rebase hhears hlegs, hhears, hopen, hmade, hripe]

theorem exists_append {Q : Moment → Prop} :
    (∃ m' ∈ ms ++ [m], Q m') ↔ (∃ m' ∈ ms, Q m') ∨ Q m := by
  simp [or_and_right, exists_or]

theorem Latch.happen (h : Latch c ms w) (x : Happening) : Latch c (ms ++ [⟨w, x⟩]) (w.happen x) := by
  have hcorrects := corrects_iff (c := c) (w := w) (x := x)
  have hheard : (∃ m ∈ ms ++ [⟨w, x⟩], m.hearsRipe c = true) ↔
      ∃ m ∈ ms ++ [⟨w, x⟩], m.corrects c = true := by
    rw [exists_append, exists_append, h.heard, hcorrects]
    constructor
    · rintro (hearlier | hripe)
      · exact .inl hearlier
      · -- A ripe record is heard by an open connection: if its latch is set, it has corrected.
        by_cases hmade : w.corrected c = true
        · exact .inl (h.set_iff.1 hmade).2
        · exact .inr ⟨hripe, by simpa using hmade⟩
    · rintro (hearlier | ⟨hripe, -⟩)
      · exact .inl hearlier
      · exact .inr hripe
  refine ⟨?_, hheard⟩
  rw [exists_append]
  rcases recordStep w c x with ⟨-, hnot, hclosed, hlatch⟩ | ⟨-, hnot, hclosed, hlatch⟩ |
    ⟨-, -, hlegs, hclosed, hlatch⟩ | ⟨hhears, -, -, -, hlegs, hclosed, hlatch⟩
  · rw [hlatch, hclosed, hnot, h.set_iff]
    simp
  · simp [hlatch, hclosed]
  · have hnot : Moment.corrects c ⟨w, x⟩ = false := corrects_of_resets (by rw [hlegs])
    rw [hlatch, hclosed, hnot, h.set_iff]
    simp
  · simp [hlatch, hclosed, corrects_of_rebase hhears hlegs]

theorem Fresh.latch (h : start.Fresh) (c : ConnId) : Latch c [] start := by
  refine ⟨?_, by simp⟩
  simp [corrected, h.conns]

/-- **Up to every moment of a run.** -/
theorem latch_of_story (hstart : start.Fresh) {ops : List Op}
    (hsplit : start.story ops = pre ++ m :: post) : Latch c pre m.before := by
  obtain ⟨hs₁, -, -, rfl, hbefore⟩ := moments_split hsplit
  rw [hbefore]
  exact kept_along hs₁ (fun ms w x h => h.happen x) (hstart.latch c)

/-- The first ripe record is the one. -/
theorem corrects_iff_first (hstart : start.Fresh) {ops : List Op}
    (hsplit : start.story ops = pre ++ m :: post) :
    m.corrects c = true ↔ m.hearsRipe c = true ∧ ∀ m' ∈ pre, m'.hearsRipe c = false := by
  have hlatch : Latch c pre m.before := latch_of_story hstart hsplit
  refine corrects_iff.trans (and_congr_right fun hripe => ?_)
  have hopen : m.before.isClosed c = false := by
    simp only [Moment.hearsRipe, Bool.and_eq_true, Bool.not_eq_true'] at hripe
    exact hripe.1.2
  rw [Bool.eq_false_iff, ne_eq, hlatch.set_iff, ← hlatch.heard]
  simp [hopen]

theorem corrects_once (hstart : start.Fresh) {ops : List Op}
    (hsplit : start.story ops = pre ++ m :: post) (hcorrects : m.corrects c = true) :
    ∀ m' ∈ pre ++ post, m'.corrects c = false := by
  obtain ⟨hripe, hnone⟩ := (corrects_iff_first hstart hsplit).1 hcorrects
  intro m' hm'
  rw [Bool.eq_false_iff]
  intro hagain
  rcases List.mem_append.1 hm' with hm' | hm'
  · have hripe' : m'.hearsRipe c = true := (corrects_iff.1 hagain).1
    cases (hnone m' hm').symm.trans hripe'
  · obtain ⟨post₁, post₂, rfl⟩ := List.append_of_mem hm'
    have hsplit' : start.story ops = (pre ++ m :: post₁) ++ m' :: post₂ := by simp [hsplit]
    have hnone' := ((corrects_iff_first hstart hsplit').1 hagain).2 m (by simp)
    cases hnone'.symm.trans hripe

/-- Just the leg that the connection is bound to is corrected. -/
theorem legs_of_corrects (hcorrects : m.corrects c = true) :
    ∃ l leg, m.before.legAt c = some l ∧ m.before.legs[l]? = some leg ∧
      m.after.legs = m.before.legs.set l (leg.resetTime m.before.clock.now) := by
  rcases recordStep m.before c m.what with ⟨-, hnot, -⟩ | ⟨-, hnot, -⟩ | ⟨-, -, hlegs, -⟩ |
    ⟨-, -, -, -, hlegs, -⟩
  · cases hnot.symm.trans hcorrects
  · cases hnot.symm.trans hcorrects
  · have hnot : m.corrects c = false := corrects_of_resets (by rw [hlegs])
    cases hnot.symm.trans hcorrects
  · exact hlegs

/-- A record that corrects nothing changes nothing. -/
theorem same_of_not_corrects (hhears : m.hearsRecord c = true) (hnot : m.corrects c = false) :
    m.after.legs = m.before.legs ∧ ∀ i, m.after.corrected i = m.before.corrected i := by
  rcases recordStep m.before c m.what with ⟨hdeaf, -⟩ | ⟨hdeaf, -⟩ | ⟨-, -, hlegs, -, hlatch⟩ |
    ⟨hheard, -, -, -, hlegs, -⟩
  · cases hdeaf.symm.trans hhears
  · cases hdeaf.symm.trans hhears
  · exact ⟨hlegs, hlatch⟩
  · cases hnot.symm.trans (corrects_of_rebase hheard hlegs)

/-- **One connect time correction per connection.** In every run a connection resets a connect time
just at the first line control record that it hears while it is open and the leg that it is then
bound to is active, outgoing and has lasted for some time. It resets the time of this leg and of no
other, and never resets one again. Every other record that it hears changes no leg and no latch, and
at every moment its snapshot shows the correction if it has been made and the connection is not
closed. -/
theorem corrected_once (hstart : start.Fresh) (ops : List Op) (c : ConnId) :
    (∀ pre m post, start.story ops = pre ++ m :: post →
      (m.corrects c = true ↔ m.hearsRipe c = true ∧ ∀ m' ∈ pre, m'.hearsRipe c = false) ∧
      (m.corrects c = true → (∀ m' ∈ pre ++ post, m'.corrects c = false) ∧
        ∃ l leg, m.before.legAt c = some l ∧ m.before.legs[l]? = some leg ∧
          m.after.legs = m.before.legs.set l (leg.resetTime m.before.clock.now)) ∧
      (m.hearsRecord c = true → m.corrects c = false → m.after.legs = m.before.legs ∧
        ∀ i, m.after.corrected i = m.before.corrected i)) ∧
    ∀ n s, (start.during ops n).scene? c = some s →
      (s.snapshot.timeCorrected = true ↔
        s.conn.closed = false ∧ ∃ m ∈ (start.story ops).take n, m.corrects c = true) := by
  refine ⟨fun pre m post hsplit => ⟨corrects_iff_first hstart hsplit, fun hcorrects =>
    ⟨corrects_once hstart hsplit hcorrects, legs_of_corrects hcorrects⟩, same_of_not_corrects⟩,
    fun n s hs => ?_⟩
  have hin : Within (start.during ops n) c s := scene?_eq_some_iff.1 hs
  have hlatch : Latch c ((start.story ops).take n) (start.during ops n) :=
    kept_during start ops n (fun ms w x h => h.happen x) (hstart.latch c)
  show s.conn.correction.made = true ↔ _
  rw [← hin.corrected, hlatch.set_iff, hin.isClosed]

/-- A call is answered, and two ripe records arrive. -/
theorem corrected_once_served :
    let w := served (Leg.outgoing "5550100" (some 0))
    let ops : List Op := [.connect (some 0) {}, .legState 0 .active, .advance 4000,
      .handle 0 .lineControl, .advance 1000, .handle 0 .lineControl]
    w.Fresh ∧ (w.story ops).countP (·.hearsRipe 0) = 2 ∧ (w.story ops).countP (·.corrects 0) = 1 ∧
      ∃ s, (w.during ops 17).scene? 0 = some s ∧ s.snapshot.timeCorrected = true ∧
        ∃ m ∈ (w.story ops).take 17, m.corrects 0 = true := by
  intro w ops
  have hmade : ((w.during ops 17).scene? 0).map (·.snapshot.timeCorrected) = some true := by
    decide +kernel
  obtain ⟨s, hs, hcorrected⟩ := Option.map_eq_some_iff.1 hmade
  obtain ⟨-, hshown⟩ := corrected_once (fresh_served _) ops 0
  exact ⟨fresh_served _, by decide +kernel, by decide +kernel, s, hs, hcorrected,
    ((hshown 17 s hs).1 hcorrected).2⟩

end World

end CdmaCall
