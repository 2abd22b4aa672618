import CdmaCall.Proofs.Lifecycle.Standing
import CdmaCall.Proofs.Session.Changes
import CdmaCall.Proofs.World.Workload

/-!
# The notices of a connection tell its life

A `Life` is what can become of a connection: it goes through phases, the call ends with or without a
cause, and the connection is closed. `Life.notices` is what is told of it, and at every moment of
every run the notices that a connection has given are those of the one life that its phase, its
cause and its closing belong to (`notices_tell_life`).
-/

namespace CdmaCall

/-- The life of a connection: the phases that it entered before the call ended, whether the call
ended and with which cause if there was one, and whether the connection is closed. -/
structure Life where
  phases : List Phase := []
  ended : Option (Option Cause) := none
  closed : Bool := false
  going : ∀ p ∈ phases, p.isTerminal = false := by simp

namespace Life

variable {l : Life} {c : ConnId} {d : Deed} {t : Standing}

/-- What is told when a call ends. -/
def ending : Option (Option Cause) → List Notice
  | none => []
  | some none => [.entered .disconnected]
  | some (some cause) => [.entered .disconnected, .disconnected cause]

/-- What connection `c` tells of its life, in this order. -/
def notices (l : Life) (c : ConnId) : List Notification :=
  (l.phases.map Notice.entered ++ ending l.ended ++ if l.closed then [Notice.closed] else []).map
    (⟨c, ·⟩)

/-- The phase entered last. -/
def phase (l : Life) : Phase :=
  match l.ended with
  | none => l.phases.getLast?.getD .new
  | some _ => .disconnected

/-- The cause that was told. -/
def cause (l : Life) : Option Cause := l.ended.join

/-- Where connection `c` stands after a life. -/
def standing (l : Life) (c : ConnId) : Standing := ⟨l.phase, l.cause, l.closed, l.notices c⟩

/-- A call that goes on has not ended. -/
theorem ended_of_isLive (h : (l.standing c).isLive = true) : l.closed = false ∧ l.ended = none := by
  obtain ⟨hopen, hphase⟩ := Bool.and_eq_true_iff.1 h
  refine ⟨by simpa [standing] using hopen, ?_⟩
  cases he : l.ended with
  | none => rfl
  | some cause =>
    have hterm : (l.standing c).phase = .disconnected := by simp [standing, phase, he]
    rw [hterm] at hphase
    cases hphase

/-- The life of a call that enters one more phase. -/
def enter (l : Life) (p : Phase) (hp : p.isTerminal = false) : Life :=
  { l with
    phases := l.phases ++ [p]
    going := by
      intro q hq
      rcases List.mem_append.1 hq with hq | hq
      · exact l.going q hq
      · rw [List.mem_singleton.1 hq]
        exact hp }

theorem standing_enter (hlive : (l.standing c).isLive = true) {p : Phase}
    (hp : p.isTerminal = false) : (l.enter p hp).standing c = (l.standing c).enter c p := by
  obtain ⟨hopen, hended⟩ := ended_of_isLive hlive
  simp [standing, enter, Standing.enter, phase, cause, notices, hopen, hended, ending]

theorem standing_end (hlive : (l.standing c).isLive = true) :
    ({ l with ended := some none } : Life).standing c =
      (l.standing c).enter c .disconnected := by
  obtain ⟨hopen, hended⟩ := ended_of_isLive hlive
  simp [standing, Standing.enter, phase, cause, notices, hopen, hended, ending]

theorem standing_finish (hlive : (l.standing c).isLive = true) (cause : Cause) :
    ({ l with ended := some (some cause) } : Life).standing c =
      (l.standing c).finish c cause := by
  obtain ⟨hopen, hended⟩ := ended_of_isLive hlive
  simp [standing, Standing.finish, Standing.enter, phase, Life.cause, notices, hopen, hended,
    ending]

theorem standing_shut (hopen : (l.standing c).closed = false) :
    ({ l with closed := true } : Life).standing c = (l.standing c).shut c := by
  have hclosed : l.closed = false := hopen
  simp [standing, Standing.shut, phase, cause, notices, hclosed]

/-- **A turn leads from one life to another.** -/
theorem exists_of_turn (h : Standing.Turn c d (l.standing c) t) :
    ∃ l' : Life, t = l'.standing c := by
  cases h with
  | stay => exact ⟨l, rfl⟩
  | enter p hlive _ =>
    -- An end that is entered like any other phase has no cause.
    by_cases hp : p.isTerminal = true
    · obtain rfl : p = .disconnected := by simpa [Phase.isTerminal] using hp
      exact ⟨_, (standing_end hlive).symm⟩
    · exact ⟨l.enter p (by simpa using hp), (standing_enter hlive _).symm⟩
  | finish cause hlive => exact ⟨_, (standing_finish hlive cause).symm⟩
  | shut hopen => exact ⟨_, (standing_shut hopen).symm⟩

end Life

namespace Standing

variable {c : ConnId} {d : Deed} {t t' t'' : Standing}

/-- What never changes again as a life goes on. -/
structure Follows (t t' : Standing) : Prop where
  told : t.notices <+: t'.notices
  ended : t.phase.isTerminal = true → t'.phase = t.phase ∧ t'.cause = t.cause
  closed : t.closed = true → t' = t

theorem Follows.refl (t : Standing) : Follows t t :=
  ⟨List.prefix_rfl, fun _ => ⟨rfl, rfl⟩, fun _ => rfl⟩

theorem Follows.trans (h : Follows t t') (h' : Follows t' t'') : Follows t t'' := by
  refine ⟨h.told.trans h'.told, fun ht => ?_, fun ht => ?_⟩
  · obtain ⟨hphase, hcause⟩ := h.ended ht
    obtain ⟨hphase', hcause'⟩ := h'.ended (hphase ▸ ht)
    exact ⟨hphase'.trans hphase, hcause'.trans hcause⟩
  · obtain rfl := h.closed ht
    exact h'.closed ht

/-- **What was told stays told, and an end stays the end.** -/
theorem Turn.follows (h : Turn c d t t') : Follows t t' := by
  cases h with
  | stay => exact .refl t
  | enter p hlive _ =>
    obtain ⟨hopen, hphase⟩ := Bool.and_eq_true_iff.1 hlive
    exact ⟨List.prefix_append _ _, fun ht => by simp [ht] at hphase,
      fun ht => by simp [ht] at hopen⟩
  | finish cause hlive =>
    obtain ⟨hopen, hphase⟩ := Bool.and_eq_true_iff.1 hlive
    refine ⟨?_, fun ht => by simp [ht] at hphase, fun ht => by simp [ht] at hopen⟩
    exact (List.prefix_append _ _).trans (List.prefix_append _ _)
  | shut hopen =>
    exact ⟨List.prefix_append _ _, fun _ => ⟨rfl, rfl⟩, fun ht => by simp [ht] at hopen⟩

end Standing

namespace World

open Standing

variable {w start : World} {c : ConnId} {k k' : Conn} {x : Happening}

/-- Whatever happens takes a connection through at most one turn. -/
theorem Change.turn (h : Change w c x k k') :
    ∃ d, Turn c d k.standing k'.standing ∧
      (x = .deed c d ∨ k'.standing = k.standing) := by
  cases h with
  | none h => exact ⟨.mark, .of_eq (by rw [h]), .inr (by rw [h])⟩
  | deed s d hin hk hx h =>
    subst hk h
    exact ⟨d, hin.id ▸ Scene.turn_act s d, .inl hx⟩
  | mail e h => exact ⟨.mark, .of_eq (by rw [h]; rfl), .inr (by rw [h]; rfl)⟩
  | leg l _ h => exact ⟨.mark, .of_eq (by rw [h]; rfl), .inr (by rw [h]; rfl)⟩

/-- At every moment a connection stands where some life leads. -/
theorem exists_life (hs : List Happening) (hstart : start.conns = [])
    (hk : (start.after hs).conns[c]? = some k) : ∃ l : Life, k.standing = l.standing c := by
  refine kept_from_start (P := fun _ k => ∃ l : Life, k.standing = l.standing c) ?_ ?_ hs hstart hk
  · intro _ o
    exact ⟨{}, rfl⟩
  · rintro _ w x k k' - hchange ⟨l, hl⟩
    obtain ⟨d, hturn, -⟩ := hchange.turn
    rw [hl] at hturn
    exact Life.exists_of_turn hturn

/-- A connection is still there later, and follows on what it was. -/
theorem exists_follows (hs : List Happening) (hk : w.conns[c]? = some k) :
    ∃ k', (w.after hs).conns[c]? = some k' ∧ Follows k.standing k'.standing := by
  refine kept_after (P := fun _ k' => Follows k.standing k'.standing) [] ?_ hs hk (.refl _)
  intro _ w x k₁ k₂ _ hchange hfollows
  obtain ⟨d, hturn, -⟩ := hchange.turn
  exact hfollows.trans hturn.follows

/-- **The notices tell the whole life.** At every moment of a run there is a life whose notices are
just those that the connection has given, all under its own number: phases before the end, then at
most one entry into the end, directly followed by the cause if there is one, then at most one
closing. Its phase is the one told last, its cause the one told, and it is closed if that was told.
At a later moment the notices go on from there, but an ended call has the same phase and cause, and
a closed connection has told nothing more. -/
theorem notices_tell_life (hstart : start.Fresh) (ops : List Op) {n m : ℕ} (hnm : n ≤ m)
    (hk : (start.during ops n).conns[c]? = some k) :
    (∃ l : Life, k.notices = l.notices c ∧ k.phase = l.phase ∧ k.cause = l.cause ∧
      k.closed = l.closed) ∧
    ∃ k', (start.during ops m).conns[c]? = some k' ∧ k.notices <+: k'.notices ∧
      (k.phase = .disconnected → k'.phase = .disconnected ∧ k'.cause = k.cause) ∧
      (k.closed = true → k'.notices = k.notices) := by
  constructor
  · obtain ⟨l, hl⟩ := exists_life _ hstart.conns hk
    exact ⟨l, congrArg notices hl, congrArg phase hl, congrArg cause hl, congrArg closed hl⟩
  · rw [during_of_le start ops hnm]
    obtain ⟨k', hk', hfollows⟩ := exists_follows (((start.history ops).take m).drop n) hk
    refine ⟨k', hk', hfollows.told, fun hphase => ?_, fun hclosed => ?_⟩
    · have hterm : k.standing.phase.isTerminal = true := by
        rw [show k.standing.phase = .disconnected from hphase]
        rfl
      obtain ⟨hsame, hcause⟩ := hfollows.ended hterm
      exact ⟨hsame.trans hphase, hcause⟩
    · exact congrArg notices (hfollows.closed hclosed)

/-- A waiting call is rejected, and closed after that. -/
theorem notices_tell_life_served :
    let w := served (Leg.waiting "5550100" (some 0))
    let ops : List Op := [.connect (some 0) { direction := .incoming }, .reject 0, .close 0]
    w.Fresh ∧ ∃ k, (w.during ops 9).conns[0]? = some k ∧
      k.notices = [⟨0, .entered .ringing⟩, ⟨0, .entered .disconnected⟩,
        ⟨0, .disconnected .incomingRejected⟩] ∧
      (∃ l : Life, k.notices = l.notices 0 ∧ k.phase = l.phase ∧ k.cause = l.cause) ∧
      ∃ k', (w.during ops 12).conns[0]? = some k' ∧ k'.closed = true ∧
        k'.phase = .disconnected ∧ k'.cause = k.cause := by
  intro w ops
  have hended : ((w.during ops 9).conns[0]?.map fun k => (k.phase, k.notices)) =
      some (.disconnected, [⟨0, .entered .ringing⟩, ⟨0, .entered .disconnected⟩,
        ⟨0, .disconnected .incomingRejected⟩]) := by decide +kernel
  have hclosed : ((w.during ops 12).conns[0]?.map (·.closed)) = some true := by decide +kernel
  obtain ⟨k, hk, htold⟩ := Option.map_eq_some_iff.1 hended
  obtain ⟨hphase, hnotices⟩ := Prod.mk.inj htold
  obtain ⟨⟨l, hl, hlphase, hlcause, -⟩, k', hk', -, hstays, -⟩ :=
    notices_tell_life (fresh_served _) ops (show 9 ≤ 12 by decide) hk
  obtain ⟨hphase', hcause'⟩ := hstays hphase
  rw [hk'] at hclosed
  have hshut : k'.closed = true := Option.some.inj hclosed
  exact ⟨fresh_served _, k, hk, hnotices, ⟨l, hl, hlphase, hlcause⟩, k', hk', hshut, hphase',
    hcause'⟩

end World

end CdmaCall
