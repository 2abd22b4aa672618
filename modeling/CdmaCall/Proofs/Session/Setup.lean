import CdmaCall.Proofs.Session.Changes

/-!
# Where connections are set up

Making and binding a connection consists of deeds that no other request asks for. A connection is
set up when it is made, and again when it is bound while it is open: after it was closed never
(`calm_story`).
-/

namespace CdmaCall

/-- Whether a deed belongs to setting up a connection, whatever has become of the connection. -/
def Deed.isSetup : Deed → Bool
  | .mark | .arm => true
  | _ => false

namespace Happening

/-- Whether a connection is set up. -/
def isSetup : Happening → Bool
  | .assign .. => true
  | .deed _ d => d.isSetup
  | _ => false

/-- Whether something comes about only where connections are made and bound. -/
def isFounding : Happening → Bool
  | .enlist _ | .assign .. => true
  | .deed _ d =>
    match d with
    | .register | .unregister | .mark | .arm => true
    | _ => false
  | _ => false

theorem isFounding_of_isSetup {x : Happening} (hx : x.isSetup = true) : x.isFounding = true := by
  cases x with
  | deed c d =>
    cases d with
    | mark | arm => rfl
    | _ => cases hx
  | assign => rfl
  | _ => cases hx

/-- Which connection something happens to, if it happens to only one. -/
def subject? : Happening → Option ConnId
  | .assign c _ | .deed c _ => some c
  | _ => none

end Happening

/-- Whether a request makes a connection or binds one. -/
def Op.founds : Op → Bool
  | .connect .. | .cloneConn _ | .rebind .. => true
  | _ => false

/-- Connection `c` is set up though it is closed. -/
structure Moment.Revives (c : ConnId) (m : Moment) : Prop where
  setup : m.what.isSetup = true
  subject : m.what.subject? = some c
  closed : ∃ k, m.before.conns[c]? = some k ∧ k.closed = true

namespace World

variable {w : World} {c i : ConnId} {k k' : Conn} {h x : Happening} {hs : List Happening}

/-! ### Closing -/

/-- A connection that is not closed now was not closed before. -/
theorem Change.closed (hchange : Change w c x k k') (hx : x ≠ .deed c .close) :
    k'.closed = k.closed := by
  cases hchange with
  | none h => rw [h]
  | deed s d _ hk hx' h =>
    subst hk h
    exact Scene.closed_act s fun hd => hx (hd ▸ hx')
  | mail e h => rw [h]
  | leg l _ h => rw [h]

/-- What is closed was closed before, if nothing closes it. -/
theorem closed_before (hno : .deed c .close ∉ hs) (hk' : (w.after hs).conns[c]? = some k')
    (hclosed : k'.closed = true) : ∃ k, w.conns[c]? = some k ∧ k.closed = true := by
  induction hs generalizing w with
  | nil => exact ⟨k', hk', hclosed⟩
  | cons x hs ih =>
    have hx : x ≠ .deed c .close := fun he => hno (he ▸ List.mem_cons_self ..)
    obtain ⟨k₁, hk₁, hclosed₁⟩ := ih (fun hh => hno (List.mem_cons_of_mem _ hh)) hk'
    cases hk : w.conns[c]? with
    | none =>
      obtain ⟨o, rfl⟩ := fresh_happen hk hk₁
      cases hclosed₁
    | some k =>
      obtain ⟨k₂, hk₂, hchange⟩ := change_happen hk x
      obtain rfl := Option.some.inj (hk₁.symm.trans hk₂)
      exact ⟨k, rfl, (hchange.closed hx).symm.trans hclosed₁⟩

/-- A request that closes a connection consists of nothing else. -/
theorem close_of_mem {op : Op} (hh : .deed c .close ∈ w.course op) :
    w.course op = [.deed c .close] := by
  rcases routine_or_asked hh with hr | ha
  · cases hr.isRoutine
  · cases op <;> simp only [Op.happening?, Option.some.injEq, reduceCtorEq] at ha
    all_goals exact congrArg (fun h => [h]) ha

/-! ### What is set up -/

theorem plain_timers {limit fuel : ℕ} (hh : h ∈ timerCourse limit fuel w) :
    h.isFounding = false := by
  rcases mem_timerCourse hh with ⟨i, rfl⟩ | rfl | rfl <;> rfl

/-- Only three kinds of requests make or bind a connection. -/
theorem founds_of_mem {op : Op} (hh : h ∈ w.course op) (hfounding : h.isFounding = true) :
    op.founds = true := by
  have hplain (hfalse : h.isFounding = false) : op.founds = true := by
    cases hfalse.symm.trans hfounding
  cases op with
  | connect | cloneConn | rebind => rfl
  | advance ms => exact hplain (plain_timers hh)
  | broadcast p =>
    obtain ⟨i, rfl | rfl⟩ := mem_broadcastCourse hh
    · exact hplain rfl
    · exact hplain rfl
  | drive i => rcases mem_driveCourse hh with rfl | rfl | ⟨rfl, -⟩ <;> exact hplain rfl
  | confirm p =>
    rw [course, confirmCourse] at hh
    split at hh
    · cases hh
    · rcases List.mem_cons.1 hh with rfl | hh
      · exact hplain rfl
      · exact hplain (by rw [mem_ready hh]; rfl)
  | drain i =>
    rw [course, drainCourse] at hh
    split at hh
    · cases hh
    · exact hplain (by rw [List.eq_of_mem_replicate hh]; rfl)
  | _ => exact hplain (by rw [List.mem_singleton.1 hh]; rfl)

theorem setup_timers {limit fuel : ℕ} (hh : h ∈ timerCourse limit fuel w) : h.isSetup = false := by
  rcases mem_timerCourse hh with ⟨i, rfl⟩ | rfl | rfl <;> rfl

theorem subject_bind {l : LegId} (hh : h ∈ w.bindCourse i l) : h.subject? = some i := by
  unfold bindCourse at hh
  split_ifs at hh
  · simp only [List.mem_cons, List.not_mem_nil, or_false] at hh
    rcases hh with rfl | rfl | rfl | rfl <;> rfl
  · cases hh

/-- Only the new connection is set up. -/
theorem subject_build {leg : Option LegId} {o : Options} (hh : h ∈ w.buildCourse leg o)
    (hsetup : h.isSetup = true) : h.subject? = some w.conns.length := by
  unfold buildCourse at hh
  rw [List.cons_append, List.mem_cons, List.mem_append, List.mem_singleton] at hh
  rcases hh with rfl | hh | rfl
  · cases hsetup
  · cases leg with
    | none => cases hh
    | some l => exact subject_bind hh
  · rfl

/-- What is set up is new or open. -/
theorem subject_course {op : Op} (hh : h ∈ w.course op) (hsetup : h.isSetup = true)
    (hsubject : h.subject? = some c) (hk : w.conns[c]? = some k) : k.closed = false := by
  have hnew : h.subject? ≠ some w.conns.length := by
    intro he
    obtain rfl := Option.some.inj (hsubject.symm.trans he)
    exact absurd (List.getElem?_eq_some_iff.1 hk).1 (lt_irrefl _)
  have hfounds := founds_of_mem hh (Happening.isFounding_of_isSetup hsetup)
  cases op with
  | connect leg o =>
    rcases List.mem_append.1 hh with hh | hh
    · exact absurd (subject_build hh hsetup) hnew
    · rcases mem_armCourse hh with rfl | rfl <;> exact absurd rfl hnew
  | cloneConn i =>
    rw [course] at hh
    split at hh
    · cases hh
    · exact absurd (subject_build hh hsetup) hnew
  | rebind i l =>
    rw [course] at hh
    split at hh
    · cases hh
    · next k₁ hk₁ =>
      split_ifs at hh with hclosed
      · cases hh
      · obtain rfl := Option.some.inj (hsubject.symm.trans (subject_bind hh))
        obtain rfl := Option.some.inj (hk.symm.trans hk₁)
        simpa using hclosed
  | _ => cases hfounds

/-- **Nothing that is closed is set up again**, at any moment of any run. -/
theorem calm_story (ops : List Op) (w : World) : ∀ m ∈ w.story ops, ¬m.Revives c := by
  induction ops generalizing w with
  | nil => simp [story, history, moments]
  | cons op ops ih =>
    intro m hm hrevives
    rw [story_cons, moments_append] at hm
    rcases List.mem_append.1 hm with hm | hm
    · rcases List.mem_append.1 hm with hm | hm
      · obtain ⟨k', hk', hclosed⟩ := hrevives.closed
        obtain ⟨pre, post, hsplit⟩ := List.append_of_mem hm
        obtain ⟨hs₁, hs₂, hcourse, -, hbefore⟩ := moments_split hsplit
        -- A request that closes consists of nothing else, so nothing before this was a closing, and
        -- the connection was closed when the request was made.
        have hno : .deed c .close ∉ hs₁ := by
          intro hclose
          have hin : .deed c .close ∈ w.course op := hcourse ▸ List.mem_append_left _ hclose
          have honly := close_of_mem hin
          have hwhat := List.mem_singleton.1 (honly ▸ what_mem hm)
          have hsetup := hrevives.setup
          rw [hwhat] at hsetup
          cases hsetup
        rw [hbefore] at hk'
        obtain ⟨k, hk, hclosed₀⟩ := closed_before hno hk' hclosed
        have hopen := subject_course (what_mem hm) hrevives.setup hrevives.subject hk
        cases hopen.symm.trans hclosed₀
      · cases (setup_timers (what_mem hm)).symm.trans hrevives.setup
    · exact ih _ m hm hrevives

end World

end CdmaCall
