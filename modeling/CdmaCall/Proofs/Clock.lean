import CdmaCall.Clock
import Mathlib.Data.List.Basic
import Mathlib.Data.List.Nodup

/-!
# Timers on a clock

`Sound c`: the timers of `c` have different numbers, all smaller than the next one, and none of them
is overdue. Starting, cancelling and going to the next deadline keep that. The next deadline is the
earliest, and taking its timer off takes off nothing else. What is taken off all at once is what is
due, in order (`takeDue_spec`).
-/

namespace CdmaCall

/-- The order in which timers come due: by deadline, and of two equal ones the older first. -/
def Timer.Before {α : Type} (t u : Timer α) : Prop :=
  t.due < u.due ∨ t.due = u.due ∧ t.id < u.id

namespace Clock

variable {α : Type} {c c' : Clock α} {limit : ℕ}

/-- Every timer has a number of its own, and its deadline has not passed. -/
structure Sound (c : Clock α) : Prop where
  young : ∀ t ∈ c.pending, t.id < c.nextId
  distinct : (c.pending.map (·.id)).Nodup
  ahead : ∀ t ∈ c.pending, c.now ≤ t.due

theorem Sound.start (h : c.Sound) (delay : ℕ) (job : α) : (c.start delay job).Sound := by
  refine ⟨fun t ht => ?_, ?_, fun t ht => ?_⟩
  · rcases List.mem_append.1 ht with ht | ht
    · exact Nat.lt_succ_of_lt (h.young t ht)
    · rw [List.mem_singleton.1 ht]
      exact Nat.lt_succ_self _
  · have hnew : c.nextId ∉ c.pending.map (·.id) := by
      intro hmem
      obtain ⟨t, ht, hid⟩ := List.mem_map.1 hmem
      exact absurd (h.young t ht) (by omega)
    simp only [Clock.start, List.map_append, List.map_cons, List.map_nil]
    exact List.nodup_append.2 ⟨h.distinct, List.nodup_singleton _, by
      intro a ha b hb hab
      rw [List.mem_singleton.1 hb] at hab
      exact hnew (hab ▸ ha)⟩
  · rcases List.mem_append.1 ht with ht | ht
    · exact h.ahead t ht
    · rw [List.mem_singleton.1 ht]
      exact Nat.le_add_right _ _

theorem mem_cancel {t : Timer α} {id : ℕ} :
    t ∈ (c.cancel id).pending ↔ t ∈ c.pending ∧ t.id ≠ id := by
  simp [cancel]

theorem Sound.cancel (h : c.Sound) (id : ℕ) : (c.cancel id).Sound :=
  ⟨fun t ht => h.young t (mem_cancel.1 ht).1,
    h.distinct.sublist (List.Sublist.map _ (List.filter_sublist ..)),
    fun t ht => h.ahead t (mem_cancel.1 ht).1⟩

/-- Two timers of one number are one timer. -/
theorem Sound.eq_of_id (h : c.Sound) {t u : Timer α} (ht : t ∈ c.pending) (hu : u ∈ c.pending)
    (hid : t.id = u.id) : t = u :=
  List.inj_on_of_nodup_map h.distinct ht hu hid

theorem countP_filter_id {t : Timer α} (p : Timer α → Bool) :
    ∀ {ts : List (Timer α)}, (ts.map (·.id)).Nodup → t ∈ ts →
      (ts.filter (·.id != t.id)).countP p + (if p t then 1 else 0) = ts.countP p
  | u :: us, hd, ht => by
    have hu : u.id ∉ us.map (·.id) := (List.nodup_cons.1 hd).1
    rcases List.mem_cons.1 ht with rfl | ht
    · have hrest : us.filter (·.id != t.id) = us := by
        refine List.filter_eq_self.2 fun v hv => ?_
        have hne : v.id ≠ t.id := fun he => hu (he ▸ List.mem_map_of_mem hv)
        simpa using hne
      simp [hrest, List.countP_cons]
    · have hne : u.id ≠ t.id := fun he => hu (he ▸ List.mem_map_of_mem ht)
      have ih := countP_filter_id p (List.nodup_cons.1 hd).2 ht
      simp only [List.filter_cons, bne_iff_ne, ne_eq, hne, not_false_iff, if_true,
        List.countP_cons]
      omega

/-- Cancelling a timer takes off that timer alone. -/
theorem Sound.countP_cancel (h : c.Sound) {t : Timer α} (ht : t ∈ c.pending)
    (p : Timer α → Bool) :
    (c.cancel t.id).pending.countP p + (if p t then 1 else 0) = c.pending.countP p :=
  countP_filter_id p h.distinct ht

/-! ### The next deadline -/

theorem earliest?_eq_none {ts : List (Timer α)} (h : earliest? ts = none) : ts = [] := by
  cases ts with
  | nil => rfl
  | cons t ts =>
    unfold earliest? at h
    cases he : earliest? ts with
    | none => simp [he] at h
    | some u => simp only [he] at h; split_ifs at h

theorem earliest?_spec {ts : List (Timer α)} {t : Timer α} (h : earliest? ts = some t) :
    t ∈ ts ∧ ∀ u ∈ ts, t.due ≤ u.due := by
  induction ts generalizing t with
  | nil => simp [earliest?] at h
  | cons v vs ih =>
    unfold earliest? at h
    cases he : earliest? vs with
    | none =>
      have hvs := earliest?_eq_none he
      simp only [he, Option.some.injEq] at h
      subst hvs h
      simp
    | some u =>
      obtain ⟨hu, hmin⟩ := ih he
      simp only [he] at h
      split_ifs at h with hlt
      · obtain rfl := Option.some.inj h
        refine ⟨List.mem_cons_of_mem _ hu, fun x hx => ?_⟩
        rcases List.mem_cons.1 hx with rfl | hx
        · exact Nat.le_of_lt hlt
        · exact hmin x hx
      · obtain rfl := Option.some.inj h
        refine ⟨List.mem_cons_self .., fun x hx => ?_⟩
        rcases List.mem_cons.1 hx with rfl | hx
        · exact Nat.le_refl _
        · exact Nat.le_trans (Nat.le_of_not_lt hlt) (hmin x hx)

theorem next?_eq_none (h : c.next? limit = none) : ∀ t ∈ c.pending, limit < t.due := by
  unfold next? at h
  cases he : earliest? c.pending with
  | none => simp [earliest?_eq_none he]
  | some t =>
    simp only [he] at h
    split_ifs at h with hle
    exact fun u hu => Nat.lt_of_lt_of_le (Nat.lt_of_not_le hle) ((earliest?_spec he).2 u hu)

/-- What is not due does not come next. -/
theorem next?_of_late (h : ∀ t ∈ c.pending, limit < t.due) : c.next? limit = none := by
  unfold next?
  cases he : earliest? c.pending with
  | none => rfl
  | some t =>
    dsimp only
    rw [if_neg (Nat.not_le.2 (h t (earliest?_spec he).1))]

theorem next?_inv {job : α} (h : c.next? limit = some (job, c')) :
    ∃ t, earliest? c.pending = some t ∧ t.job = job ∧ t.due ≤ limit ∧
      c' = { c.cancel t.id with now := t.due } := by
  unfold next? at h
  cases he : earliest? c.pending with
  | none => simp [he] at h
  | some t =>
    simp only [he] at h
    split_ifs at h with hle
    obtain ⟨rfl, rfl⟩ := Prod.mk.inj (Option.some.inj h)
    exact ⟨t, rfl, rfl, hle, rfl⟩

/-- Going to the next deadline takes off a timer that is due first. -/
theorem next?_eq_some {job : α} (h : c.next? limit = some (job, c')) :
    ∃ t ∈ c.pending, t.job = job ∧ t.due ≤ limit ∧ (∀ u ∈ c.pending, t.due ≤ u.due) ∧
      c' = { c.cancel t.id with now := t.due } := by
  obtain ⟨t, he, hjob, hle, hc'⟩ := next?_inv h
  exact ⟨t, (earliest?_spec he).1, hjob, hle, (earliest?_spec he).2, hc'⟩

theorem Sound.next? (h : c.Sound) {job : α} (hn : c.next? limit = some (job, c')) : c'.Sound := by
  obtain ⟨t, -, -, -, hmin, rfl⟩ := next?_eq_some hn
  exact ⟨(h.cancel _).young, (h.cancel _).distinct, fun u hu => hmin u (mem_cancel.1 hu).1⟩

/-- A timer that comes next up to some limit does so up to a later one. -/
theorem next?_mono {job : α} {limit' : ℕ} (h : limit ≤ limit')
    (hn : c.next? limit = some (job, c')) : c.next? limit' = some (job, c') := by
  unfold next? at hn ⊢
  cases he : earliest? c.pending with
  | none => simp [he] at hn
  | some t =>
    simp only [he] at hn ⊢
    split_ifs at hn with hle
    rw [if_pos (Nat.le_trans hle h)]
    exact hn

/-- Which timer comes next does not depend on the time. -/
theorem next?_now (c : Clock α) (now limit : ℕ) :
    ({ c with now } : Clock α).next? limit = c.next? limit := rfl

/-! ### Everything that is due -/

/-- Among equal deadlines the first of the list is the earliest. -/
theorem earliest?_first {ts : List (Timer α)} (hts : ts.Pairwise (·.id < ·.id)) {t : Timer α}
    (h : earliest? ts = some t) : ∀ u ∈ ts, u = t ∨ t.Before u := by
  induction ts generalizing t with
  | nil => simp [earliest?] at h
  | cons v vs ih =>
    obtain ⟨hv, hvs⟩ := List.pairwise_cons.1 hts
    intro x hx
    unfold earliest? at h
    cases he : earliest? vs with
    | none =>
      have hnil := earliest?_eq_none he
      simp only [he, Option.some.injEq] at h
      subst hnil h
      exact .inl (List.mem_singleton.1 hx)
    | some u =>
      obtain ⟨hu, hmin⟩ := earliest?_spec he
      simp only [he] at h
      split_ifs at h with hlt
      · obtain rfl := Option.some.inj h
        rcases List.mem_cons.1 hx with rfl | hx
        · exact .inr (.inl hlt)
        · exact ih hvs he x hx
      · obtain rfl := Option.some.inj h
        rcases List.mem_cons.1 hx with rfl | hx
        · exact .inl rfl
        · refine .inr ?_
          have hle : v.due ≤ x.due := Nat.le_trans (Nat.le_of_not_lt hlt) (hmin x hx)
          rcases Nat.lt_or_eq_of_le hle with hlt' | heq
          · exact .inl hlt'
          · exact .inr ⟨heq, hv x hx⟩

/-- The next timer is the first in order of all that wait. -/
theorem next?_first (hc : c.pending.Pairwise (·.id < ·.id)) {job : α}
    (h : c.next? limit = some (job, c')) :
    ∃ t ∈ c.pending, t.job = job ∧ t.due ≤ limit ∧ (∀ u ∈ c.pending, u = t ∨ t.Before u) ∧
      c' = { c.cancel t.id with now := t.due } := by
  obtain ⟨t, he, hjob, hle, hc'⟩ := next?_inv h
  exact ⟨t, (earliest?_spec he).1, hjob, hle, earliest?_first hc he, hc'⟩

theorem eq_of_id (hc : c.pending.Pairwise (·.id < ·.id)) {t u : Timer α} (ht : t ∈ c.pending)
    (hu : u ∈ c.pending) (hid : t.id = u.id) : t = u :=
  List.inj_on_of_nodup_map (List.pairwise_map.2 (hc.imp Nat.ne_of_lt)) ht hu hid

/-- Cancelling a timer that is due leaves those that are not. -/
theorem filter_cancel (hc : c.pending.Pairwise (·.id < ·.id)) {t : Timer α} (ht : t ∈ c.pending)
    (hdue : t.due ≤ limit) :
    (c.cancel t.id).pending.filter (limit < ·.due) = c.pending.filter (limit < ·.due) := by
  rw [cancel, List.filter_filter]
  refine List.filter_congr fun u hu => ?_
  by_cases hid : u.id = t.id
  · obtain rfl := eq_of_id hc hu ht hid
    simp [hdue]
  · simp [hid]

/-- The loop that takes off what is due, with fuel for every timer. -/
theorem go_spec (limit : ℕ) : ∀ (fuel : ℕ) (c : Clock α), c.pending.length ≤ fuel →
    c.pending.Pairwise (·.id < ·.id) →
    ∃ ts : List (Timer α), ts.Pairwise Timer.Before ∧
      (∀ t, t ∈ ts ↔ t ∈ c.pending ∧ t.due ≤ limit) ∧
      takeDue.go limit fuel c = (ts.map (·.job),
        { c with now := limit, pending := c.pending.filter (limit < ·.due) }) := by
  intro fuel
  induction fuel with
  | zero =>
    intro c hlen _
    have hnil : c.pending = [] := List.length_eq_zero_iff.1 (Nat.le_zero.1 hlen)
    exact ⟨[], .nil, by simp [hnil], by simp [takeDue.go, hnil]⟩
  | succ fuel ih =>
    intro c hlen hc
    cases hn : c.next? limit with
    | none =>
      have hlate := next?_eq_none hn
      have hall : c.pending.filter (limit < ·.due) = c.pending :=
        List.filter_eq_self.2 fun t ht => decide_eq_true (hlate t ht)
      refine ⟨[], .nil, fun t => ⟨by simp, fun h => ?_⟩, by simp [takeDue.go, hn, hall]⟩
      exact absurd h.2 (Nat.not_le_of_lt (hlate t h.1))
    | some next =>
      obtain ⟨job, c'⟩ := next
      obtain ⟨t, ht, rfl, hle, hfirst, rfl⟩ := next?_first hc hn
      have hlen' : (c.cancel t.id).pending.length ≤ fuel := by
        have hlt : (c.cancel t.id).pending.length < c.pending.length :=
          List.length_filter_lt_length_iff_exists.2 ⟨t, ht, by simp⟩
        omega
      obtain ⟨ts, hsort, hmem, htake⟩ :=
        ih { c.cancel t.id with now := t.due } hlen' (hc.filter _)
      refine ⟨t :: ts, List.pairwise_cons.2 ⟨fun u hu => ?_, hsort⟩, fun u => ?_, ?_⟩
      · obtain ⟨hu, hid⟩ := mem_cancel.1 ((hmem u).1 hu).1
        rcases hfirst u hu with rfl | hlt
        · exact absurd rfl hid
        · exact hlt
      · rw [List.mem_cons, hmem]
        constructor
        · rintro (rfl | ⟨hu, hdue⟩)
          · exact ⟨ht, hle⟩
          · exact ⟨(mem_cancel.1 hu).1, hdue⟩
        · rintro ⟨hu, hdue⟩
          by_cases hid : u.id = t.id
          · exact .inl (eq_of_id hc hu ht hid)
          · exact .inr ⟨mem_cancel.2 ⟨hu, hid⟩, hdue⟩
      · simp only [takeDue.go, hn, htake, filter_cancel hc ht hle, List.map_cons]
        rfl

/-- **What is taken off a clock** whose timers stand in the order of their start: everything due up
to the limit, in the order in which it comes due. The rest stays as it is. -/
theorem takeDue_spec (hc : c.pending.Pairwise (·.id < ·.id)) (limit : ℕ) :
    ∃ ts : List (Timer α), ts.Pairwise Timer.Before ∧
      (∀ t, t ∈ ts ↔ t ∈ c.pending ∧ t.due ≤ limit) ∧
      c.takeDue limit = (ts.map (·.job),
        { c with now := limit, pending := c.pending.filter (limit < ·.due) }) :=
  go_spec limit _ c (Nat.le_refl _) hc

end Clock

end CdmaCall
