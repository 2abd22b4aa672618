import CdmaCall.Proofs.Session.History

/-!
# Worlds in order

`Orderly w` is what holds between connections, timers, kept confirmations and legs in every world a
session reaches. It is kept by everything that happens where it fits (`Fits`), and everything in a
history fits: there is always enough fuel for the timers that come due.
-/

namespace CdmaCall

namespace World

open Scene

variable {w : World} {c : ConnId} {s : Scene}

/-- Every timer and every kept confirmation is for a connection that exists, and the timer with the
number of a deadline carries that deadline. -/
structure Orderly (w : World) : Prop where
  clock : w.clock.Sound
  targets : ∀ t ∈ w.clock.pending, t.job.target < w.conns.length
  held : ∀ p ∈ w.phones, ∀ i ∈ p.held, i < w.conns.length
  known : ∀ (c : ConnId) (k : Conn) (d : Deadline), w.conns[c]? = some k →
    k.guard.armed = some d → d.timer < w.clock.nextId
  own : ∀ (c : ConnId) (k : Conn) (d : Deadline), w.conns[c]? = some k →
    k.guard.armed = some d → ∀ t ∈ w.clock.pending, t.id = d.timer →
      t.job = ⟨c, .missed d.generation⟩
  bound : ∀ k ∈ w.conns, ∀ l, k.leg = some l → l < w.legs.length
  shut : ∀ k ∈ w.conns, k.mailbox.shutDown = k.closed

theorem Orderly.timed (hw : w.Orderly) (h : Within w c s) : s.Timed where
  clock := h.clock ▸ hw.clock
  known d hd := by rw [h.clock]; exact hw.known c s.conn d h.conn hd
  own d hd := by rw [h.clock, h.id]; exact hw.own c s.conn d h.conn hd

theorem Orderly.lt_legs (hw : w.Orderly) (h : Within w c s) {l : LegId}
    (hl : s.conn.leg = some l) : l < w.legs.length :=
  hw.bound _ (List.mem_of_getElem? h.conn) l hl

theorem mem_place {α : Type} {xs : List α} {i : Option ℕ} {a : Option α} {x : α}
    (h : x ∈ place xs i a) : x ∈ xs ∨ a = some x := by
  unfold place at h
  split at h
  · rcases List.mem_or_eq_of_mem_set h with h | rfl
    · exact .inl h
    · exact .inr rfl
  · exact .inl h

theorem shut_act {d : Deed} (h : s.conn.mailbox.shutDown = s.conn.closed) :
    (s.act d).conn.mailbox.shutDown = (s.act d).conn.closed := by
  by_cases hclose : d = .close
  · subst hclose
    show s.close.conn.mailbox.shutDown = s.close.conn.closed
    rw [mailbox_close, closed_close]
    split_ifs with hc
    · rw [h, hc]
    · rfl
  · rw [closed_act s hclose, ← h]
    cases d with
    | fetch =>
      show s.fetch.conn.mailbox.shutDown = _
      rw [mailbox_fetch]
    | post e => unfold act Mailbox.post; dsimp only [putMail]; split_ifs <;> rfl
    | attend => rfl
    | retire => rfl
    | close => exact absurd rfl hclose
    | _ => exact congrArg Mailbox.shutDown (undisturbed_act s rfl).mailbox

theorem bound_act (s : Scene) (d : Deed) {l : LegId} (h : (s.act d).conn.leg = some l) :
    s.conn.leg = some l := by
  by_cases hclose : d = .close
  · subst hclose
    change s.close.conn.leg = some l at h
    unfold close at h
    split_ifs at h
    · exact h
    · cases h
  · exact (anchored_act s hclose).bound ▸ h

theorem Within.mem_held (h : Within w c s) {i : ConnId} (hi : 0 < s.heldFor i) :
    ∃ p ∈ w.phones, i ∈ p.held := by
  unfold heldFor at hi
  cases hp : s.phone with
  | none => simp [hp] at hi
  | some p =>
    have hbind := h.phone ▸ hp
    obtain ⟨j, -, hj⟩ := Option.bind_eq_some_iff.1 hbind
    exact ⟨p, List.mem_of_getElem? hj, List.count_pos_iff.1 (by simpa [hp] using hi)⟩

/-- **A deed leaves the world in order.** -/
theorem Orderly.deed (hw : w.Orderly) (c : ConnId) (d : Deed) :
    (w.onScene c (·.act d)).Orderly := by
  rcases within_or_le w c with ⟨s, h⟩ | h
  · have hon := onward_act (hw.timed h) d
    have hlt := h.lt
    rw [onScene_of_within h]
    refine ⟨hon.timed.clock, fun t ht => ?_, fun p hp i hi => ?_, fun i k e hk he => ?_,
      fun i k e hk he t ht hid => ?_, fun k hk l hl => ?_, fun k hk => ?_⟩
    · rw [putScene_conns, List.length_set]
      by_cases hc : t.job.target = s.id
      · rwa [hc, h.id]
      · have hmem : t ∈ (s.act d).clock.pending.filter (·.job.target != s.id) := by
          simpa [hc] using ht
        rw [hon.others, h.clock] at hmem
        exact hw.targets t (List.mem_filter.1 hmem).1
    · rw [putScene_conns, List.length_set]
      by_cases hc : i = s.id
      · rwa [hc, h.id]
      · rcases mem_place hp with hp | hp
        · exact hw.held p hp i hi
        · have hcount : 0 < s.heldFor i := by
            rw [← hon.held i hc, heldFor, hp]
            exact List.count_pos_iff.2 hi
          obtain ⟨q, hq, hiq⟩ := h.mem_held hcount
          exact hw.held q hq i hiq
    · by_cases hc : i = c
      · subst hc
        rw [h.putScene_same] at hk
        exact hon.timed.known e (Option.some.inj hk ▸ he)
      · rw [putScene_other hc] at hk
        exact (hw.known i k e hk he).trans_le (h.clock ▸ hon.nextId)
    · by_cases hc : i = c
      · subst hc
        rw [h.putScene_same] at hk
        rw [← h.id, ← hon.id]
        exact hon.timed.own e (Option.some.inj hk ▸ he) t ht hid
      · rw [putScene_other hc] at hk
        have hknown := hw.known i k e hk he
        rw [← h.clock] at hknown
        rcases hon.fresh t ht with ht | ht
        · exact hw.own i k e hk he t (h.clock ▸ ht) hid
        · omega
    · rw [putScene_legs_length]
      rcases List.mem_or_eq_of_mem_set hk with hk | rfl
      · exact hw.bound k hk l hl
      · exact hw.lt_legs h (bound_act s d hl)
    · rcases List.mem_or_eq_of_mem_set hk with hk | rfl
      · exact hw.shut k hk
      · exact shut_act (hw.shut _ (List.mem_of_getElem? h.conn))
  · rw [onScene_of_none h]
    exact hw

/-! ### Everything else that happens -/

theorem Orderly.with_clock (hw : w.Orderly) {clock : Clock Delivery} (hsound : clock.Sound)
    (hsub : ∀ t ∈ clock.pending, t ∈ w.clock.pending) (hnext : w.clock.nextId ≤ clock.nextId) :
    ({ w with clock } : World).Orderly :=
  { hw with
    clock := hsound
    targets := fun t ht => hw.targets t (hsub t ht)
    known := fun c k d hk hd => (hw.known c k d hk hd).trans_le hnext
    own := fun c k d hk hd t ht => hw.own c k d hk hd t (hsub t ht) }

theorem Orderly.with_phones (hw : w.Orderly) {phones : List Phone}
    (hheld : ∀ p ∈ phones, ∀ i ∈ p.held, i < w.conns.length) :
    ({ w with phones } : World).Orderly := { hw with held := hheld }

theorem Orderly.with_legs (hw : w.Orderly) {legs : List Leg} (hlen : legs.length = w.legs.length) :
    ({ w with legs } : World).Orderly :=
  { hw with bound := fun k hk l hl => by rw [hlen]; exact hw.bound k hk l hl }

theorem Orderly.enlist (hw : w.Orderly) (o : Options) :
    ({ w with conns := w.conns ++ [Conn.fresh o] } : World).Orderly := by
  have hlen : (w.conns ++ [Conn.fresh o]).length = w.conns.length + 1 := by simp
  have hold {c : ConnId} {k : Conn} {d : Deadline} (hk : (w.conns ++ [Conn.fresh o])[c]? = some k)
      (hd : k.guard.armed = some d) : w.conns[c]? = some k := by
    rcases List.mem_append.1 (List.mem_of_getElem? hk) with _ | hmem
    · rw [List.getElem?_append] at hk
      split_ifs at hk with hc
      · exact hk
      · have hfresh := List.mem_singleton.1 (List.mem_of_getElem? hk)
        rw [hfresh] at hd
        cases hd
    · rw [List.mem_singleton.1 hmem] at hd
      cases hd
  refine { hw with
    targets := fun t ht => ?_
    held := fun p hp i hi => ?_
    known := fun c k d hk hd => hw.known c k d (hold hk hd) hd
    own := fun c k d hk hd => hw.own c k d (hold hk hd) hd
    bound := fun k hk l hl => ?_
    shut := fun k hk => ?_ }
  · exact hlen ▸ Nat.lt_succ_of_lt (hw.targets t ht)
  · exact hlen ▸ Nat.lt_succ_of_lt (hw.held p hp i hi)
  · rcases List.mem_append.1 hk with hk | hk
    · exact hw.bound k hk l hl
    · rw [List.mem_singleton.1 hk] at hl
      cases hl
  · rcases List.mem_append.1 hk with hk | hk
    · exact hw.shut k hk
    · rw [List.mem_singleton.1 hk]
      rfl

theorem setLeg_getElem? (w : World) (c : ConnId) (l : LegId) (i : ConnId) :
    (w.setLeg c l).conns[i]? =
      if c = i then w.conns[i]?.map (fun k => { k with leg := some l }) else w.conns[i]? := by
  unfold setLeg
  rw [List.getElem?_modify]
  split_ifs <;> simp

theorem Orderly.assign (hw : w.Orderly) (c : ConnId) {l : LegId} (hl : l < w.legs.length) :
    (w.setLeg c l).Orderly := by
  have hlen : (w.setLeg c l).conns.length = w.conns.length := by simp [setLeg]
  have hold {i : ConnId} {k : Conn} (hk : (w.setLeg c l).conns[i]? = some k) :
      ∃ k₀ leg, w.conns[i]? = some k₀ ∧ k = { k₀ with leg } ∧ (leg = k₀.leg ∨ leg = some l) := by
    rw [setLeg_getElem?] at hk
    split_ifs at hk
    · obtain ⟨k₀, hk₀, rfl⟩ := Option.map_eq_some_iff.1 hk
      exact ⟨k₀, some l, hk₀, rfl, .inr rfl⟩
    · exact ⟨k, k.leg, hk, rfl, .inl rfl⟩
  refine
    { clock := hw.clock
      targets := fun t ht => hlen ▸ hw.targets t ht
      held := fun p hp i hi => hlen ▸ hw.held p hp i hi
      known := fun i k d hk hd => ?_
      own := fun i k d hk hd => ?_
      bound := fun k hk l' hl' => ?_
      shut := fun k hk => ?_ }
  · obtain ⟨k₀, leg, hk₀, rfl, -⟩ := hold hk
    exact hw.known i k₀ d hk₀ hd
  · obtain ⟨k₀, leg, hk₀, rfl, -⟩ := hold hk
    exact hw.own i k₀ d hk₀ hd
  · obtain ⟨i, hi⟩ := List.mem_iff_getElem?.1 hk
    obtain ⟨k₀, leg, hk₀, rfl, hleg⟩ := hold hi
    rcases hleg with rfl | rfl
    · exact hw.bound k₀ (List.mem_of_getElem? hk₀) l' hl'
    · obtain rfl := Option.some.inj hl'
      exact hl
  · obtain ⟨i, hi⟩ := List.mem_iff_getElem?.1 hk
    obtain ⟨k₀, leg, hk₀, rfl, -⟩ := hold hi
    exact hw.shut k₀ (List.mem_of_getElem? hk₀)

theorem releaseBurst_eq_some {p : Phone} {c : ConnId} {p' : Phone}
    (h : p.releaseBurst = some (c, p')) : p.held = c :: p'.held := by
  unfold Phone.releaseBurst at h
  cases hheld : p.held with
  | nil => simp [hheld] at h
  | cons i rest =>
    simp only [hheld, Option.some.injEq, Prod.mk.injEq] at h
    obtain ⟨rfl, rfl⟩ := h
    rfl

/-- Only the confirmation that it gives away leaves the phone. -/
theorem releaseBurst_keeps {p : Phone} {c : ConnId} {p' : Phone}
    (h : p.releaseBurst = some (c, p')) : p' = { p with held := p'.held } := by
  unfold Phone.releaseBurst at h
  cases hheld : p.held with
  | nil => simp [hheld] at h
  | cons i rest =>
    simp only [hheld, Option.some.injEq, Prod.mk.injEq] at h
    obtain ⟨-, rfl⟩ := h
    rfl

/-- A phone gives the oldest confirmation away. -/
theorem Orderly.give (hw : w.Orderly) {p : PhoneId} {c : ConnId} {phone : Phone}
    (hp : w.phones[p]?.bind (·.releaseBurst) = some (c, phone)) :
    ({ w with phones := w.phones.set p phone } : World).Orderly := by
  obtain ⟨q, hq, hrel⟩ := Option.bind_eq_some_iff.1 hp
  have hheld := releaseBurst_eq_some hrel
  refine hw.with_phones fun q' hq' i hi => ?_
  rcases List.mem_or_eq_of_mem_set hq' with hq' | rfl
  · exact hw.held q' hq' i hi
  · exact hw.held q (List.mem_of_getElem? hq) i (hheld ▸ List.mem_cons_of_mem _ hi)

/-- A timer comes off the clock. -/
theorem Orderly.next (hw : w.Orderly) {limit : ℕ} {d : Delivery} {clock : Clock Delivery}
    (hn : w.clock.next? limit = some (d, clock)) : ({ w with clock } : World).Orderly := by
  obtain ⟨t, -, -, -, -, hclock⟩ := Clock.next?_eq_some hn
  refine hw.with_clock (hw.clock.next? hn) (fun u hu => ?_) ?_
  · rw [hclock] at hu
    exact (Clock.mem_cancel.1 hu).1
  · rw [hclock]
    exact le_rfl

theorem Orderly.hand (hw : w.Orderly) (d : Delivery) : (w.hand d).Orderly :=
  hw.deed d.target (.post d.event)

end World

/-- Where a happening can come about: legs that are assigned exist, and the clock is not set back
nor beyond a deadline. -/
def Happening.Fits (w : World) : Happening → Prop
  | .assign _ l => l < w.legs.length
  | .pass limit => w.clock.now ≤ limit ∧ ∀ t ∈ w.clock.pending, limit < t.due
  | _ => True

namespace World

open Scene

variable {w : World}

/-- **Whatever fits leaves the world in order.** -/
theorem Orderly.happen (hw : w.Orderly) {h : Happening} (hfits : h.Fits w) :
    (w.happen h).Orderly := by
  cases h with
  | deed c d => exact hw.deed c d
  | enlist o => exact hw.enlist o
  | assign c l => exact hw.assign c hfits
  | report l state => exact hw.with_legs (List.length_modify ..)
  | refuse l yes => exact hw.with_legs (List.length_modify ..)
  | release l =>
    rw [World.happen, hangUpLeg]
    cases w.legs[l]? with
    | none => exact hw
    | some leg => exact hw.with_legs (List.length_set ..)
  | hold p active =>
    refine hw.with_phones fun q hq i hi => ?_
    obtain ⟨j, hj⟩ := List.mem_iff_getElem?.1 hq
    rw [List.getElem?_modify] at hj
    obtain ⟨q₀, hq₀, rfl⟩ := Option.map_eq_some_iff.1 hj
    refine hw.held q₀ (List.mem_of_getElem? hq₀) i ?_
    split_ifs at hi <;> exact hi
  | prefer t => exact { hw with }
  | confirm p =>
    rw [World.happen]
    cases hp : w.phones[p]?.bind (·.releaseBurst) with
    | none => exact hw
    | some taken => exact (hw.give hp).hand _
  | expire limit =>
    rw [World.happen]
    cases hn : w.clock.next? limit with
    | none => exact hw
    | some due => exact (hw.next hn).hand _
  | pass limit =>
    obtain ⟨-, hahead⟩ := hfits
    exact hw.with_clock ⟨hw.clock.young, hw.clock.distinct, fun t ht => (hahead t ht).le⟩
      (fun _ ht => ht) le_rfl

end World

end CdmaCall
