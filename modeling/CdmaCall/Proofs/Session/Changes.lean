import CdmaCall.Proofs.World.Orderly
import Mathlib.Data.List.Induction

/-!
# One connection in the course of a run

A happening makes of a connection nothing at all, what a deed of its own does, one with an event
more in its mailbox, or one on another leg (`change_happen`). A connection never goes away, and what
every change keeps, given what happened before, holds of it at every later moment
(`kept_after`, `kept_from_start`).
-/

namespace CdmaCall

namespace World

open Scene

variable {w : World} {c : ConnId} {k k' : Conn} {x : Happening}

/-- What a happening makes of one connection. -/
inductive Change (w : World) (c : ConnId) (x : Happening) (k k' : Conn) : Prop
  | none (h : k' = k)
  /-- A deed of its own. -/
  | deed (s : Scene) (d : Deed) (hin : Within w c s) (hk : s.conn = k) (hx : x = .deed c d)
      (h : k' = (s.act d).conn)
  /-- An event arrives. -/
  | mail (e : Event) (h : k' = { k with mailbox := (k.mailbox.post e).2 })
  /-- Another leg. -/
  | leg (l : LegId) (hx : x = .assign c l) (h : k' = { k with leg := some l })

theorem Within.happen_deed {s : Scene} (h : Within w c s) (d : Deed) :
    w.happen (.deed c d) = w.putScene c (s.act d) := onScene_of_within h _

theorem Within.conn_deed {s : Scene} (h : Within w c s) (d : Deed) :
    (w.happen (.deed c d)).conns[c]? = some (s.act d).conn := by
  rw [h.happen_deed, h.putScene_same]

theorem change_deed (hk : w.conns[c]? = some k) (i : ConnId) (d : Deed) :
    ∃ k', (w.happen (.deed i d)).conns[c]? = some k' ∧ Change w c (.deed i d) k k' := by
  rw [happen]
  rcases within_or_le w i with ⟨s, hin⟩ | hle
  · rw [onScene_of_within hin]
    by_cases hi : i = c
    · subst hi
      exact ⟨_, hin.putScene_same _, .deed s d hin (hin.conn_eq hk) rfl rfl⟩
    · rw [putScene_other (Ne.symm hi)]
      exact ⟨k, hk, .none rfl⟩
  · rw [onScene_of_none hle]
    exact ⟨k, hk, .none rfl⟩

/-- An event arrives, whatever it was taken from. -/
theorem change_hand {v : World} (hv : v.conns = w.conns) (hk : w.conns[c]? = some k)
    (d : Delivery) : ∃ k', (v.hand d).conns[c]? = some k' ∧ Change w c x k k' := by
  rw [← hv] at hk
  obtain ⟨k', hk', hchange⟩ := change_deed hk d.target (.post d.event)
  refine ⟨k', hk', ?_⟩
  cases hchange with
  | none h => exact .none h
  | deed s d' hin hs hx h =>
    obtain ⟨-, rfl⟩ := Happening.deed.inj hx
    subst hs
    exact .mail d.event h
  | mail e h => exact .mail e h
  | leg l hx => cases hx

/-- **A connection stays, and changes in one of four ways.** -/
theorem change_happen (hk : w.conns[c]? = some k) (x : Happening) :
    ∃ k', (w.happen x).conns[c]? = some k' ∧ Change w c x k k' := by
  cases x with
  | deed i d => exact change_deed hk i d
  | enlist o =>
    refine ⟨k, ?_, .none rfl⟩
    show (w.conns ++ [Conn.fresh o])[c]? = some k
    rw [List.getElem?_append_left (List.getElem?_eq_some_iff.1 hk).1, hk]
  | assign i l =>
    rw [happen, setLeg_getElem?, hk]
    split_ifs with hi
    · subst hi
      exact ⟨_, rfl, .leg l rfl rfl⟩
    · exact ⟨k, rfl, .none rfl⟩
  | release l =>
    refine ⟨k, ?_, .none rfl⟩
    rw [happen, hangUpLeg]
    cases w.legs[l]? <;> exact hk
  | confirm p =>
    rw [happen]
    cases w.phones[p]?.bind (·.releaseBurst) with
    | none => exact ⟨k, hk, .none rfl⟩
    | some taken =>
      exact change_hand (w := w) (v := { w with phones := w.phones.set p taken.2 }) rfl hk
        ⟨taken.1, .burstConfirmed⟩
  | expire limit =>
    rw [happen]
    cases w.clock.next? limit with
    | none => exact ⟨k, hk, .none rfl⟩
    | some next => exact change_hand (w := w) (v := { w with clock := next.2 }) rfl hk next.1
  | _ => exact ⟨k, hk, .none rfl⟩

theorem onScene_conns_length (w : World) (c : ConnId) (f : Scene → Scene) :
    (w.onScene c f).conns.length = w.conns.length := by
  unfold onScene
  cases w.scene? c <;> simp

theorem conns_length_happen (hx : ∀ o, x ≠ .enlist o) :
    (w.happen x).conns.length = w.conns.length := by
  cases x with
  | enlist o => exact absurd rfl (hx o)
  | deed i d => exact onScene_conns_length w i _
  | assign i l => exact List.length_modify ..
  | release l =>
    rw [happen, hangUpLeg]
    cases w.legs[l]? <;> rfl
  | confirm p =>
    rw [happen]
    cases w.phones[p]?.bind (·.releaseBurst) with
    | none => rfl
    | some taken => exact onScene_conns_length _ _ _
  | expire limit =>
    rw [happen]
    cases w.clock.next? limit with
    | none => rfl
    | some next => exact onScene_conns_length _ _ _
  | _ => rfl

/-- A connection that was not there before is fresh. -/
theorem fresh_happen (hnone : w.conns[c]? = none) (hk' : (w.happen x).conns[c]? = some k') :
    ∃ o, k' = Conn.fresh o := by
  have hle := List.getElem?_eq_none_iff.1 hnone
  by_cases hx : ∃ o, x = .enlist o
  · obtain ⟨o, rfl⟩ := hx
    change (w.conns ++ [Conn.fresh o])[c]? = some k' at hk'
    rw [List.getElem?_append_right hle] at hk'
    exact ⟨o, List.mem_singleton.1 (List.mem_of_getElem? hk')⟩
  · have hlen := conns_length_happen (w := w) fun o he => hx ⟨o, he⟩
    have hlt := (List.getElem?_eq_some_iff.1 hk').1
    omega

/-- What has to do with neither the mailbox nor the leg of a connection changes by deeds of its own
only. -/
theorem seen_happen {α : Type} {f : Conn → α} {a : α} (hfresh : ∀ o, f (Conn.fresh o) = a)
    (hmail : ∀ k mailbox, f { k with mailbox } = f k) (hleg : ∀ k leg, f { k with leg } = f k)
    (hx : ∀ d, x ≠ .deed c d) :
    ((w.happen x).conns[c]?.map f).getD a = (w.conns[c]?.map f).getD a := by
  rcases hk : w.conns[c]? with _ | k
  · rcases hk' : (w.happen x).conns[c]? with _ | k'
    · rfl
    · obtain ⟨o, rfl⟩ := fresh_happen hk hk'
      exact hfresh o
  · obtain ⟨k', hk', hchange⟩ := change_happen hk x
    have hsame : f k' = f k := by
      rcases hchange with h | ⟨s, d, -, -, hd, -⟩ | ⟨e, h⟩ | ⟨l, -, h⟩
      · rw [h]
      · exact absurd hd (hx d)
      · rw [h, hmail]
      · rw [h, hleg]
    rw [hk']
    exact hsame

/-! ### Whole runs -/

/-- **What every change keeps**, given what happened before, a connection has ever after. -/
theorem kept_after {P : List Moment → Conn → Prop} (ms : List Moment)
    (hchange : ∀ ms w x k k', w.conns[c]? = some k → Change w c x k k' → P ms k →
      P (ms ++ [⟨w, x⟩]) k')
    (hs : List Happening) (hk : w.conns[c]? = some k) (hp : P ms k) :
    ∃ k', (w.after hs).conns[c]? = some k' ∧ P (ms ++ w.moments hs) k' := by
  induction hs generalizing w k ms with
  | nil => exact ⟨k, hk, by simpa [moments] using hp⟩
  | cons x hs ih =>
    obtain ⟨k₁, hk₁, hstep⟩ := change_happen hk x
    obtain ⟨k', hk', hp'⟩ := ih (ms ++ [⟨w, x⟩]) hk₁ (hchange ms w x k k₁ hk hstep hp)
    exact ⟨k', hk', by simpa [moments] using hp'⟩

/-- **What every happening keeps**, given what happened before, holds ever after. -/
theorem kept_along {P : List Moment → World → Prop} {ms : List Moment} (hs : List Happening)
    (hnext : ∀ ms w x, P ms w → P (ms ++ [⟨w, x⟩]) (w.happen x)) (hp : P ms w) :
    P (ms ++ w.moments hs) (w.after hs) := by
  induction hs generalizing w ms with
  | nil => simpa [moments] using hp
  | cons x hs ih => simpa [moments] using ih (hnext ms w x hp)

/-- **At every moment of a run.** -/
theorem kept_during {P : List Moment → World → Prop} (start : World) (ops : List Op) (n : ℕ)
    (hnext : ∀ ms w x, P ms w → P (ms ++ [⟨w, x⟩]) (w.happen x)) (hp : P [] start) :
    P ((start.story ops).take n) (start.during ops n) := by
  have hkept := kept_along ((start.history ops).take n) hnext hp
  rwa [List.nil_append, moments_take] at hkept

/-- **What a fresh connection has** and every change keeps, every connection of a run has. -/
theorem kept_from_start {P : List Moment → Conn → Prop}
    (hfresh : ∀ ms o, P ms (Conn.fresh o))
    (hchange : ∀ ms w x k k', w.conns[c]? = some k → Change w c x k k' → P ms k →
      P (ms ++ [⟨w, x⟩]) k')
    (hs : List Happening) (hstart : w.conns = []) (hk : (w.after hs).conns[c]? = some k) :
    P (w.moments hs) k := by
  induction hs using List.reverseRecOn generalizing k with
  | nil => simp [hstart] at hk
  | append_singleton hs x ih =>
    rw [after_append, after_cons, after_nil] at hk
    rw [moments_append]
    cases hold : (w.after hs).conns[c]? with
    | none =>
      obtain ⟨o, rfl⟩ := fresh_happen hold hk
      exact hfresh _ o
    | some k₀ =>
      obtain ⟨k', hk', hstep⟩ := change_happen hold x
      obtain rfl := Option.some.inj (hk.symm.trans hk')
      exact hchange _ _ x k₀ k hold hstep (ih hold)

end World

end CdmaCall
