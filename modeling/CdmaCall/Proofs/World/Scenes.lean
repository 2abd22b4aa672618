import CdmaCall.Proofs.Connection.Path
import CdmaCall.World.Basic

/-!
# Taking scenes out of a world and putting them back

`Within w c s` says what `scene?` reads: the scene `s` is the world `w` as connection `c` sees it.
As long as the connection stays anchored, a scene that was put back is what is taken out next, so
that several requests of one connection in a row are one function on its scene.
-/

namespace CdmaCall

namespace World

open Scene

variable {w : World} {c : ConnId} {s s' s'' : Scene}

/-- The scene `s` is what connection `c` sees of the world `w`. -/
structure Within (w : World) (c : ConnId) (s : Scene) : Prop where
  id : s.id = c
  conn : w.conns[c]? = some s.conn
  leg : s.leg = s.conn.leg.bind (w.legs[·]?)
  phone : s.phone = (s.leg.bind (·.phone)).bind (w.phones[·]?)
  player : s.player = w.player
  clock : s.clock = w.clock
  toneType : s.toneType = w.toneType
  emergency : s.emergency = w.emergency

theorem scene?_eq_some_iff : w.scene? c = some s ↔ Within w c s := by
  unfold scene? phoneAt legAt
  rw [Option.map_eq_some_iff]
  constructor
  · rintro ⟨conn, hconn, rfl⟩
    exact ⟨rfl, hconn, by simp [hconn], by simp [hconn], rfl, rfl, rfl, rfl⟩
  · rintro ⟨hid, hconn, hleg, hphone, hplayer, hclock, htone, hnumbers⟩
    refine ⟨s.conn, hconn, ?_⟩
    cases s
    simp_all

theorem scene?_eq_none_iff : w.scene? c = none ↔ w.conns.length ≤ c := by
  unfold scene?
  rw [Option.map_eq_none_iff, List.getElem?_eq_none_iff]

theorem Within.conn_eq {k : Conn} (h : Within w c s) (hk : w.conns[c]? = some k) : s.conn = k :=
  Option.some.inj (h.conn.symm.trans hk)

theorem Within.legAt (h : Within w c s) : w.legAt c = s.conn.leg := by
  rw [World.legAt, h.conn]
  rfl

theorem Within.phoneAt (h : Within w c s) : w.phoneAt c = s.leg.bind (·.phone) := by
  rw [World.phoneAt, h.legAt, ← h.leg]

theorem Within.lt (h : Within w c s) : c < w.conns.length :=
  (List.getElem?_eq_some_iff.1 h.conn).1

/-! ### Putting a scene back -/

@[simp] theorem putScene_conns : (w.putScene c s).conns = w.conns.set c s.conn := rfl

@[simp] theorem putScene_clock : (w.putScene c s).clock = s.clock := rfl

theorem Within.putScene_same (h : Within w c s) (s' : Scene) :
    (w.putScene c s').conns[c]? = some s'.conn := by
  simp [h.lt]

/-- Putting a scene back leaves other connections alone. -/
theorem putScene_other {i : ConnId} (h : i ≠ c) (s : Scene) :
    (w.putScene c s).conns[i]? = w.conns[i]? :=
  List.getElem?_set_ne h.symm

@[simp] theorem length_place {α : Type} (xs : List α) (i : Option ℕ) (a : Option α) :
    (place xs i a).length = xs.length := by
  unfold place
  split <;> simp

@[simp] theorem putScene_legs_length : (w.putScene c s).legs.length = w.legs.length :=
  length_place _ _ _

/-- What is in the place `i` afterwards, if something was there before. -/
theorem bind_place {α : Type} {xs : List α} {i : Option ℕ} {a : Option α}
    (h : (i.bind (xs[·]?)).isSome = a.isSome) : i.bind ((place xs i a)[·]?) = a := by
  cases i with
  | none =>
    cases a with
    | none => rfl
    | some a => simp at h
  | some i =>
    cases a with
    | none => simpa [place] using h
    | some a =>
      have hi : i < xs.length := by simpa using h
      simp [place, hi]

theorem place_self {α : Type} {xs : List α} {i : Option ℕ} {a : Option α}
    (h : a = i.bind (xs[·]?)) : place xs i a = xs := by
  cases i with
  | none => rfl
  | some i =>
    cases a with
    | none => rfl
    | some a =>
      obtain ⟨hlt, rfl⟩ := List.getElem?_eq_some_iff.1 h.symm
      simp [place]

theorem place_place {α : Type} (xs : List α) (i : Option ℕ) {a b : Option α}
    (h : b.isSome = a.isSome) : place (place xs i a) i b = place xs i b := by
  cases i with
  | none => rfl
  | some i =>
    cases a <;> cases b <;> simp_all [place]

theorem map_place {α β : Type} (f : α → β) (xs : List α) (i : Option ℕ) (a : Option α) :
    place (xs.map f) i (a.map f) = (place xs i a).map f := by
  cases i with
  | none => rfl
  | some i =>
    cases a with
    | none => rfl
    | some a => exact (List.map_set ..).symm

/-- What is in a place looks the same if its new content looks like the old. -/
theorem map_place_of_eq {α β : Type} {f : α → β} {xs : List α} {i : Option ℕ} {a b : Option α}
    (hb : b = i.bind (xs[·]?)) (hab : a.map f = b.map f) : (place xs i a).map f = xs.map f := by
  have hb' : a.map f = i.bind ((xs.map f)[·]?) := by
    rw [hab, hb]
    cases i <;> simp
  rw [← map_place, place_self hb']

theorem map_modify_of_eq {α β : Type} (f : α → α) (g : α → β) (h : ∀ x, g (f x) = g x)
    (xs : List α) (i : ℕ) : (xs.modify i f).map g = xs.map g := by
  refine List.ext_getElem? fun j => ?_
  rw [List.getElem?_map, List.getElem?_map, List.getElem?_modify]
  split_ifs <;> cases xs[j]? <;> simp [h]

theorem Within.putScene_self (h : Within w c s) : w.putScene c s = w := by
  obtain ⟨hlt, hconn⟩ := List.getElem?_eq_some_iff.1 h.conn
  have hleg : s.leg = (w.legAt c).bind (w.legs[·]?) := by rw [h.legAt, h.leg]
  have hphone : s.phone = (w.phoneAt c).bind (w.phones[·]?) := by rw [h.phoneAt, h.phone]
  unfold World.putScene
  rw [place_self hleg, place_self hphone, h.clock, h.player, ← hconn, List.set_getElem_self]

theorem Within.putScene (h : Within w c s) (ha : Anchored s s') :
    Within (w.putScene c s') c s' := by
  refine ⟨ha.id.trans h.id, by simp [h.lt], ?_, ?_, rfl, rfl, ha.toneType.trans h.toneType,
    ha.emergency.trans h.emergency⟩
  · rw [ha.bound]
    unfold World.putScene
    rw [h.legAt]
    exact (bind_place (by rw [← h.leg, ha.leg_isSome])).symm
  · rw [ha.leg_phone]
    unfold World.putScene
    rw [h.phoneAt]
    exact (bind_place (by rw [← h.phone, ha.phone])).symm

theorem Within.putScene_putScene (h : Within w c s) (ha : Anchored s s') (ha' : Anchored s' s'') :
    (w.putScene c s').putScene c s'' = w.putScene c s'' := by
  have hin := h.putScene ha
  have hplace : (w.putScene c s').legAt c = w.legAt c := by rw [hin.legAt, ha.bound, h.legAt]
  have hplace' : (w.putScene c s').phoneAt c = w.phoneAt c := by
    rw [hin.phoneAt, ha.leg_phone, h.phoneAt]
  unfold World.putScene at *
  simp only [hplace, hplace', place_place _ _ ha'.leg_isSome, place_place _ _ ha'.phone,
    List.set_set]

/-! ### One function after the other -/

theorem onScene_of_within (h : Within w c s) (f : Scene → Scene) :
    w.onScene c f = w.putScene c (f s) := by
  rw [onScene, scene?_eq_some_iff.2 h]

theorem onScene_of_none (h : w.conns.length ≤ c) (f : Scene → Scene) : w.onScene c f = w := by
  rw [onScene, scene?_eq_none_iff.2 h]

/-- A connection is in the world and has a scene, or is not and has none. -/
theorem within_or_le (w : World) (c : ConnId) : (∃ s, Within w c s) ∨ w.conns.length ≤ c := by
  cases h : w.scene? c with
  | none => exact .inr (scene?_eq_none_iff.1 h)
  | some s => exact .inl ⟨s, scene?_eq_some_iff.1 h⟩

theorem exists_within {k : Conn} (hk : w.conns[c]? = some k) : ∃ t, Within w c t ∧ t.conn = k := by
  rcases within_or_le w c with ⟨t, ht⟩ | hle
  · exact ⟨t, ht, ht.conn_eq hk⟩
  · rw [List.getElem?_eq_none_iff.2 hle] at hk
    cases hk

theorem onScene_id (w : World) (c : ConnId) : w.onScene c (fun s => s) = w := by
  rcases within_or_le w c with ⟨s, h⟩ | h
  · rw [onScene_of_within h, h.putScene_self]
  · exact onScene_of_none h _

/-- Two requests of one connection in a row are one function on its scene. -/
theorem onScene_onScene (w : World) (c : ConnId) {f g : Scene → Scene}
    (hf : ∀ s, Anchored s (f s)) (hg : ∀ s, Anchored s (g s)) :
    (w.onScene c f).onScene c g = w.onScene c (fun s => g (f s)) := by
  rcases within_or_le w c with ⟨s, h⟩ | h
  · rw [onScene_of_within h, onScene_of_within (h.putScene (hf s)), onScene_of_within h,
      h.putScene_putScene (hf s) (hg _)]
  · rw [onScene_of_none h, onScene_of_none h, onScene_of_none h]

theorem inScene_snd {α : Type} (w : World) (c : ConnId) (default : α) (f : Scene → α × Scene) :
    (w.inScene c default f).2 = w.onScene c (fun s => (f s).2) := by
  unfold inScene onScene
  cases w.scene? c <;> rfl

end World

end CdmaCall
