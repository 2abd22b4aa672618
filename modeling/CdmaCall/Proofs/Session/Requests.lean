import CdmaCall.Proofs.Connection.Requests
import CdmaCall.Proofs.Session.Setup
import CdmaCall.Session.View

/-!
# Who asks which phone for what

`m.Asks c p a`: at moment `m` connection `c` asks phone `p` for `a`. The phone is the one that
serves the leg to which the connection is bound at that moment, and the request is one that its deed
permits (`asks_inv`); where the connection is bound to, and in which mode its digits go out, stays
the same unless it is bound to a leg, is closed, or the user prefers another length of tones
(`toneModeAt_eq`).
-/

namespace CdmaCall

section Defs

/-- Connection `c` asks phone `p` for `a`. -/
def Moment.Asks (c : ConnId) (p : PhoneId) (a : Action) (m : Moment) : Prop :=
  m.what.subject? = some c ∧ (p, a) ∈ m.before.newActions m.after

instance (c : ConnId) (p : PhoneId) (a : Action) (m : Moment) : Decidable (m.Asks c p a) :=
  inferInstanceAs (Decidable (_ ∧ _))

namespace World

/-- What carries the leg of connection `c`. Without a leg it counts as circuit switched. -/
def bearerAt (w : World) (c : ConnId) : Bearer :=
  (((w.legAt c).bind (w.legs[·]?)).map (·.bearer)).getD .circuitSwitched

/-- How the digits of connection `c` go out at present. -/
def toneModeAt (w : World) (c : ConnId) : ToneMode := ToneMode.select (w.bearerAt c) w.toneType

end World

end Defs

namespace World

open Scene

variable {w w' start : World} {c : ConnId} {s s' : Scene} {d : Deed} {p : PhoneId} {a : Action}
  {x : Happening} {m : Moment} {ops : List Op}

theorem Within.bearerAt (h : Within w c s) : w.bearerAt c = s.bearer := by
  rw [World.bearerAt, h.legAt, ← h.leg]
  rfl

theorem Within.toneModeAt (h : Within w c s) : w.toneModeAt c = s.toneMode := by
  rw [World.toneModeAt, h.bearerAt, ← h.toneType]
  rfl

/-! ### What a phone was asked for -/

section Asking

theorem mem_newActions : (p, a) ∈ w.newActions w' ↔ ∃ phone, w'.phones[p]? = some phone ∧
    a ∈ phone.actions.drop ((w.phones[p]?.map (·.actions.length)).getD 0) := by
  unfold newActions
  simp only [List.mem_flatten, List.mem_mapIdx]
  constructor
  · rintro ⟨as, ⟨i, hi, rfl⟩, ha⟩
    obtain ⟨b, hb, heq⟩ := List.mem_map.1 ha
    obtain ⟨rfl, rfl⟩ := Prod.mk.inj heq
    exact ⟨_, List.getElem?_eq_getElem hi, hb⟩
  · rintro ⟨phone, hphone, ha⟩
    obtain ⟨hp, rfl⟩ := List.getElem?_eq_some_iff.1 hphone
    exact ⟨_, ⟨p, hp, rfl⟩, List.mem_map.2 ⟨a, ha, rfl⟩⟩

/-- Phones that stay as they are were asked for nothing. -/
theorem not_mem_newActions (h : w'.phones[p]?.map (·.actions) = w.phones[p]?.map (·.actions)) :
    (p, a) ∉ w.newActions w' := by
  rw [mem_newActions]
  rintro ⟨phone, hphone, ha⟩
  have hlength := congrArg (Option.map List.length) h
  rw [Option.map_map, Option.map_map, hphone] at hlength
  change _ = w.phones[p]?.map (·.actions.length) at hlength
  rw [← hlength] at ha
  simp at ha

theorem newActions_eq_nil (h : w'.phones.map (·.actions) = w.phones.map (·.actions)) :
    w.newActions w' = [] :=
  List.eq_nil_iff_forall_not_mem.2 fun _ => not_mem_newActions (by
    rw [← List.getElem?_map, ← List.getElem?_map, h])

/-- The phone of connection `c` is the only one that changes. -/
theorem Within.phones_putScene (h : Within w c s) {as : List Action} (hasks : s.Asks s' as) :
    as = [] ∧ (w.putScene c s').phones.map (·.actions) = w.phones.map (·.actions) ∨
      ∃ q phone phone', w.phoneAt c = some q ∧ w.phones[q]? = some phone ∧
        (w.putScene c s').phones = w.phones.set q phone' ∧
        phone'.actions = phone.actions ++ as := by
  have hplace : (w.putScene c s').phones = place w.phones (w.phoneAt c) s'.phone := rfl
  have hphone : s.phone = (w.phoneAt c).bind (w.phones[·]?) := by rw [h.phoneAt, h.phone]
  have hactions := hasks.actions
  rcases hs : s.phone with _ | phone
  · have has : as = [] := by
      by_contra hne
      have hserved := hasks.served hne
      rw [hs] at hserved
      cases hserved
    refine .inl ⟨has, ?_⟩
    rw [hplace]
    exact map_place_of_eq hphone (by rw [hactions, has]; simp)
  · rw [hs] at hactions
    obtain ⟨phone', hs', heq⟩ := Option.map_eq_some_iff.1 hactions
    obtain ⟨q, hq, hget⟩ := Option.bind_eq_some_iff.1 (hphone.symm.trans hs)
    exact .inr ⟨q, phone, phone', hq, hget, by rw [hplace, hq, hs']; rfl, heq⟩

/-- **The requests of a scene reach the phone of its connection**, and no other. -/
theorem Within.mem_newActions (h : Within w c s) {as : List Action} (hasks : s.Asks s' as) :
    (p, a) ∈ w.newActions (w.putScene c s') ↔ w.phoneAt c = some p ∧ a ∈ as := by
  rcases h.phones_putScene hasks with ⟨has, hsame⟩ | ⟨q, phone, phone', hq, hget, hset, hactions⟩
  · have hget : (w.putScene c s').phones[p]?.map (·.actions) = w.phones[p]?.map (·.actions) := by
      rw [← List.getElem?_map, ← List.getElem?_map, hsame]
    simp [not_mem_newActions hget, has]
  · rw [hq, Option.some.injEq]
    by_cases hpq : q = p
    · subst hpq
      have hlt := (List.getElem?_eq_some_iff.1 hget).1
      have hget' : (w.putScene c s').phones[q]? = some phone' := by simp [hset, hlt]
      simp [World.mem_newActions, hget', hget, hactions]
    · have hsame : (w.putScene c s').phones[p]? = w.phones[p]? := by
        rw [hset, List.getElem?_set_ne hpq]
      simp [not_mem_newActions (congrArg (Option.map (·.actions)) hsame), hpq]

/-- What was asked for is counted once. -/
theorem Within.countP_newActions (h : Within w c s) {as : List Action} (hasks : s.Asks s' as)
    (P : Action → Bool) :
    (w.newActions (w.putScene c s')).countP (fun a => P a.2) = as.countP P := by
  rcases h.phones_putScene hasks with ⟨rfl, hsame⟩ | ⟨q, phone, phone', -, hget, hset, hactions⟩
  · rw [newActions_eq_nil hsame]
    rfl
  · set count : List (PhoneId × Action) → ℕ := List.countP fun a => P a.2
    let f (p : PhoneId) (phone : Phone) : List (PhoneId × Action) :=
      (phone.actions.drop ((w.phones[p]?.map (·.actions.length)).getD 0)).map fun a => (p, a)
    have hcount (v : World) :
        count (w.newActions v) = ((v.phones.mapIdx f).map count).sum := List.countP_flatten
    have hnone : ((w.phones.mapIdx f).map count).sum = 0 := by
      rw [← hcount w, newActions_eq_nil rfl]
      rfl
    have hold : f q phone = [] := by simp [f, hget]
    have hnew : f q phone' = as.map fun a => (q, a) := by simp [f, hget, hactions]
    have hentry : (w.phones.mapIdx f)[q]? = some (f q phone) := by simp [hget]
    have hsum := sum_map_set count (f q phone') hentry
    rw [hcount, hset, List.mapIdx_set]
    rw [hnone, hold, hnew] at hsum
    rw [hnew]
    have hmap : count (as.map fun a => (q, a)) = as.countP P := List.countP_map
    have hnil : count [] = 0 := rfl
    omega

/-- **What a connection asks for** is permitted to its deed, and reaches the phone that serves its
leg. -/
theorem asks_inv (hw : m.before.Orderly) (h : m.Asks c p a) : ∃ s d, Within m.before c s ∧
    m.what = .deed c d ∧ m.before.phoneAt c = some p ∧ s.Permits d a := by
  obtain ⟨w, x⟩ := m
  obtain ⟨hsubject, hmem⟩ := h
  change (p, a) ∈ w.newActions (w.happen x) at hmem
  cases x with
  | deed i d =>
    obtain rfl := Option.some.inj hsubject
    rcases within_or_le w i with ⟨s, hin⟩ | hle
    · obtain ⟨as, hasks, hpermits⟩ := asks_act (hw.timed hin) d
      rw [hin.happen_deed, hin.mem_newActions hasks] at hmem
      exact ⟨s, d, hin, rfl, hmem.1, hpermits a hmem.2⟩
    · rw [happen, onScene_of_none hle] at hmem
      exact absurd hmem (not_mem_newActions rfl)
  | assign i l => exact absurd hmem (not_mem_newActions rfl)
  | _ => cases hsubject

/-- Stopping a tone reaches the phone in continuous mode only. -/
theorem asks_stop_iff {k : Conn} (hw : m.before.Orderly) (hwhat : m.what = .deed c .stop)
    (hk : m.before.conns[c]? = some k) (hopen : k.closed = false)
    (hp : p < m.before.phones.length) :
    m.Asks c p .stopTone ↔ m.before.phoneAt c = some p ∧ m.before.toneModeAt c = .continuous := by
  obtain ⟨w, x⟩ := m
  obtain ⟨s, hin, rfl⟩ := exists_within hk
  obtain rfl : x = .deed c .stop := hwhat
  show (_ = _ ∧ (p, Action.stopTone) ∈ w.newActions (w.happen (.deed c .stop))) ↔ _
  rw [hin.happen_deed, hin.toneModeAt]
  cases hm : s.toneMode with
  | burst =>
    have hsame : s.act .stop = s := by simp [act, stopTone, hopen, hm, Transmitter.stop, perform?]
    rw [hsame, hin.putScene_self]
    simp [not_mem_newActions]
  | continuous =>
    have hstop : s.act .stop = s.perform .stopTone := by
      simp [act, stopTone, hopen, hm, Transmitter.stop, perform?]
    have hphone : w.phoneAt c = some p → s.phone.isSome = true := by
      intro hat
      rw [hin.phone, ← hin.phoneAt, hat]
      simpa using hp
    rw [hstop]
    rcases hs : s.phone with _ | phone
    · rw [perform_none hs, hin.putScene_self]
      refine ⟨fun h => absurd h.2 (not_mem_newActions rfl), fun h => ?_⟩
      have hsome := hphone h.1
      rw [hs] at hsome
      cases hsome
    · rw [hin.mem_newActions (asks_perform s .stopTone (by rw [hs]; rfl))]
      simp [Happening.subject?]

end Asking

/-! ### Where a connection is bound to, and its mode -/

section Mode

/-- Who is bound to the same leg has the same bearer. -/
theorem SameNetwork.bearerAt (h : SameNetwork w w') (hleg : w'.legAt c = w.legAt c) :
    w'.bearerAt c = w.bearerAt c := by
  unfold World.bearerAt
  rw [hleg]
  rcases w.legAt c with _ | l
  · rfl
  · have hbearer := congrArg (Option.map fun f : Bool × Bearer × String × Option PhoneId => f.2.1)
      (h.leg l)
    rw [Option.map_map, Option.map_map] at hbearer
    exact congrArg (·.getD .circuitSwitched) hbearer

theorem bearerAt_happen (hassign : ∀ l, x ≠ .assign c l) (hclose : x ≠ .deed c .close) :
    (w.happen x).bearerAt c = w.bearerAt c :=
  (sameNetwork_happen w x).bearerAt (legAt_happen hassign hclose)

/-- Only the user changes what the user prefers. -/
theorem toneType_happen (hx : ∀ t, x ≠ .prefer t) : (w.happen x).toneType = w.toneType := by
  have hscene (v : World) (i : ConnId) (f : Scene → Scene) :
      (v.onScene i f).toneType = v.toneType := by
    unfold onScene
    cases v.scene? i <;> rfl
  cases x with
  | deed i d => exact hscene w i _
  | prefer t => exact absurd rfl (hx t)
  | release l =>
    rw [happen, hangUpLeg]
    cases w.legs[l]? <;> rfl
  | confirm p =>
    rw [happen]
    cases w.phones[p]?.bind (·.releaseBurst) with
    | none => rfl
    | some taken => exact hscene _ _ _
  | expire limit =>
    rw [happen]
    cases w.clock.next? limit with
    | none => rfl
    | some next => exact hscene _ _ _
  | _ => rfl

/-- Nothing in a course binds connection `c` to a leg or closes it. -/
def Unbound (c : ConnId) (hs : List Happening) : Prop :=
  (∀ l, .assign c l ∉ hs) ∧ .deed c .close ∉ hs

theorem Unbound.tail {hs : List Happening} (h : Unbound c (x :: hs)) : Unbound c hs :=
  ⟨fun l hl => h.1 l (List.mem_cons_of_mem _ hl), fun hc => h.2 (List.mem_cons_of_mem _ hc)⟩

theorem Unbound.head {hs : List Happening} (h : Unbound c (x :: hs)) :
    (∀ l, x ≠ .assign c l) ∧ x ≠ .deed c .close :=
  ⟨fun l hl => h.1 l (hl ▸ List.mem_cons_self ..), fun hc => h.2 (hc ▸ List.mem_cons_self ..)⟩

theorem phoneAt_after {hs : List Happening} (h : Unbound c hs) :
    (w.after hs).phoneAt c = w.phoneAt c ∧ (w.after hs).bearerAt c = w.bearerAt c := by
  induction hs generalizing w with
  | nil => exact ⟨rfl, rfl⟩
  | cons x hs ih =>
    obtain ⟨hassign, hclose⟩ := h.head
    obtain ⟨hphone, hbearer⟩ := ih h.tail (w := w.happen x)
    exact ⟨hphone.trans (phoneAt_happen hassign hclose),
      hbearer.trans (bearerAt_happen hassign hclose)⟩

theorem toneType_after {hs : List Happening} (h : ∀ t, .prefer t ∈ hs → t = w.toneType) :
    (w.after hs).toneType = w.toneType := by
  induction hs generalizing w with
  | nil => rfl
  | cons x hs ih =>
    have hx : (w.happen x).toneType = w.toneType := by
      by_cases hprefer : ∃ t, x = .prefer t
      · obtain ⟨t, rfl⟩ := hprefer
        exact h t (List.mem_cons_self ..)
      · exact toneType_happen fun t he => hprefer ⟨t, he⟩
    rw [after_cons, ih fun t ht => hx ▸ h t (List.mem_cons_of_mem _ ht), hx]

/-- **The mode stays** while the connection is bound to the same leg, if that is carried by packet
voice or the user's preference stays. -/
theorem toneModeAt_eq {hs : List Happening} (h : Unbound c hs)
    (hprefer : w.bearerAt c = .packetVoice ∨ ∀ t, .prefer t ∈ hs → t = w.toneType) :
    (w.after hs).toneModeAt c = w.toneModeAt c := by
  unfold toneModeAt
  rw [(phoneAt_after h).2]
  rcases hprefer with hpacket | hprefer
  · rw [hpacket]
    rfl
  · rw [toneType_after hprefer]

end Mode

/-! ### Moments of a run -/

section Moments

/-- Every moment of a session finds the world in order. -/
theorem orderly_story (hstart : start.Fresh) : ∀ m ∈ start.story ops, m.before.Orderly :=
  (keeps (P := fun _ => True) (fun _ _ hw hf _ _ => hw.happen hf) hstart.orderly
    (fitting_history hstart.orderly ops) (fun _ _ => trivial) hstart.orderly).2

/-- **Who asks a phone for something** is bound to it, and does what its deed permits. -/
theorem asks_story (hstart : start.Fresh) (hm : m ∈ start.story ops) (h : m.Asks c p a) :
    ∃ s d, Within m.before c s ∧ m.what = .deed c d ∧ m.before.phoneAt c = some p ∧
      s.Permits d a := asks_inv (orderly_story hstart m hm) h

end Moments

end World

end CdmaCall
