import CdmaCall.Proofs.Connection.Effects
import CdmaCall.Proofs.Session.Changes

/-!
# What the network is for good

Who placed a leg, its bearer, its address and its phone are settled when the leg is listed, and so
are the number of phones and the emergency numbers: nothing that happens changes them
(`sameNetwork_happen`). As long as a connection is bound to the same leg it has the same phone, and
is an emergency call or is not.
-/

namespace CdmaCall

/-- What is settled about a leg. -/
def Leg.fixed (l : Leg) : Bool × Bearer × String × Option PhoneId :=
  (l.incoming, l.bearer, l.address, l.phone)

namespace Scene

variable {s s' : Scene}

theorem fixed_of_bare {l l' : Option Leg} (h : l'.map Leg.bare = l.map Leg.bare) :
    l'.map Leg.fixed = l.map Leg.fixed := by
  have hfixed := congrArg (Option.map Leg.fixed) h
  rw [Option.map_map, Option.map_map] at hfixed
  exact hfixed

theorem fixed_onLineControl (s : Scene) : s.onLineControl.leg.map Leg.fixed =
    s.leg.map Leg.fixed := by
  unfold onLineControl
  rcases hl : s.leg with _ | leg
  · simp [hl]
  · dsimp only [Correction.onRecord]
    split_ifs <;> rfl

theorem fixed_act (s : Scene) (d : Deed) : (s.act d).leg.map Leg.fixed = s.leg.map Leg.fixed := by
  rcases (effect_act s d).unmoved_or with
    h | ⟨-, hopen, hs'⟩ | ⟨mailbox, -, -, hs'⟩ | ⟨-, hs'⟩ | ⟨-, hs'⟩
  · exact fixed_of_bare h.leg
  · rw [hs', close_eq s hopen]
    rfl
  · rw [hs']
    exact fixed_onLineControl (s.putMail mailbox)
  · rw [hs']
    rfl
  · rw [hs']
    rfl

/-- Whether a call is an emergency depends on the address of its leg. -/
theorem isEmergency_congr (hleg : s'.leg.map Leg.fixed = s.leg.map Leg.fixed)
    (hphone : s'.phone.isSome = s.phone.isSome) (hnumbers : s'.emergency = s.emergency) :
    s'.isEmergency = s.isEmergency := by
  have haddress : s'.leg.map (·.address) = s.leg.map (·.address) := by
    have h := congrArg (Option.map fun f : Bool × Bearer × String × Option PhoneId => f.2.2.1) hleg
    rwa [Option.map_map, Option.map_map] at h
  unfold isEmergency
  rw [hnumbers]
  rcases hl : s.leg with _ | leg <;> rcases hl' : s'.leg with _ | leg' <;>
    rcases hp : s.phone with _ | phone <;> rcases hp' : s'.phone with _ | phone' <;>
    simp_all

theorem Aside.isEmergency (h : Aside s s') : s'.isEmergency = s.isEmergency :=
  isEmergency_congr (fixed_of_bare h.leg) h.anchored.phone h.anchored.emergency

end Scene

namespace World

open Scene

variable {w w' : World} {c : ConnId} {s s' : Scene} {k k' : Conn} {x : Happening}

/-- Legs with the same addresses and phones, and the same emergency numbers. -/
structure SameNetwork (w w' : World) : Prop where
  emergency : w'.emergency = w.emergency
  legs : w'.legs.map Leg.fixed = w.legs.map Leg.fixed
  phones : w'.phones.length = w.phones.length

namespace SameNetwork

theorem leg (h : SameNetwork w w') (l : LegId) :
    w'.legs[l]?.map Leg.fixed = w.legs[l]?.map Leg.fixed := by
  rw [← List.getElem?_map, ← List.getElem?_map, h.legs]

theorem phone (h : SameNetwork w w') (p : PhoneId) : w'.phones[p]?.isSome = w.phones[p]?.isSome := by
  by_cases hp : p < w.phones.length
  · have hp' : p < w'.phones.length := h.phones ▸ hp
    simp [hp, hp']
  · have hp' : ¬p < w'.phones.length := h.phones ▸ hp
    simp [hp, hp']

/-- Who is bound to the same leg has the same phone. -/
theorem phoneAt (h : SameNetwork w w') (hleg : w'.legAt c = w.legAt c) :
    w'.phoneAt c = w.phoneAt c := by
  unfold World.phoneAt
  rw [hleg]
  rcases w.legAt c with _ | l
  · rfl
  · have hphone := congrArg
      (Option.map fun f : Bool × Bearer × String × Option PhoneId => f.2.2.2) (h.leg l)
    rw [Option.map_map, Option.map_map] at hphone
    rcases hl : w.legs[l]? with _ | leg <;> rcases hl' : w'.legs[l]? with _ | leg' <;>
      simp_all [Leg.fixed]

/-- Who is bound to the same leg makes the same kind of call. -/
theorem isEmergency (h : SameNetwork w w') (hin : Within w c s) (hin' : Within w' c s')
    (hleg : s'.conn.leg = s.conn.leg) : s'.isEmergency = s.isEmergency := by
  have hphoneAt : w'.phoneAt c = w.phoneAt c :=
    h.phoneAt (by rw [hin'.legAt, hin.legAt, hleg])
  refine isEmergency_congr ?_ ?_ ?_
  · rw [hin'.leg, hin.leg, hleg]
    rcases s.conn.leg with _ | l
    · rfl
    · exact h.leg l
  · rw [hin'.phone, hin.phone, ← hin'.phoneAt, ← hin.phoneAt, hphoneAt]
    rcases w.phoneAt c with _ | p
    · rfl
    · exact h.phone p
  · rw [hin'.emergency, hin.emergency, h.emergency]

end SameNetwork

theorem sameNetwork_onScene {f : Scene → Scene}
    (hf : ∀ s, (f s).leg.map Leg.fixed = s.leg.map Leg.fixed) (w : World) (c : ConnId) :
    SameNetwork w (w.onScene c f) := by
  rcases within_or_le w c with ⟨s, hin⟩ | hle
  · rw [onScene_of_within hin]
    refine ⟨rfl, ?_, length_place _ _ _⟩
    refine map_place_of_eq (b := s.leg) ?_ (hf s)
    rw [hin.legAt, hin.leg]
  · rw [onScene_of_none hle]
    exact ⟨rfl, rfl, rfl⟩

/-- **Nothing that happens changes the network.** -/
theorem sameNetwork_happen (w : World) (x : Happening) : SameNetwork w (w.happen x) := by
  have hhand (v : World) (d : Delivery) : SameNetwork v (v.hand d) :=
    sameNetwork_onScene (fun s => fixed_act s (.post d.event)) v d.target
  cases x with
  | deed c d => exact sameNetwork_onScene (fun s => fixed_act s d) w c
  | report l state =>
    exact ⟨rfl, map_modify_of_eq (fun leg : Leg => leg.setState w.clock.now state) Leg.fixed
      (fun _ => rfl) w.legs l, rfl⟩
  | refuse l yes =>
    exact ⟨rfl, map_modify_of_eq (fun leg : Leg => { leg with refusesHangup := yes }) Leg.fixed
      (fun _ => rfl) w.legs l, rfl⟩
  | release l =>
    rw [happen, hangUpLeg]
    rcases hl : w.legs[l]? with _ | leg
    · exact ⟨rfl, rfl, rfl⟩
    · have hfixed : leg.hangUp.2.fixed = leg.fixed := by
        unfold Leg.hangUp
        dsimp only
        split_ifs <;> rfl
      exact ⟨rfl, map_place_of_eq (i := some l) (a := some leg.hangUp.2) hl.symm
        (congrArg some hfixed), rfl⟩
  | hold p active => exact ⟨rfl, rfl, List.length_modify ..⟩
  | confirm p =>
    rw [happen]
    rcases w.phones[p]?.bind (·.releaseBurst) with _ | taken
    · exact ⟨rfl, rfl, rfl⟩
    · obtain ⟨he, hl, hp⟩ := hhand { w with phones := w.phones.set p taken.2 }
        ⟨taken.1, .burstConfirmed⟩
      exact ⟨he, hl, hp.trans (List.length_set ..)⟩
  | expire limit =>
    rw [happen]
    rcases w.clock.next? limit with _ | next
    · exact ⟨rfl, rfl, rfl⟩
    · obtain ⟨he, hl, hp⟩ := hhand { w with clock := next.2 } next.1
      exact ⟨he, hl, hp⟩
  | _ => exact ⟨rfl, rfl, rfl⟩

/-- Only binding and closing change the leg of a connection. -/
theorem Change.leg_eq (h : Change w c x k k') (hassign : ∀ l, x ≠ .assign c l)
    (hclose : x ≠ .deed c .close) : k'.leg = k.leg := by
  cases h with
  | none h => rw [h]
  | deed s d _ hk hx h =>
    rw [h, ← hk]
    exact (anchored_act s fun hd => hclose (hd ▸ hx)).bound
  | mail e h => rw [h]
  | leg l hx h => exact absurd hx (hassign l)

theorem legAt_happen (hassign : ∀ l, x ≠ .assign c l) (hclose : x ≠ .deed c .close) :
    (w.happen x).legAt c = w.legAt c := by
  unfold World.legAt
  rcases hk : w.conns[c]? with _ | k
  · rcases hk' : (w.happen x).conns[c]? with _ | k'
    · rfl
    · obtain ⟨o, rfl⟩ := fresh_happen hk hk'
      rfl
  · obtain ⟨k', hk', hchange⟩ := change_happen hk x
    rw [hk']
    exact hchange.leg_eq hassign hclose

theorem phoneAt_happen (hassign : ∀ l, x ≠ .assign c l) (hclose : x ≠ .deed c .close) :
    (w.happen x).phoneAt c = w.phoneAt c :=
  (sameNetwork_happen w x).phoneAt (legAt_happen hassign hclose)

end World

end CdmaCall
