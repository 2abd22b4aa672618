import CdmaCall.Proofs.Dtmf.Handover
import CdmaCall.Proofs.Session.Clone

/-!
# Only keys are dialled

A character stands for one of the sixteen keys of the keypad or is refused (`Keypad.digit_cases`),
and what is refused changes nothing (`Scene.playTone_cases`). A key is sent as it is, or as the digit
that stands for it while the phone is on hold, or waits in the queue as one of them. So the queue
holds keys only and so does whatever is made of it later: `dialable_act` for one deed,
`Dialable.happen` for whatever happens, `only_keys_dialled` for every run.
-/

namespace CdmaCall

section Defs

/-- The sixteen keys. -/
def Keypad.keys : List Char :=
  ['0', '1', '2', '3', '4', '5', '6', '7', '8', '9', '*', '#', 'A', 'B', 'C', 'D']

/-- The characters that stand for a key: the four letters may be written small. -/
def Keypad.spellings : List Char := Keypad.keys ++ ['a', 'b', 'c', 'd']

/-- Whether the network can dial what a request is about: keys only, and at least one of them in a
burst. -/
def Action.Dialable : Action → Prop
  | .startTone digit => digit ∈ Keypad.keys
  | .burst digits _ _ => digits ≠ [] ∧ ∀ digit ∈ digits, digit ∈ Keypad.keys
  | _ => True

/-- Only keys wait. -/
def Scene.Keyed (s : Scene) : Prop := ∀ digit ∈ s.conn.tones.queue, digit ∈ Keypad.keys

/-- Phones were asked for keys only, and only keys wait. -/
structure World.Dialable (w : World) : Prop where
  asked : ∀ phone ∈ w.phones, ∀ a ∈ phone.actions, a.Dialable
  waiting : ∀ c, ∀ digit ∈ w.queueOf c, digit ∈ Keypad.keys

end Defs

namespace Keypad

variable {c : Char}

theorem toNat_toUpper (c : Char) :
    c.toUpper.toNat = if 97 ≤ c.toNat ∧ c.toNat ≤ 122 then c.toNat - 32 else c.toNat := by
  have hbounds : ('a'.val ≤ c.val ∧ c.val ≤ 'z'.val) ↔ 97 ≤ c.toNat ∧ c.toNat ≤ 122 := Iff.rfl
  unfold Char.toUpper
  simp only [hbounds]
  split_ifs with h
  · have hval : (c.val + ('A'.val - 'a'.val)).toNat = (c.toNat + (2 ^ 32 - 32)) % 2 ^ 32 :=
      UInt32.toNat_add ..
    show (c.val + ('A'.val - 'a'.val)).toNat = _
    omega
  · rfl

theorem mem_iff_toNat {cs : List Char} : c ∈ cs ↔ c.toNat ∈ cs.map Char.toNat := by
  constructor
  · exact fun h => List.mem_map_of_mem h
  · intro h
    obtain ⟨d, hd, he⟩ := List.mem_map.1 h
    rwa [← Char.toNat_inj.1 he]

theorem isDigit_iff : isDigit c = true ↔ c ∈ keys := by
  have hkeys : keys.map Char.toNat =
      [48, 49, 50, 51, 52, 53, 54, 55, 56, 57, 42, 35, 65, 66, 67, 68] := rfl
  have hranges : isDigit c = true ↔ ((48 ≤ c.toNat ∧ c.toNat ≤ 57 ∨ c.toNat = 42) ∨
      c.toNat = 35) ∨ 65 ≤ c.toNat ∧ c.toNat ≤ 68 := by
    simp only [isDigit, Char.isDigit, Bool.or_eq_true, Bool.and_eq_true, decide_eq_true_eq,
      beq_iff_eq, ← Char.toNat_inj]
    exact Iff.rfl
  rw [hranges, mem_iff_toNat, hkeys]
  simp only [List.mem_cons, List.not_mem_nil, or_false]
  omega

theorem isDigit_toUpper_iff : isDigit c.toUpper = true ↔ c ∈ spellings := by
  have hkeys : keys.map Char.toNat =
      [48, 49, 50, 51, 52, 53, 54, 55, 56, 57, 42, 35, 65, 66, 67, 68] := rfl
  have hspellings : spellings.map Char.toNat = keys.map Char.toNat ++ [97, 98, 99, 100] := rfl
  rw [isDigit_iff, mem_iff_toNat, mem_iff_toNat, hspellings, hkeys, toNat_toUpper]
  simp only [List.mem_cons, List.not_mem_nil, or_false, List.mem_append]
  split_ifs <;> omega

theorem digit_cases (c : Char) :
    c ∈ spellings ∧ (∃ digit ∈ keys, Keypad.digit c = .ok digit) ∨
      c ∉ spellings ∧ Keypad.digit c = .error .invalidDigit := by
  by_cases h : isDigit c.toUpper = true
  · exact .inl ⟨isDigit_toUpper_iff.1 h, c.toUpper, isDigit_iff.1 h, if_pos h⟩
  · exact .inr ⟨mt isDigit_toUpper_iff.2 h, if_neg h⟩

end Keypad

namespace Scene

variable {s s' : Scene} {d : Deed} {c : Char}

theorem dialable_of_permits {a : Action} (hs : s.Keyed) (hd : d.plays = false)
    (h : s.Permits d a) : a.Dialable := by
  cases h with
  | start _ hplays => simp [hd] at hplays
  | stop => trivial
  | burst _ _ _ hplays => simp [hd] at hplays
  | flush _ _ _ hqueue => exact ⟨hqueue, hs⟩
  | plain ha => cases a <;> trivial

/-- A key that is played is sent as it is or as the hold digit, or waits as one of them. -/
theorem dialable_play (t : Transmitter) (mode : ToneMode) (holding : Bool) {digit : Char}
    (ht : ∀ digit ∈ t.queue, digit ∈ Keypad.keys) (hdigit : digit ∈ Keypad.keys) :
    (∀ a ∈ (t.play mode holding digit).2.2, a.Dialable) ∧
      ∀ digit' ∈ (t.play mode holding digit).2.1.queue, digit' ∈ Keypad.keys := by
  have hsent : (if holding then Keypad.holdDigit else digit) ∈ Keypad.keys := by
    split_ifs
    · decide
    · exact hdigit
  cases mode with
  | continuous => exact ⟨by simpa [Transmitter.play, Action.Dialable] using hdigit, ht⟩
  | burst =>
    by_cases hpending : t.pending = true
    · simp only [Transmitter.play, hpending, if_true]
      refine ⟨by simp, fun digit' h => ?_⟩
      rcases List.mem_append.1 h with h | h
      · exact ht digit' h
      · exact List.mem_singleton.1 h ▸ hsent
    · simp only [Transmitter.play, hpending, Bool.false_eq_true, if_false]
      exact ⟨by simpa [Transmitter.burstOf, Action.Dialable] using hsent, ht⟩

theorem dialable_playTone (hs : s.Keyed) (c : Char) :
    AsksOnly Action.Dialable s (s.playTone c).2 ∧ (s.playTone c).2.Keyed := by
  unfold playTone
  split_ifs
  · exact ⟨.refl s, hs⟩
  · rcases Keypad.digit_cases c with ⟨-, digit, hdigit, h⟩ | ⟨-, h⟩ <;> rw [h] <;> dsimp only
    · cases hp : s.phone with
      | none => exact ⟨.refl s, hs⟩
      | some phone =>
        obtain ⟨hasks, hqueue⟩ := dialable_play s.conn.tones s.toneMode phone.holding hs hdigit
        have htones (t : Transmitter) : AsksOnly Action.Dialable s (s.putTones t) :=
          .of_phone rfl rfl rfl
        refine ⟨(htones _).trans (asksOnly_perform? _ hasks), fun digit' hmem => hqueue digit' ?_⟩
        rwa [conn_perform?] at hmem
    · exact ⟨.refl s, hs⟩

theorem keyed_of_tones (hs : s.Keyed) (h : s'.conn.tones = s.conn.tones) : s'.Keyed := by
  rw [Keyed, h]
  exact hs

theorem dialable_pressKeys (cs : List Char) (hs : s.Keyed) :
    AsksOnly Action.Dialable s (s.pressKeys cs).2 ∧ (s.pressKeys cs).2.Keyed := by
  induction cs generalizing s with
  | nil => exact ⟨.refl s, hs⟩
  | cons c cs ih =>
    obtain ⟨hplay, hkeyed⟩ := dialable_playTone hs c
    rw [pressKeys]
    cases hp : s.playTone c with
    | mk r s' =>
      rw [hp] at hplay hkeyed
      cases r with
      | error e => exact ⟨hplay, hkeyed⟩
      | ok _ =>
        have hstop : AsksOnly Action.Dialable s' s'.stopTone :=
          (asks_stopTone s' (d := .stop) rfl).mono fun _ => dialable_of_permits hkeyed rfl
        obtain ⟨hrest, hafter⟩ := ih (keyed_of_tones hkeyed (tones_path (path_stopTone s')))
        exact ⟨(hplay.trans hstop).trans hrest, hafter⟩

/-- **No deed asks for anything but keys.** -/
theorem dialable_act (hs : s.Keyed) (ht : s.Timed) (d : Deed) :
    AsksOnly Action.Dialable s (s.act d) ∧ (s.act d).Keyed := by
  by_cases hplays : d.plays = true
  · cases d with
    | play digit => exact dialable_playTone hs digit
    | keys digits => exact dialable_pressKeys digits hs
    | _ => cases hplays
  · have hsilent : d.plays = false := by simpa using hplays
    refine ⟨(asks_act ht d).mono fun _ => dialable_of_permits hs hsilent, ?_⟩
    rcases queue_act s d with hsame | hempty | ⟨hplays', -⟩
    · rw [Keyed, hsame]
      exact hs
    · rw [Keyed, hempty]
      simp
    · exact absurd hplays' hplays

/-- **A digit is refused** if the connection is open and the character stands for no key, and
nothing else comes of it. Any other digit is accepted. -/
theorem playTone_cases (s : Scene) (c : Char) :
    (s.conn.closed = false ∧ c ∉ Keypad.spellings) ∧ s.playTone c = (.error .invalidDigit, s) ∨
      ¬(s.conn.closed = false ∧ c ∉ Keypad.spellings) ∧ (s.playTone c).1 = .ok () := by
  unfold playTone
  split_ifs with hclosed
  · exact .inr ⟨by simp [hclosed], rfl⟩
  · rcases Keypad.digit_cases c with ⟨hc, digit, -, h⟩ | ⟨hc, h⟩ <;> rw [h] <;> dsimp only
    · refine .inr ⟨fun hrefused => hrefused.2 hc, ?_⟩
      cases s.phone <;> rfl
    · exact .inl ⟨⟨by simpa using hclosed, hc⟩, rfl⟩

end Scene

namespace World

open Scene

variable {w start : World} {c : ConnId} {s : Scene} {x : Happening} {k : Conn}

theorem Within.keyed (h : Within w c s) (hw : w.Dialable) : s.Keyed := by
  have hwaiting := hw.waiting c
  rwa [h.queueOf] at hwaiting

/-- A deed of one connection. -/
theorem Dialable.deed (hw : w.Dialable) (ho : w.Orderly) (c : ConnId) (d : Deed) :
    (w.happen (.deed c d)).Dialable := by
  rcases within_or_le w c with ⟨s, h⟩ | h
  · obtain ⟨⟨as, has, hall⟩, hkeyed⟩ := dialable_act (h.keyed hw) (ho.timed h) d
    refine ⟨fun phone hphone a ha => ?_, fun i => ?_⟩
    · rw [h.happen_deed] at hphone
      rcases mem_place hphone with hold | hnew
      · exact hw.asked phone hold a ha
      · have hactions := has.actions
        rw [hnew, Option.map_some, eq_comm, Option.map_eq_some_iff] at hactions
        obtain ⟨before, hbefore, heq⟩ := hactions
        rw [h.phone, Option.bind_eq_some_iff] at hbefore
        obtain ⟨p, -, hget⟩ := hbefore
        rw [← heq, List.mem_append] at ha
        rcases ha with ha | ha
        · exact hw.asked before (List.mem_of_getElem? hget) a ha
        · exact hall a ha
    · by_cases hi : i = c
      · subst hi
        rw [World.queueOf, h.conn_deed]
        exact hkeyed
      · have hother : ∀ d', Happening.deed c d ≠ .deed i d' :=
          fun d' he => hi (Happening.deed.inj he).1.symm
        rw [queueOf_happen hother]
        exact hw.waiting i
  · rw [happen, onScene_of_none h]
    exact hw

theorem Dialable.happen (hw : w.Dialable) (ho : w.Orderly) (x : Happening) :
    (w.happen x).Dialable := by
  by_cases hx : ∃ c d, x = .deed c d
  · obtain ⟨c, d, rfl⟩ := hx
    exact hw.deed ho c d
  · have hdeed : ∀ c d, x ≠ .deed c d := fun c d he => hx ⟨c, d, he⟩
    refine ⟨fun phone hphone a ha => ?_, fun c => ?_⟩
    · have hrecord : phone.actions ∈ w.phones.map (·.actions) := by
        rw [← actions_happen hdeed]
        exact List.mem_map_of_mem hphone
      obtain ⟨before, hbefore, hsame⟩ := List.mem_map.1 hrecord
      exact hw.asked before hbefore a (hsame ▸ ha)
    · rw [queueOf_happen (hdeed c)]
      exact hw.waiting c

theorem Fresh.dialable (h : start.Fresh) : start.Dialable where
  asked phone hphone a ha := by simp [h.actions phone hphone] at ha
  waiting c digit hdigit := by simp [World.queueOf, h.conns] at hdigit

/-- At every moment of a session phones were asked for keys only, and only keys wait. -/
theorem dialable_during (hstart : start.Fresh) (ops : List Op) (n : ℕ) :
    (start.during ops n).Dialable := by
  have hfits := fitting_history hstart.orderly ops
  rw [← List.take_append_drop n (start.history ops), fitting_append] at hfits
  exact (keeps (P := fun _ => True) (fun _ x ho _ _ hw => Dialable.happen hw ho x)
    hstart.orderly hfits.1 (fun _ _ => trivial) hstart.dialable).1

/-- A request to play a digit is refused and changes nothing, or is done. -/
theorem step_play (hw : w.Reachable) (hk : w.conns[c]? = some k) (digit : Char) :
    (k.closed = false ∧ digit ∉ Keypad.spellings) ∧
        w.step (.play c digit) = (.refused .invalidDigit, w) ∨
      ¬(k.closed = false ∧ digit ∉ Keypad.spellings) ∧ (w.step (.play c digit)).1 = .done := by
  obtain ⟨s, h, rfl⟩ := exists_within hk
  have hscene := scene?_eq_some_iff.2 h
  have hperform : w.perform (.play c digit) =
      (.ofResult (s.playTone digit).1, w.putScene c (s.playTone digit).2) := by
    rw [perform, inScene, hscene]
  rcases playTone_cases s digit with ⟨hbad, hplay⟩ | ⟨hgood, hplay⟩
  · refine .inl ⟨hbad, ?_⟩
    rw [step, hperform, hplay, h.putScene_self]
    exact congrArg (Prod.mk _) (settle_of_due hw.due)
  · refine .inr ⟨hgood, ?_⟩
    show (w.perform (.play c digit)).1 = .done
    rw [hperform, hplay]
    rfl

/-- **Only keys are dialled, and a digit that is refused changes nothing.** -/
theorem only_keys_dialled (hstart : start.Fresh) (ops : List Op) :
    (∀ n, (start.during ops n).Dialable) ∧
    ∀ c k digit, let w := (start.run ops).2
      w.conns[c]? = some k →
        (∀ e, (w.step (.play c digit)).1 = .refused e ↔
          e = .invalidDigit ∧ k.closed = false ∧ digit ∉ Keypad.spellings) ∧
        ∀ e, (w.step (.play c digit)).1 = .refused e → (w.step (.play c digit)).2 = w := by
  refine ⟨dialable_during hstart ops, fun c k digit => ?_⟩
  intro w hk
  rcases step_play ⟨start, ops, hstart, rfl⟩ hk digit with ⟨hbad, hstep⟩ | ⟨hgood, hdone⟩
  · have hstep' : w.step (.play c digit) = (.refused .invalidDigit, w) := hstep
    rw [hstep']
    refine ⟨fun e => ⟨fun h => ?_, fun h => ?_⟩, fun _ _ => rfl⟩
    · exact ⟨(Reply.refused.inj h).symm, hbad⟩
    · rw [h.1]
  · have hdone' : (w.step (.play c digit)).1 = .done := hdone
    rw [hdone']
    refine ⟨fun e => ⟨fun h => ?_, fun h => absurd h.2 hgood⟩, fun e h => ?_⟩ <;> cases h

/-- A small letter is sent as a key, another character is refused. -/
theorem only_keys_dialled_served :
    let start := served (Leg.outgoing "5550100" (some 0))
    let w := (start.run [.connect (some 0) {}, .play 0 'd', .play 0 '#']).2
    start.Fresh ∧ w.Dialable ∧ w.phones.map (·.actions) = [[.register 0, .burst ['D'] 0 0]] ∧
      w.queueOf 0 = ['#'] ∧ (w.step (.play 0 'E')).1 = .refused .invalidDigit ∧
      (w.step (.play 0 'E')).2 = w := by
  intro start w
  have hfresh : start.Fresh := fresh_served _
  obtain ⟨hdialable, hplay⟩ :=
    only_keys_dialled hfresh [.connect (some 0) {}, .play 0 'd', .play 0 '#']
  have hend : w = start.during [.connect (some 0) {}, .play 0 'd', .play 0 '#']
      (start.history [.connect (some 0) {}, .play 0 'd', .play 0 '#']).length :=
    (during_length _ _).symm
  have hconn : ∃ k, w.conns[0]? = some k ∧ k.closed = false := by decide +kernel
  obtain ⟨k, hk, hopen⟩ := hconn
  obtain ⟨hrefused, hsame⟩ := hplay 0 k 'E' hk
  have hE := (hrefused .invalidDigit).2 ⟨rfl, hopen, by decide⟩
  exact ⟨hfresh, hend ▸ hdialable _, by decide +kernel, by decide +kernel, hE, hsame _ hE⟩

end World

end CdmaCall
