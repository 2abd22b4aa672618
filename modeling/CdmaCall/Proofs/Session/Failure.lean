import CdmaCall.Proofs.Lifecycle.Ending
import CdmaCall.Proofs.Line.Registry
import CdmaCall.Proofs.Waiting.Start

/-!
# Connections that cannot be made

To make a connection fails only if its leg waits, a deadline must be set, and no timer can be
started. By then the connection was registered at the phone of the leg and has told the cue player
that it rings. It is given up, and nothing waits on the clock, but its subscription is left behind
(`failed_connect_subscribes`), unlike that of a connection that is closed or bound to another leg.
-/

namespace CdmaCall

section Defs

/-- What becomes of connection `c` if it is given up because its deadline could not be set. -/
def Conn.givenUp (c : ConnId) (l : LegId) (o : Options) : Conn :=
  { Conn.fresh o with
    leg := some l
    phase := .ringing
    waiting := true
    guard := { timeout := o.timeout, generation := 1 }
    mailbox := ({} : Mailbox).dropReceiver
    notices := [⟨c, .entered .ringing⟩] }

end Defs

theorem map_modifyAt {α β : Type} {f : α → α} {g : α → β} {h : β → β} (xs : List α)
    (i : Option ℕ) (hfg : ∀ x ∈ xs, g (f x) = h (g x)) :
    (modifyAt xs i f).map g = modifyAt (xs.map g) i h := by
  cases i with
  | none => rfl
  | some i =>
    refine List.ext_getElem? fun j => ?_
    simp only [modifyAt, List.getElem?_map, List.getElem?_modify]
    cases hj : xs[j]? with
    | none => rfl
    | some x =>
      have hx := hfg x (List.mem_of_getElem? hj)
      by_cases hij : i = j <;> simp [hij, hx]

namespace Scene

variable {s : Scene} {leg : Leg} {l : LegId} {o : Options}

/-- What a new connection makes of a leg that waits. -/
theorem update_new (hconn : s.conn = { Conn.fresh o with leg := some l }) (hleg : s.leg = some leg)
    (hwaits : leg.state = .waiting) : s.update = { s with
      player := s.player.map CuePlayer.stop
      conn := { s.conn with
        phase := .ringing
        waiting := true
        notices := [⟨s.id, .entered .ringing⟩] } } := by
  have hlive : s.conn.isLive = true := by rw [hconn]; rfl
  have hupdate : s.update = (s.mark true).enter .ringing := by
    unfold update setPhase
    rw [if_pos hlive, hleg]
    simp [hwaits, phaseOf, mark, hconn, Conn.fresh]
  rw [hupdate, enter_eq (s.mark true) .ringing hlive, cue_player]
  simp [mark, legWaits, hleg, hwaits, hconn, Conn.fresh, Phase.isTerminal]

theorem update_leg (s : Scene) : s.update.leg = s.leg := by
  unfold update
  split_ifs
  · cases hleg : s.leg with
    | none => exact hleg
    | some leg =>
      dsimp only
      split_ifs
      · exact (disconnect_leg _ _).trans hleg
      · split
        · exact hleg
        · exact (setPhase_leg _ _).trans hleg
  · rfl

/-- What is made of a new connection on a leg that waits until its deadline is set. -/
theorem register_new (hconn : s.conn = { Conn.fresh o with leg := some l })
    (hleg : s.leg = some leg) (hwaits : leg.state = .waiting) :
    s.register.update.mark s.register.update.legWaits = { s with
      phone := s.phone.map (·.register s.id)
      player := s.player.map CuePlayer.stop
      conn := { Conn.fresh o with
        leg := some l
        phase := .ringing
        waiting := true
        notices := [⟨s.id, .entered .ringing⟩] } } := by
  have hlegWaits : s.register.update.legWaits = true := by
    rw [legWaits, update_leg]
    simp [register, hleg, hwaits]
  rw [hlegWaits, update_new (s := s.register) hconn hleg hwaits]
  simp [mark, register, hconn]

/-- What is left of it if no timer can be started. -/
theorem arm_new {u : Scene} (hu : u.conn.guard = { timeout := o.timeout })
    (hrunning : u.clock.running = false) :
    u.arm.2.putMail u.arm.2.conn.mailbox.dropReceiver = { u with
      conn := { u.conn with
        guard := { timeout := o.timeout, generation := 1 }
        mailbox := u.conn.mailbox.dropReceiver } } := by
  have hstopped : ¬u.clock.running = true := by simp [hrunning]
  have hdisarm : u.disarm = u := by
    unfold disarm Guard.disarm
    rw [hu]
    show u.putGuard { timeout := o.timeout } = u
    rw [← hu]
    rfl
  rw [arm_eq, if_neg hstopped, hdisarm]
  simp [putGuard, putMail, hu]

end Scene

namespace World

open Scene

variable {w : World} {c : ConnId} {s : Scene} {l : LegId} {leg : Leg} {o : Options} {e : Error}

/-! ### When it fails -/

/-- Only a deadline that has to be set can fail. -/
theorem connect_error {leg : Option LegId} (hin : Within (w.build leg o).2 w.conns.length s)
    (hfailed : (w.connect leg o).1 = .error e) :
    (s.conn.waiting = true ∧ s.isPacketVoice = false) ∧ s.clock.running = false ∧
      e = Guard.noTimers ∧ (w.connect leg o).2 =
        ((w.build leg o).2.putScene w.conns.length s.arm.2).onScene w.conns.length
          fun s => s.putMail s.conn.mailbox.dropReceiver := by
  have hbuild : w.build leg o = (w.conns.length, (w.build leg o).2) := rfl
  set v := (w.build leg o).2
  unfold connect inScene at hfailed ⊢
  rw [hbuild] at hfailed ⊢
  dsimp only at hfailed ⊢
  rw [scene?_eq_some_iff.2 hin] at hfailed ⊢
  by_cases harms : (s.conn.waiting && !s.isPacketVoice) = true
  · simp only [harms, if_true] at hfailed ⊢
    by_cases hrunning : s.clock.running = true
    · have harm : s.arm.1 = .ok () := by rw [arm_eq, if_pos hrunning]
      rw [harm] at hfailed
      cases hfailed
    · have harm : s.arm.1 = .error Guard.noTimers := by rw [arm_eq, if_neg hrunning]
      rw [harm] at hfailed ⊢
      exact ⟨by simpa using harms, by simpa using hrunning, (Except.error.inj hfailed).symm, rfl⟩
  · simp only [harms] at hfailed
    cases hfailed

/-- Without a leg nothing waits. -/
theorem not_waiting_of_none {leg : Option LegId} (hleg : leg.bind (w.legs[·]?) = none) :
    ∃ s, Within (w.build leg o).2 w.conns.length s ∧ s.conn.waiting = false := by
  obtain ⟨s, hin, hconn⟩ : ∃ s, Within { w with conns := w.conns ++ [Conn.fresh o] }
      w.conns.length s ∧ s.conn = Conn.fresh o := exists_within (by simp)
  have hnone : s.leg = none := by simp [hin.leg, hconn, Conn.fresh]
  have hbuild : (w.build leg o).2 =
      ({ w with conns := w.conns ++ [Conn.fresh o] } : World).putScene w.conns.length
        (s.mark s.legWaits) := by
    rw [← onScene_of_within hin fun s => s.mark s.legWaits]
    cases leg with
    | none => rfl
    | some l =>
      have hle : ¬l < w.legs.length := by simpa using hleg
      unfold build World.bind
      dsimp only
      rw [if_neg hle]
  refine ⟨s.mark s.legWaits, hbuild ▸ hin.putScene (Anchored.of_path (path_mark _ _)), ?_⟩
  simp [mark, legWaits, hnone]

/-- The connection is given up in its scene: its phone has a subscriber more, and the player
stops. -/
theorem putScene_givenUp (hs : Within (w.founded l o) w.conns.length s) (hleg : s.leg = some leg) :
    (w.founded l o).putScene w.conns.length { s with
      phone := s.phone.map (·.register s.id)
      player := s.player.map CuePlayer.stop
      conn := Conn.givenUp s.id l o } =
    { w with
      phones := modifyAt w.phones leg.phone (·.register w.conns.length)
      player := w.player.map CuePlayer.stop
      conns := w.conns ++ [Conn.givenUp w.conns.length l o] } := by
  set c := w.conns.length with hc
  have hphones : place w.phones ((w.founded l o).phoneAt c) (s.phone.map (·.register s.id)) =
      modifyAt w.phones leg.phone (·.register c) := by
    rw [hs.bind_phones, hs.phoneAt, hleg, hs.id]
    exact place_map _ _ _
  have hlegs : place w.legs ((w.founded l o).legAt c) s.leg = w.legs := by
    rw [hs.legAt]
    exact place_self hs.leg
  have hconns : (w.founded l o).conns.set c (Conn.givenUp c l o) =
      w.conns ++ [Conn.givenUp c l o] := by
    simp [founded, hc]
  have hput : (w.founded l o).putScene c { s with
      phone := s.phone.map (·.register s.id)
      player := s.player.map CuePlayer.stop
      conn := Conn.givenUp s.id l o } =
    { w.founded l o with
      clock := s.clock
      phones := place w.phones ((w.founded l o).phoneAt c) (s.phone.map (·.register s.id))
      legs := place w.legs ((w.founded l o).legAt c) s.leg
      player := s.player.map CuePlayer.stop
      conns := (w.founded l o).conns.set c (Conn.givenUp s.id l o) } := rfl
  rw [hput, hphones, hlegs, hs.id, hconns, hs.clock, hs.player]
  rfl

/-- **What a failure leaves.** -/
theorem connect_eq_of_error {leg? : Option LegId} (hfailed : (w.connect leg? o).1 = .error e) :
    e = Guard.noTimers ∧ w.clock.running = false ∧ ∃ l leg, leg? = some l ∧
      w.legs[l]? = some leg ∧ leg.state = .waiting ∧ leg.bearer = .circuitSwitched ∧
      (w.connect leg? o).2 = { w with
        phones := modifyAt w.phones leg.phone (·.register w.conns.length)
        player := w.player.map CuePlayer.stop
        conns := w.conns ++ [Conn.givenUp w.conns.length l o] } := by
  rcases hbound : leg?.bind (w.legs[·]?) with _ | leg
  · obtain ⟨s, hin, hwaits⟩ := not_waiting_of_none (o := o) hbound
    cases hwaits.symm.trans (connect_error hin hfailed).1.1
  obtain ⟨l, rfl, hget⟩ := Option.bind_eq_some_iff.1 hbound
  obtain ⟨s, hs, hconn, hbuild⟩ := build_founded o (List.getElem?_eq_some_iff.1 hget).1
  set c := w.conns.length
  set u := s.register.update.mark s.register.update.legWaits
  have hleg : s.leg = some leg := by
    rw [hs.leg, hconn]
    exact hget
  have huleg : u.leg = some leg := (update_leg _).trans hleg
  have hregister : Path true s s.register.update := (path_register s).toFull.trans (path_update _)
  have hanchored : Anchored s u := Anchored.of_path (hregister.trans (path_mark _ _).toFull)
  have hin : Within (w.build (some l) o).2 c u := hbuild ▸ hs.putScene hanchored
  obtain ⟨⟨hwaiting, hcircuit⟩, hrunning, he, hworld⟩ := connect_error hin hfailed
  have hwaits : leg.state = .waiting := by
    have hlegWaits : u.legWaits = true := hwaiting
    simpa [legWaits, huleg] using hlegWaits
  have hbearer : leg.bearer = .circuitSwitched := by
    cases hb : leg.bearer <;> simp [isPacketVoice, bearer, huleg, hb] at hcircuit ⊢
  have hnew : u = _ := register_new hconn hleg hwaits
  have harm : Anchored u u.arm.2 := (Aside.arm u).anchored
  -- All that was done to the connection was done in its scene.
  have hscene : (w.connect (some l) o).2 = (w.founded l o).putScene c
      (u.arm.2.putMail u.arm.2.conn.mailbox.dropReceiver) := by
    rw [hworld, onScene_of_within (hin.putScene harm), hbuild,
      hs.putScene_putScene hanchored harm]
    exact hs.putScene_putScene (hanchored.trans harm) (Aside.putMail _ _).anchored
  rw [arm_new (o := o) (by rw [hnew]; rfl) hrunning] at hscene
  rw [hnew] at hscene hrunning
  refine ⟨he, hs.clock ▸ hrunning, l, leg, rfl, hget, hwaits, hbearer, ?_⟩
  rw [hscene]
  exact putScene_givenUp hs hleg

/-- **A failed connection leaves its subscription.** When a connection cannot be made, no timer
could be started, and its leg waits and is circuit switched. The clock and the legs are as before,
so nothing waits because of the attempt, and a cue player was told to stop, so it does not play. The
connection is given up and takes no event in. But if the leg has a phone, the connection is the last
of its subscribers from now on; those before it and those of every other phone are as before. -/
theorem failed_connect_subscribes {leg? : Option LegId} (hw : w.Reachable)
    (hfailed : (w.connect leg? o).1 = .error e) :
    let w' := (w.connect leg? o).2
    e = Guard.noTimers ∧ w.clock.running = false ∧
    w'.clock = w.clock ∧ w'.legs = w.legs ∧
    w'.player = w.player.map CuePlayer.stop ∧ w'.player.any (·.playing) = false ∧
    ∃ l leg k, leg? = some l ∧ w.legs[l]? = some leg ∧ leg.state = .waiting ∧
      leg.bearer = .circuitSwitched ∧ w'.conns = w.conns ++ [k] ∧ k.mailbox.accepts = false ∧
      w'.phones.map (·.subscribers) =
        modifyAt (w.phones.map (·.subscribers)) leg.phone (· ++ [w.conns.length]) := by
  intro w'
  obtain ⟨he, hrunning, l, leg, hl, hget, hwaits, hbearer, hworld⟩ := connect_eq_of_error hfailed
  have hsilent : (w.player.map CuePlayer.stop).any (·.playing) = false := by
    cases w.player <;> rfl
  rw [show w' = _ from hworld]
  refine ⟨he, hrunning, rfl, rfl, rfl, hsilent, l, leg, _, hl, hget, hwaits, hbearer, rfl, rfl,
    map_modifyAt w.phones leg.phone fun phone hphone => ?_⟩
  -- Nobody is subscribed who is not there yet.
  have hnew : w.conns.length ∉ phone.subscribers := by
    obtain ⟨p, hp⟩ := List.getElem?_of_mem hphone
    rw [hw.subscribed.subscribed p phone hp, phoneAt_of_le le_rfl]
    simp
  have hkept : phone.subscribers.filter (· != w.conns.length) = phone.subscribers :=
    List.filter_eq_self.2 fun i hi => bne_iff_ne.2 fun h => hnew (h ▸ hi)
  simp [Phone.register, Phone.record, hkept]

/-- No timer can be started, and a connection is to be made on a leg that waits. -/
theorem failed_connect_subscribes_served :
    let w : World := { served (Leg.waiting "5550100" (some 0)) with clock := { running := false } }
    let made := w.connect (some 0) { direction := .incoming }
    w.Reachable ∧ made.1 = .error Guard.noTimers ∧ made.2.clock.pending = [] ∧
      made.2.player.any (·.playing) = false ∧ made.2.phones.map (·.subscribers) = [[0]] := by
  intro w made
  have hreachable : w.Reachable :=
    ⟨w, [], ⟨rfl, rfl, by simp [w, served], by simp [w, served], by simp [w, served]⟩, rfl⟩
  have hfailed : made.1 = .error Guard.noTimers := by decide +kernel
  obtain ⟨-, -, hclock, -, -, hsilent, l, leg, k, hl, hleg, -, -, -, -, hsubscribers⟩ :=
    failed_connect_subscribes hreachable hfailed
  obtain rfl := Option.some.inj hl
  obtain rfl := Option.some.inj hleg
  have hpending : made.2.clock.pending = [] := by rw [hclock]
  exact ⟨hreachable, hfailed, hpending, hsilent, hsubscribers⟩

/-- **A failure is not nothing.** The attempt to make a connection on a leg that waits fails, and
its phone has a subscriber that it did not have before. -/
theorem failure_leaves_subscriber :
    let w : World := { served (Leg.waiting "5550100" (some 0)) with clock := { running := false } }
    let made := w.connect (some 0) { direction := .incoming }
    w.Reachable ∧ made.1 = .error Guard.noTimers ∧
      ¬(made.2.phones.map (·.subscribers) = w.phones.map (·.subscribers) ∧
        made.2.clock.pending = [] ∧ made.2.player.any (·.playing) = false) := by
  intro w made
  refine ⟨⟨w, [], ⟨rfl, rfl, by simp [w, served], by simp [w, served], by simp [w, served]⟩, rfl⟩,
    by decide +kernel, fun h => ?_⟩
  have hleft : made.2.phones.map (·.subscribers) = [[0]] := by decide +kernel
  have hbefore : w.phones.map (·.subscribers) = [[]] := rfl
  rw [hleft, hbefore] at h
  cases h.1

end World

end CdmaCall
