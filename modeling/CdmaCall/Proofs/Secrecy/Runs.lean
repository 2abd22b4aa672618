import CdmaCall.Proofs.Secrecy.Redaction
import CdmaCall.Proofs.Session.History

/-!
# Redacted runs

The run of a redacted script in a redacted world is the redacted run: the same happens but for the
digits (`history_redact`), moment by moment (`during_redact`), and every request returns the same
(`run_redact`).
-/

namespace CdmaCall

open Keypad

/-- See `Keypad.hide`. -/
@[simps] def World.redact (w : World) : World :=
  { w with phones := w.phones.map Phone.redact, conns := w.conns.map Conn.redact }

/-- See `Deed.redact`. -/
def Happening.redact : Happening → Happening
  | .deed c d => .deed c d.redact
  | h => h

/-- See `Keypad.mask`. -/
def Op.redact : Op → Op
  | .play c digit => .play c (mask digit)
  | .keys c digits => .keys c (digits.map mask)
  | op => op

namespace World

variable (w : World)

/-! ### Scenes -/

theorem conn_redact (c : ConnId) : w.redact.conns[c]? = w.conns[c]?.map Conn.redact :=
  List.getElem?_map ..

theorem legAt_redact (c : ConnId) : w.redact.legAt c = w.legAt c := by
  unfold legAt
  rw [conn_redact]
  cases w.conns[c]? <;> rfl

theorem phoneAt_redact (c : ConnId) : w.redact.phoneAt c = w.phoneAt c := by
  unfold phoneAt
  rw [legAt_redact]
  rfl

theorem scene?_redact (c : ConnId) : w.redact.scene? c = (w.scene? c).map Scene.redact := by
  have hphone : (w.phoneAt c).bind (w.redact.phones[·]?) =
      ((w.phoneAt c).bind (w.phones[·]?)).map Phone.redact := by
    cases w.phoneAt c with
    | none => rfl
    | some p => exact List.getElem?_map ..
  unfold scene?
  rw [conn_redact, legAt_redact, phoneAt_redact, hphone]
  cases w.conns[c]? <;> rfl

theorem map_modify {α β : Type} {f : α → α} {g : β → β} {r : α → β} (h : ∀ x, g (r x) = r (f x))
    (xs : List α) (i : ℕ) : (xs.map r).modify i g = (xs.modify i f).map r := by
  apply List.ext_getElem?
  intro j
  rw [List.getElem?_modify, List.getElem?_map, List.getElem?_map, List.getElem?_modify]
  by_cases hij : i = j
  · cases xs[j]? with
    | none => rfl
    | some x => simp [hij, h]
  · cases xs[j]? <;> simp [hij]

theorem putScene_redact (c : ConnId) (s : Scene) :
    w.redact.putScene c s.redact = (w.putScene c s).redact := by
  unfold putScene
  rw [phoneAt_redact, legAt_redact]
  simp [redact, map_place, List.map_set]

theorem inScene_redact {α : Type} (c : ConnId) (a : α) {f g : Scene → α × Scene}
    (h : ∀ s : Scene, g s.redact = ((f s).1, (f s).2.redact)) :
    w.redact.inScene c a g = ((w.inScene c a f).1, (w.inScene c a f).2.redact) := by
  unfold inScene
  rw [scene?_redact]
  cases w.scene? c with
  | none => rfl
  | some s =>
    dsimp only [Option.map_some]
    rw [h, putScene_redact]

theorem onScene_redact (c : ConnId) {f g : Scene → Scene}
    (h : ∀ s : Scene, g s.redact = (f s).redact) :
    w.redact.onScene c g = (w.onScene c f).redact := by
  unfold onScene
  rw [scene?_redact]
  cases w.scene? c with
  | none => rfl
  | some s =>
    dsimp only [Option.map_some]
    rw [h, putScene_redact]

/-! ### Happenings -/

theorem deliver_redact (d : Delivery) :
    w.redact.deliver d = ((w.deliver d).1, (w.deliver d).2.redact) :=
  w.inScene_redact d.target false fun s => s.receive_redact d.event

theorem hand_redact (d : Delivery) : w.redact.hand d = (w.hand d).redact :=
  w.onScene_redact d.target fun s => s.act_redact (.post d.event)

theorem releaseBurst_redact (p : PhoneId) : w.redact.phones[p]?.bind (·.releaseBurst) =
    (w.phones[p]?.bind (·.releaseBurst)).map fun taken => (taken.1, taken.2.redact) := by
  have hphone : w.redact.phones[p]? = w.phones[p]?.map Phone.redact := List.getElem?_map ..
  rw [hphone]
  cases w.phones[p]? with
  | none => rfl
  | some phone => exact phone.releaseBurst_redact

theorem subscribers_redact (p : PhoneId) : w.redact.phones[p]?.map (·.subscribers) =
    w.phones[p]?.map (·.subscribers) := by
  rw [redact_phones, List.getElem?_map, Option.map_map]
  rfl

theorem set_phone_redact (p : PhoneId) (phone : Phone) :
    ({ w.redact with phones := w.redact.phones.set p phone.redact } : World) =
      ({ w with phones := w.phones.set p phone } : World).redact := by
  simp [redact, List.map_set]

/-- **A redacted happening** of a redacted world is the redacted happening. -/
theorem happen_redact (h : Happening) : w.redact.happen h.redact = (w.happen h).redact := by
  cases h with
  | deed c d => exact w.onScene_redact c fun s => s.act_redact d
  | enlist o => simp [happen, redact, Happening.redact, Conn.redact, Conn.fresh, Transmitter.redact]
  | assign c l =>
    have hconns : (w.conns.map Conn.redact).modify c (fun k => { k with leg := some l }) =
        (w.conns.modify c fun k => { k with leg := some l }).map Conn.redact := by
      apply map_modify
      intro k
      rfl
    exact congrArg (fun conns => ({ w.redact with conns } : World)) hconns
  | release l =>
    show (w.redact.hangUpLeg l).2 = (w.hangUpLeg l).2.redact
    unfold hangUpLeg
    rw [redact_legs]
    cases w.legs[l]? <;> rfl
  | hold p active =>
    have hphones : (w.phones.map Phone.redact).modify p (fun q => { q with holding := active }) =
        (w.phones.modify p fun q => { q with holding := active }).map Phone.redact := by
      apply map_modify
      intro q
      rfl
    exact congrArg (fun phones => ({ w.redact with phones } : World)) hphones
  | confirm p =>
    show w.redact.happen (.confirm p) = _
    rw [happen, releaseBurst_redact, happen]
    cases w.phones[p]?.bind (·.releaseBurst) with
    | none => rfl
    | some taken =>
      dsimp only [Option.map_some]
      rw [set_phone_redact, hand_redact]
  | expire limit =>
    show w.redact.happen (.expire limit) = _
    rw [happen, redact_clock, happen]
    cases w.clock.next? limit with
    | none => rfl
    | some due => exact hand_redact ({ w with clock := due.2 } : World) due.1
  | _ => rfl

theorem after_redact (hs : List Happening) (w : World) :
    w.redact.after (hs.map Happening.redact) = (w.after hs).redact := by
  induction hs generalizing w with
  | nil => rfl
  | cons h hs ih => rw [List.map_cons, after_cons, happen_redact, ih, after_cons]

/-! ### Courses -/

theorem map_fetches (c : ConnId) (n : ℕ) :
    (List.replicate n (Happening.deed c .fetch)).map Happening.redact =
      List.replicate n (.deed c .fetch) := List.map_replicate ..

theorem ready_redact (c : ConnId) : w.redact.ready c = (w.ready c).map Happening.redact := by
  unfold ready
  rw [conn_redact]
  cases w.conns[c]? with
  | none => rfl
  | some k =>
    dsimp only [Option.map_some]
    rw [Conn.redact_driven, Conn.redact_mailbox, apply_ite (List.map Happening.redact),
      map_fetches]
    rfl

theorem bindCourse_redact (c : ConnId) (l : LegId) :
    w.redact.bindCourse c l = (w.bindCourse c l).map Happening.redact := by
  unfold bindCourse
  rw [redact_legs]
  split_ifs <;> rfl

theorem buildCourse_redact (leg : Option LegId) (o : Options) :
    w.redact.buildCourse leg o = (w.buildCourse leg o).map Happening.redact := by
  have hlength : w.redact.conns.length = w.conns.length := List.length_map ..
  unfold buildCourse
  rw [hlength]
  cases leg with
  | none => rfl
  | some l =>
    have henlist := w.happen_redact (.enlist o)
    simp only [Happening.redact] at henlist
    dsimp only
    rw [henlist, bindCourse_redact]
    simp [Happening.redact, Deed.redact]

theorem armCourse_redact (c : ConnId) :
    w.redact.armCourse c = (w.armCourse c).map Happening.redact := by
  unfold armCourse
  rw [scene?_redact]
  cases w.scene? c with
  | none => rfl
  | some s =>
    dsimp only [Option.map_some]
    have hwaits : (s.redact.conn.waiting && !s.redact.isPacketVoice) =
        (s.conn.waiting && !s.isPacketVoice) := rfl
    rw [hwaits, redact_clock]
    split_ifs <;> rfl

theorem build_redact (leg : Option LegId) (o : Options) :
    w.redact.build leg o = ((w.build leg o).1, (w.build leg o).2.redact) := by
  have hlength : w.redact.conns.length = w.conns.length := List.length_map ..
  rw [build_eq, build_eq, hlength, buildCourse_redact, after_redact]

theorem connectCourse_redact (leg : Option LegId) (o : Options) :
    w.redact.connectCourse leg o = (w.connectCourse leg o).map Happening.redact := by
  have hlength : w.redact.conns.length = w.conns.length := List.length_map ..
  unfold connectCourse
  rw [buildCourse_redact, build_redact, hlength, armCourse_redact, List.map_append]

theorem confirmCourse_redact (p : PhoneId) :
    w.redact.confirmCourse p = (w.confirmCourse p).map Happening.redact := by
  have hhappen : w.redact.happen (.confirm p) = (w.happen (.confirm p)).redact :=
    w.happen_redact (.confirm p)
  unfold confirmCourse
  rw [releaseBurst_redact, hhappen]
  cases w.phones[p]?.bind (·.releaseBurst) with
  | none => rfl
  | some taken =>
    dsimp only [Option.map_some]
    rw [ready_redact]
    rfl

theorem broadcastCourse_redact (cs : List ConnId) (w : World) :
    w.redact.broadcastCourse cs = (w.broadcastCourse cs).map Happening.redact := by
  induction cs generalizing w with
  | nil => rfl
  | cons c rest ih =>
    rw [broadcastCourse, broadcastCourse, hand_redact, ready_redact, deliver_redact, ih]
    simp [Happening.redact, Deed.redact]

theorem drainCourse_redact (c : ConnId) :
    w.redact.drainCourse c = (w.drainCourse c).map Happening.redact := by
  unfold drainCourse
  rw [conn_redact]
  cases w.conns[c]? with
  | none => rfl
  | some k => exact (map_fetches c _).symm

theorem driveCourse_redact (c : ConnId) :
    w.redact.driveCourse c = (w.driveCourse c).map Happening.redact := by
  unfold driveCourse
  rw [conn_redact]
  cases w.conns[c]? with
  | none => rfl
  | some k =>
    dsimp only [Option.map_some]
    rw [Conn.redact_driven, Conn.redact_mailbox]
    split_ifs
    · rfl
    · rfl
    · rw [List.map_cons, map_fetches]
      rfl

theorem workload_redact : w.redact.workload = w.workload := by
  unfold workload
  rw [redact_conns, List.countP_map]
  simp [Function.comp_def]

theorem timerCourse_redact (limit fuel : ℕ) (w : World) :
    timerCourse limit fuel w.redact = (timerCourse limit fuel w).map Happening.redact := by
  induction fuel generalizing w with
  | zero => rfl
  | succ fuel ih =>
    rw [timerCourse, timerCourse, redact_clock]
    cases w.clock.next? limit with
    | none => rfl
    | some due =>
      have hclock : { w.redact with clock := due.2 } = ({ w with clock := due.2 } : World).redact :=
        rfl
      dsimp only
      rw [hclock, hand_redact, ready_redact, deliver_redact, ih]
      simp [Happening.redact]

theorem course_redact (op : Op) :
    w.redact.course op.redact = (w.course op).map Happening.redact := by
  cases op with
  | connect leg o => exact w.connectCourse_redact leg o
  | advance ms =>
    show timerCourse _ w.redact.workload w.redact = _
    rw [workload_redact]
    exact timerCourse_redact _ _ w
  | confirm p => exact w.confirmCourse_redact p
  | broadcast p =>
    show w.redact.broadcastCourse _ = _
    rw [subscribers_redact]
    exact broadcastCourse_redact _ w
  | rebind c l =>
    show w.redact.course (.rebind c l) = _
    rw [course, conn_redact, course]
    cases w.conns[c]? with
    | none => rfl
    | some k =>
      dsimp only [Option.map_some]
      rw [Conn.redact_closed, bindCourse_redact]
      split_ifs <;> rfl
  | cloneConn c =>
    show w.redact.course (.cloneConn c) = _
    rw [course, conn_redact, course]
    cases w.conns[c]? with
    | none => rfl
    | some k => exact w.buildCourse_redact k.leg k.options
  | drain c => exact w.drainCourse_redact c
  | drive c => exact w.driveCourse_redact c
  | _ => rfl

/-! ### Runs -/

theorem perform_snd_redact (op : Op) :
    (w.redact.perform op.redact).2 = (w.perform op).2.redact := by
  rw [perform_snd, course_redact, after_redact, ← perform_snd]

theorem settleCourse_redact : w.redact.settleCourse = w.settleCourse.map Happening.redact := by
  unfold settleCourse
  rw [workload_redact]
  exact timerCourse_redact _ _ w

theorem step_snd_redact (op : Op) : (w.redact.step op.redact).2 = (w.step op).2.redact := by
  rw [step_snd, perform_snd_redact, course_redact, settleCourse_redact, ← List.map_append,
    after_redact, ← step_snd]

/-- **The same happens** but for the digits. -/
theorem history_redact (ops : List Op) (w : World) :
    w.redact.history (ops.map Op.redact) = (w.history ops).map Happening.redact := by
  induction ops generalizing w with
  | nil => rfl
  | cons op ops ih =>
    rw [List.map_cons, history, history, perform_snd_redact, course_redact, settleCourse_redact,
      step_snd_redact, ih, List.map_append, List.map_append]

theorem run_snd_redact (ops : List Op) :
    (w.redact.run (ops.map Op.redact)).2 = (w.run ops).2.redact := by
  rw [run_snd, run_snd, history_redact, after_redact]

/-- Moment by moment. -/
theorem during_redact (ops : List Op) (n : ℕ) :
    w.redact.during (ops.map Op.redact) n = (w.during ops n).redact := by
  unfold during
  rw [history_redact, ← List.map_take, after_redact]

end World

end CdmaCall
