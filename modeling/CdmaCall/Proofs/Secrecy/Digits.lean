import CdmaCall.Proofs.Secrecy.Runs
import CdmaCall.Proofs.World.Workload
import CdmaCall.Session.View
import Mathlib.Data.List.Forall2

/-!
# Digits are secret

Two scripts that differ only in the digits that are played, where each digit of one is accepted just
if that of the other is, cannot be told apart by anything but the digits themselves: every request
returns the same, and at every moment everything that is shown, told, logged and timed is the same
(`digits_secret`).
-/

namespace CdmaCall

open Keypad

/-! ### What digits may differ in -/

/-- Requests that differ in nothing but digits, which are accepted in both or in neither. -/
inductive Op.Alike : Op → Op → Prop
  | same (op : Op) : Alike op op
  | play (c : ConnId) {digit digit' : Char} (h : accepts digit = accepts digit') :
      Alike (.play c digit) (.play c digit')
  | keys (c : ConnId) {digits digits' : List Char}
      (h : List.Forall₂ (fun d d' => accepts d = accepts d') digits digits') :
      Alike (.keys c digits) (.keys c digits')

/-- Requests to a phone of the same kind, with the same lengths and as many digits. -/
inductive Action.Alike : Action → Action → Prop
  | same (a : Action) : Alike a a
  | tone (digit digit' : Char) : Alike (.startTone digit) (.startTone digit')
  | burst {digits digits' : List Char} (onLength offLength : ℕ)
      (h : digits.length = digits'.length) :
      Alike (.burst digits onLength offLength) (.burst digits' onLength offLength)

/-- Phones in the same state that were asked for the same but for digits, which does not show in
the log. -/
structure Phone.Alike (p p' : Phone) : Prop where
  same : { p' with actions := p.actions } = p
  actions : List.Forall₂ Action.Alike p.actions p'.actions
  log : p'.actions.map Action.describe = p.actions.map Action.describe

/-- Connections that are the same but for the digits that wait, of which there are as many. -/
structure Conn.Alike (k k' : Conn) : Prop where
  same : { k' with tones := { k'.tones with queue := k.tones.queue } } = k
  queued : k'.tones.queue.length = k.tones.queue.length

/-- Worlds that differ in nothing but digits: clock and timers, legs, the cue player and the
settings are the same, connections and phones are alike, and all the views are the same. -/
structure World.Alike (w w' : World) : Prop where
  same : { w' with phones := w.phones, conns := w.conns } = w
  phones : List.Forall₂ Phone.Alike w.phones w'.phones
  conns : List.Forall₂ Conn.Alike w.conns w'.conns
  views : w'.views = w.views

/-! ### What redaction leaves to be seen -/

theorem Action.byteCount_hide (digits : List Char) :
    byteCount (digits.map hide) = byteCount digits := by
  induction digits with
  | nil => rfl
  | cons digit digits ih =>
    show (hide digit).utf8Size + byteCount (digits.map hide) = digit.utf8Size + byteCount digits
    rw [ih, utf8Size_hide]

/-- Nothing is hidden from a log that does not show digits. -/
@[simp] theorem Action.describe_redact (a : Action) : a.redact.describe = a.describe := by
  unfold describe redact
  cases a with
  | burst digits on off =>
    dsimp only
    rw [byteCount_hide]
  | _ => rfl

theorem Action.alike_of_redact {a a' : Action} (h : a.redact = a'.redact) : Alike a a' := by
  cases a with
  | startTone digit =>
    cases a' <;> simp only [redact, reduceCtorEq] at h
    exact .tone _ _
  | burst digits on off =>
    cases a' <;> simp only [redact, Action.burst.injEq, reduceCtorEq] at h
    obtain ⟨hdigits, rfl, rfl⟩ := h
    exact .burst _ _ (by simpa using congrArg List.length hdigits)
  | _ =>
    cases a' <;> cases h
    exact .same _

theorem map_eq_iff_forall₂ {α β : Type} {f : α → β} {xs ys : List α} :
    xs.map f = ys.map f ↔ List.Forall₂ (fun x y => f x = f y) xs ys := by
  rw [← List.forall₂_eq_eq_eq, List.forall₂_map_left_iff, List.forall₂_map_right_iff]

theorem Phone.alike_of_redact {p p' : Phone} (h : p.redact = p'.redact) : Alike p p' where
  same := (congrArg (fun q : Phone => { q with actions := p.actions }) h).symm
  actions := (map_eq_iff_forall₂.1 (congrArg Phone.actions h)).imp fun _ _ =>
    Action.alike_of_redact
  log := by
    have hlog := congrArg (fun q : Phone => q.actions.map Action.describe) h
    simpa [redact, Function.comp_def] using hlog.symm

theorem Conn.alike_of_redact {k k' : Conn} (h : k.redact = k'.redact) : Alike k k' where
  same := (congrArg (fun l : Conn => { l with tones := { l.tones with queue := k.tones.queue } })
    h).symm
  queued := by
    have hlength := congrArg (fun l : Conn => l.tones.queue.length) h
    simpa [redact, Transmitter.redact] using hlength.symm

theorem Scene.view_redact (s : Scene) : s.redact.view = s.view := by
  have hqueued : s.redact.conn.tones.queue.length = s.conn.tones.queue.length :=
    List.length_map ..
  have hsnapshot : s.redact.snapshot = s.snapshot := by
    unfold Scene.snapshot
    rw [hqueued]
    rfl
  unfold Scene.view
  rw [hsnapshot, Scene.isEmergency_redact]
  rfl

namespace World

variable (w : World)

theorem views_redact : w.redact.views = w.views := by
  have hconns : w.redact.conns.length = w.conns.length := List.length_map ..
  have hconn (c : ConnId) : (w.redact.scene? c).map (fun s => View.conn c s.view) =
      (w.scene? c).map fun s => View.conn c s.view := by
    rw [scene?_redact, Option.map_map]
    simp only [Function.comp_def, Scene.view_redact]
  have hphones : w.redact.phones.mapIdx (fun p phone => View.phone p phone.view) =
      w.phones.mapIdx fun p phone => View.phone p phone.view := by
    refine List.ext_getElem? fun p => ?_
    rw [List.getElem?_mapIdx, List.getElem?_mapIdx, redact_phones, List.getElem?_map,
      Option.map_map]
    rfl
  unfold views
  rw [hconns, hphones]
  simp only [hconn]
  rfl

theorem alike_of_redact {w w' : World} (h : w.redact = w'.redact) : Alike w w' where
  same := (congrArg (fun u : World => { u with phones := w.phones, conns := w.conns }) h).symm
  phones := (map_eq_iff_forall₂.1 (congrArg World.phones h)).imp fun _ _ => Phone.alike_of_redact
  conns := (map_eq_iff_forall₂.1 (congrArg World.conns h)).imp fun _ _ => Conn.alike_of_redact
  views := by rw [← views_redact, ← h, views_redact]

end World

theorem Keypad.mask_eq_of_accepts {d d' : Char} (h : accepts d = accepts d') :
    mask d = mask d' := by
  rw [mask, mask, h]

/-- Scripts that are alike become the same when they are redacted. -/
theorem Op.redact_eq_of_alike {op op' : Op} (h : Alike op op') : op.redact = op'.redact := by
  cases h with
  | same => rfl
  | play c h => exact congrArg (Op.play c) (mask_eq_of_accepts h)
  | keys c h =>
    exact congrArg (Op.keys c) (map_eq_iff_forall₂.2 (h.imp fun _ _ => mask_eq_of_accepts))

namespace World

variable (w : World)

/-! ### What requests return -/

theorem connect_fst_redact (leg : Option LegId) (o : Options) :
    (w.redact.connect leg o).1 = (w.connect leg o).1 := by
  have harm := (w.build leg o).2.inScene_redact (w.build leg o).1 (.ok ())
    (f := fun s => if s.conn.waiting && !s.isPacketVoice then s.arm else (.ok (), s))
    (g := fun s => if s.conn.waiting && !s.isPacketVoice then s.arm else (.ok (), s))
    fun s => by
      have hwaits : (s.redact.conn.waiting && !s.redact.isPacketVoice) =
          (s.conn.waiting && !s.isPacketVoice) := rfl
      rw [hwaits, Scene.arm_redact]
      split_ifs <;> rfl
  unfold connect
  rw [build_redact]
  dsimp only
  rw [harm]
  generalize inScene _ _ _ _ = armed
  obtain ⟨r, u⟩ := armed
  cases r <;> rfl

theorem broadcastTo_fst_redact (cs : List ConnId) (w : World) :
    (w.redact.broadcastTo cs).1 = (w.broadcastTo cs).1 := by
  induction cs generalizing w with
  | nil => rfl
  | cons c rest ih =>
    rw [broadcastTo, broadcastTo, deliver_redact]
    dsimp only
    rw [ih]

/-- **Every request returns the same.** -/
theorem perform_fst_redact (op : Op) :
    (w.redact.perform op.redact).1 = (w.perform op).1 := by
  cases op with
  | connect leg o =>
    have hconnect := w.connect_fst_redact leg o
    have hreply (u : World) : (u.perform (.connect leg o)).1 =
        match (u.connect leg o).1 with
        | .ok c => .made c
        | .error e => .refused e := by
      rw [perform]
      obtain ⟨r, v⟩ := u.connect leg o
      cases r <;> rfl
    show (w.redact.perform (.connect leg o)).1 = _
    rw [hreply, hreply, hconnect]
  | hangUpLeg l =>
    show Reply.ofResult (w.redact.hangUpLeg l).1 = Reply.ofResult (w.hangUpLeg l).1
    unfold hangUpLeg
    rw [redact_legs]
    cases w.legs[l]? <;> rfl
  | confirm p =>
    show Reply.flag (w.redact.confirmBurst p).1 = Reply.flag (w.confirmBurst p).1
    unfold confirmBurst
    rw [releaseBurst_redact]
    cases w.phones[p]?.bind (·.releaseBurst) <;> rfl
  | broadcast p =>
    show Reply.count (w.redact.broadcastTo _).1 = Reply.count (w.broadcastTo _).1
    rw [subscribers_redact, broadcastTo_fst_redact]
  | play c digit =>
    exact congrArg (fun r => Reply.ofResult r.1)
      (w.inScene_redact c (.ok ()) (f := (·.playTone digit)) (g := (·.playTone (mask digit)))
        fun s => s.playTone_redact digit)
  | keys c digits =>
    exact congrArg (fun r => Reply.ofResult r.1)
      (w.inScene_redact c (.ok ()) (f := (·.pressKeys digits))
        (g := (·.pressKeys (digits.map mask))) (Scene.pressKeys_redact digits))
  | conference c other =>
    exact congrArg (fun r => Reply.flag r.1)
      (w.inScene_redact c false fun s => s.conference_redact)
  | drain c =>
    exact congrArg (fun r => Reply.events r.1) (w.inScene_redact c [] fun s => s.drain_redact)
  | cloneConn c =>
    show (w.redact.perform (.cloneConn c)).1 = _
    rw [perform, perform, cloneConn, cloneConn, conn_redact]
    cases w.conns[c]? with
    | none => rfl
    | some k =>
      dsimp only [Option.map_some]
      rw [Conn.redact_leg, Conn.redact_options, build_redact]
  | _ => rfl

theorem run_fst_redact (ops : List Op) (w : World) :
    (w.redact.run (ops.map Op.redact)).1 = (w.run ops).1 := by
  induction ops generalizing w with
  | nil => rfl
  | cons op ops ih =>
    show (w.redact.step op.redact).1 :: ((w.redact.step op.redact).2.run (ops.map Op.redact)).1 =
      (w.step op).1 :: ((w.step op).2.run ops).1
    rw [step_snd_redact, ih]
    exact congrArg (· :: _) (w.perform_fst_redact op)

/-- **Digits are secret.** If two scripts differ in nothing but digits, and each digit of one is
accepted just if that of the other is, then in every world every request of both returns the same,
the same things happen in both runs but for the digits, and after every request and at every moment
on the way the worlds differ in nothing but digits. -/
theorem digits_secret {ops ops' : List Op} (h : List.Forall₂ Op.Alike ops ops') :
    (w.run ops').1 = (w.run ops).1 ∧
      (w.history ops').map Happening.redact = (w.history ops).map Happening.redact ∧
      (∀ n, (w.run (ops.take n)).2.Alike (w.run (ops'.take n)).2) ∧
      ∀ n, (w.during ops n).Alike (w.during ops' n) := by
  -- Both runs are compared with the run of the script that both become when they are redacted.
  have hscripts {os os' : List Op} (h : List.Forall₂ Op.Alike os os') :
      os.map Op.redact = os'.map Op.redact :=
    map_eq_iff_forall₂.2 (h.imp fun _ _ => Op.redact_eq_of_alike)
  have hops := hscripts h
  refine ⟨?_, ?_, fun n => ?_, fun n => ?_⟩
  · rw [← run_fst_redact, ← hops, run_fst_redact]
  · rw [← history_redact, ← hops, history_redact]
  · refine alike_of_redact ?_
    rw [← run_snd_redact, ← run_snd_redact, hscripts (List.forall₂_take n h)]
  · refine alike_of_redact ?_
    rw [← during_redact, ← during_redact, hops]

/-- Two users play digits of their own, and one more that is none. -/
theorem digits_secret_served :
    let w := served (Leg.outgoing "5550100" (some 0))
    let ops : List Op := [.connect (some 0) {}, .play 0 '1', .keys 0 ['2', '3', 'x'], .confirm 0,
      .drain 0]
    let ops' : List Op := [.connect (some 0) {}, .play 0 'd', .keys 0 ['*', '7', '!'], .confirm 0,
      .drain 0]
    (w.run ops).2.phones.map (·.bursts) = [[['1'], ['2', '3']]] ∧
      (w.run ops').2.phones.map (·.bursts) = [[['D'], ['*', '7']]] ∧
      (w.run ops').1 = (w.run ops).1 ∧ (w.during ops 9).Alike (w.during ops' 9) := by
  intro w ops ops'
  have halike : List.Forall₂ Op.Alike ops ops' := by
    refine .cons (.same _) (.cons (.play 0 (by decide)) (.cons (.keys 0 ?_) (.cons (.same _)
      (.cons (.same _) .nil))))
    exact .cons (by decide) (.cons (by decide) (.cons (by decide) .nil))
  obtain ⟨hreplies, -, -, hmoments⟩ := w.digits_secret halike
  exact ⟨by decide +kernel, by decide +kernel, hreplies, hmoments 9⟩

end World

end CdmaCall
