import CdmaCall.Proofs.Connection.Deeds
import CdmaCall.Proofs.World.Scenes
import CdmaCall.Session.Op

/-!
# Histories

A `Happening` is the smallest change of a world: a deed in the scene of one connection, or a change
of the network, the platform or the clock. `history w ops` lists what happens, in order, when the
requests `ops` are made of the world `w`, the timers that come due and the events that are handled
in between included, and `run_snd` says that nothing else happens. What holds of one happening and
of one after the other therefore holds of every run. Each happening is what a request asks for, or
belongs to the routine of carrying one out (`routine_or_asked`).
-/

namespace CdmaCall

/-- The smallest change of a world. -/
inductive Happening where
  | deed (c : ConnId) (d : Deed)
  /-- A connection is added to the list. -/
  | enlist (o : Options)
  /-- A connection gets a leg. -/
  | assign (c : ConnId) (l : LegId)
  | report (l : LegId) (state : LegState)
  | refuse (l : LegId) (yes : Bool)
  | release (l : LegId)
  | hold (p : PhoneId) (active : Bool)
  | prefer (t : Option ToneType)
  /-- The oldest confirmation that a phone keeps arrives at its connection. -/
  | confirm (p : PhoneId)
  /-- The next timer due up to `limit` comes off the clock, and what it carries arrives. -/
  | expire (limit : ℕ)
  /-- The clock is set. -/
  | pass (limit : ℕ)
  deriving DecidableEq, Repr

/-- Whether something comes about while requests are carried out or events are handled, without
being itself what a request asks for. -/
def Happening.isRoutine : Happening → Bool
  | .enlist _ | .assign .. | .confirm _ | .expire _ | .pass _ => true
  | .deed _ d =>
    match d with
    | .fetch | .post .lineControl | .attend | .retire | .register | .unregister | .update
    | .mark | .arm => true
    | _ => false
  | _ => false

/-- Whether something comes about wherever events are handled and connections are bound. -/
def Happening.isMinor : Happening → Bool
  | .enlist _ | .assign .. | .confirm _ => true
  | .deed _ d =>
    match d with
    | .fetch | .post .lineControl | .register | .unregister | .update | .mark => true
    | _ => false
  | _ => false

/-- What a request asks for, if that is all that it consists of. -/
def Op.happening? : Op → Option Happening
  | .toneType t => some (.prefer t)
  | .legState l state => some (.report l state)
  | .refuseHangup l yes => some (.refuse l yes)
  | .hangUpLeg l => some (.release l)
  | .hold p active => some (.hold p active)
  | .play c digit => some (.deed c (.play digit))
  | .keys c digits => some (.deed c (.keys digits))
  | .stop c => some (.deed c .stop)
  | .reject c => some (.deed c .reject)
  | .answer c => some (.deed c .answer)
  | .update c => some (.deed c .update)
  | .close c => some (.deed c .close)
  | .enter c phase => some (.deed c (.enter phase))
  | .forceDialing c dialing => some (.deed c (.forceDialing dialing))
  | .handle c e => some (.deed c (.handle e))
  | .conference c _ => some (.deed c .conference)
  | _ => none

/-- A happening, and the world it happens to. -/
structure Moment where
  before : World
  what : Happening

namespace World

open Scene

variable {w : World}

/-- An event arrives in the mailbox of its connection. -/
def hand (w : World) (d : Delivery) : World := w.onScene d.target (·.act (.post d.event))

/-- Let something happen. -/
def happen (w : World) : Happening → World
  | .deed c d => w.onScene c (·.act d)
  | .enlist o => { w with conns := w.conns ++ [Conn.fresh o] }
  | .assign c l => w.setLeg c l
  | .report l state => w.setLegState l state
  | .refuse l yes => w.setRefusesHangup l yes
  | .release l => (w.hangUpLeg l).2
  | .hold p active => w.setHold p active
  | .prefer t => { w with toneType := t }
  | .confirm p =>
    match w.phones[p]?.bind (·.releaseBurst) with
    | none => w
    | some (c, phone) => { w with phones := w.phones.set p phone }.hand ⟨c, .burstConfirmed⟩
  | .expire limit =>
    match w.clock.next? limit with
    | none => w
    | some (d, clock) => { w with clock }.hand d
  | .pass limit => { w with clock := { w.clock with now := limit } }

/-- One happening after the other. -/
def after (w : World) (hs : List Happening) : World := hs.foldl happen w

@[simp] theorem after_nil (w : World) : w.after [] = w := rfl

@[simp] theorem after_cons (w : World) (h : Happening) (hs : List Happening) :
    w.after (h :: hs) = (w.happen h).after hs := rfl

theorem after_append (w : World) (hs hs' : List Happening) :
    w.after (hs ++ hs') = (w.after hs).after hs' := List.foldl_append

/-! ### What requests consist of -/

/-- A connection that handles events as they arrive handles what waits. -/
def ready (w : World) (c : ConnId) : List Happening :=
  match w.conns[c]? with
  | none => []
  | some k =>
    if k.driven && k.mailbox.accepts then
      List.replicate k.mailbox.waiting.length (.deed c .fetch)
    else []

/-- See `bind`. -/
def bindCourse (w : World) (c : ConnId) (l : LegId) : List Happening :=
  if l < w.legs.length then
    [.deed c .unregister, .assign c l, .deed c .register, .deed c .update]
  else []

/-- See `build`. -/
def buildCourse (w : World) (leg : Option LegId) (o : Options) : List Happening :=
  .enlist o :: (match leg with
    | none => []
    | some l => (w.happen (.enlist o)).bindCourse w.conns.length l) ++
      [.deed w.conns.length .mark]

/-- Set the deadline of a new connection, if it has one. -/
def armCourse (w : World) (c : ConnId) : List Happening :=
  match w.scene? c with
  | none => []
  | some s =>
    if s.conn.waiting && !s.isPacketVoice then
      .deed c .arm :: (if w.clock.running then [] else [.deed c .retire])
    else []

/-- See `connect`. -/
def connectCourse (w : World) (leg : Option LegId) (o : Options) : List Happening :=
  w.buildCourse leg o ++ (w.build leg o).2.armCourse w.conns.length

/-- See `confirmBurst`. -/
def confirmCourse (w : World) (p : PhoneId) : List Happening :=
  match w.phones[p]?.bind (·.releaseBurst) with
  | none => []
  | some (c, _) => .confirm p :: (w.happen (.confirm p)).ready c

/-- See `broadcastTo`. -/
def broadcastCourse (w : World) : List ConnId → List Happening
  | [] => []
  | c :: rest =>
    .deed c (.post .lineControl) :: (w.hand ⟨c, .lineControl⟩).ready c ++
      (w.deliver ⟨c, .lineControl⟩).2.broadcastCourse rest

/-- What waits is handled, though the connection does not handle it as it arrives. -/
def drainCourse (w : World) (c : ConnId) : List Happening :=
  match w.conns[c]? with
  | none => []
  | some k => List.replicate k.mailbox.waiting.length (.deed c .fetch)

/-- See `Scene.drive`. -/
def driveCourse (w : World) (c : ConnId) : List Happening :=
  match w.conns[c]? with
  | none => []
  | some k =>
    if k.driven then []
    else .deed c .attend :: (if k.mailbox.shutDown then [.deed c .retire]
      else List.replicate k.mailbox.waiting.length (.deed c .fetch))

/-- See `runTimers`. -/
def timerCourse (limit : ℕ) : ℕ → World → List Happening
  | 0, _ => [.pass limit]
  | fuel + 1, w =>
    match w.clock.next? limit with
    | none => [.pass limit]
    | some (d, clock) =>
      .expire limit :: ({ w with clock }.hand d).ready d.target ++
        timerCourse limit fuel ({ w with clock }.deliver d).2

/-- What a request consists of. -/
def course (w : World) : Op → List Happening
  | .connect leg o => w.connectCourse leg o
  | .advance ms => timerCourse (w.clock.now + ms) w.workload w
  | .toneType t => [.prefer t]
  | .legState l state => [.report l state]
  | .refuseHangup l yes => [.refuse l yes]
  | .hangUpLeg l => [.release l]
  | .hold p active => [.hold p active]
  | .confirm p => w.confirmCourse p
  | .broadcast p => w.broadcastCourse ((w.phones[p]?.map (·.subscribers)).getD [])
  | .play c digit => [.deed c (.play digit)]
  | .keys c digits => [.deed c (.keys digits)]
  | .stop c => [.deed c .stop]
  | .reject c => [.deed c .reject]
  | .answer c => [.deed c .answer]
  | .update c => [.deed c .update]
  | .close c => [.deed c .close]
  | .enter c phase => [.deed c (.enter phase)]
  | .forceDialing c dialing => [.deed c (.forceDialing dialing)]
  | .rebind c l =>
    match w.conns[c]? with
    | none => []
    | some k => if k.closed then [] else w.bindCourse c l
  | .handle c e => [.deed c (.handle e)]
  | .cloneConn c =>
    match w.conns[c]? with
    | none => []
    | some k => w.buildCourse k.leg k.options
  | .conference c _ => [.deed c .conference]
  | .drain c => w.drainCourse c
  | .drive c => w.driveCourse c

/-- What a request made ready. -/
def settleCourse (w : World) : List Happening := timerCourse w.clock.now w.workload w

/-- Everything that happens when requests are made one after the other. -/
def history (w : World) : List Op → List Happening
  | [] => []
  | op :: ops => w.course op ++ (w.perform op).2.settleCourse ++ (w.step op).2.history ops

/-! ### Nothing else happens -/

/-- Deeds of one connection in a row are one function on its scene. -/
theorem after_deeds (c : ConnId) :
    ∀ (ds : List Deed) (w : World), (∀ d ∈ ds, d ≠ .close) →
      w.after (ds.map (.deed c)) = w.onScene c (fun s => ds.foldl Scene.act s)
  | [], w, _ => (onScene_id w c).symm
  | d :: ds, w, hds => by
    have hd : d ≠ .close := hds d (List.mem_cons_self ..)
    have hrest : ∀ e ∈ ds, e ≠ .close := fun e he => hds e (List.mem_cons_of_mem _ he)
    have hfold (s : Scene) : Anchored s (ds.foldl Scene.act s) := by
      clear hds
      induction ds generalizing s with
      | nil => exact Anchored.refl s
      | cons e es ih =>
        have he := anchored_act s (hrest e (List.mem_cons_self ..))
        exact he.trans (ih (fun x hx => hrest x (List.mem_cons_of_mem _ hx)) _)
    rw [List.map_cons, after_cons, after_deeds c ds _ hrest, happen,
      onScene_onScene w c (fun s => anchored_act s hd) hfold]
    rfl

theorem foldl_fetch {α : Type} (xs : List α) (s : Scene) :
    xs.foldl (fun s _ => s.fetch) s =
      (List.replicate xs.length Deed.fetch).foldl Scene.act s := by
  induction xs generalizing s with
  | nil => rfl
  | cons x xs ih => exact ih s.fetch

theorem after_fetches (w : World) (c : ConnId) (n : ℕ) :
    w.after (List.replicate n (.deed c .fetch)) =
      w.onScene c (fun s => (List.replicate n Deed.fetch).foldl Scene.act s) := by
  rw [← after_deeds c _ w (fun d hd => by rw [List.eq_of_mem_replicate hd]; decide),
    List.map_replicate]

theorem anchored_fetches (n : ℕ) (s : Scene) :
    Anchored s ((List.replicate n Deed.fetch).foldl Scene.act s) := by
  induction n generalizing s with
  | zero => exact Anchored.refl s
  | succ n ih => exact (anchored_fetch s).trans (ih s.fetch)

/-- What comes in is handled at once if events are handled as they arrive. -/
theorem receive_snd (s : Scene) (e : Event) :
    (s.receive e).2 = (List.replicate (if s.conn.driven && s.conn.mailbox.accepts then
      (s.act (.post e)).conn.mailbox.waiting.length else 0) Deed.fetch).foldl Scene.act
        (s.act (.post e)) := by
  by_cases ha : s.conn.mailbox.accepts = true
  · have hrec : (s.receive e).2 =
        if s.conn.driven then (s.act (.post e)).drain.2 else s.act (.post e) := by
      unfold receive
      rw [if_pos ha]
      rfl
    rw [hrec, ha, Bool.and_true]
    by_cases hd : s.conn.driven = true
    · rw [if_pos hd, if_pos hd]
      exact foldl_fetch _ _
    · rw [if_neg hd, if_neg hd]
      rfl
  · have hrec : (s.receive e).2 = s := by
      unfold receive
      rw [if_neg ha]
    rw [hrec, act_post_of_not s e ha, if_neg (by simp [ha])]
    rfl

/-- An event that arrives waits, and a connection that handles events as they arrive handles it. -/
theorem deliver_eq (w : World) (d : Delivery) :
    (w.deliver d).2 = (w.hand d).after ((w.hand d).ready d.target) := by
  unfold deliver
  rw [inScene_snd]
  rcases within_or_le w d.target with ⟨s, h⟩ | h
  · have hpost : Anchored s (s.act (.post d.event)) := anchored_act s (by simp)
    have hin := h.putScene hpost
    have hhand : w.hand d = w.putScene d.target (s.act (.post d.event)) := onScene_of_within h _
    have hready : (w.hand d).ready d.target =
        List.replicate (if s.conn.driven && s.conn.mailbox.accepts then
          (s.act (.post d.event)).conn.mailbox.waiting.length else 0) (.deed d.target .fetch) := by
      rw [hhand]
      unfold ready
      rw [hin.conn]
      have hacc : (s.act (.post d.event)).conn.mailbox.accepts = s.conn.mailbox.accepts := by
        unfold act Mailbox.post
        split_ifs <;> rfl
      show (if s.conn.driven && _ then _ else _) = _
      rw [hacc]
      split_ifs <;> rfl
    rw [hready, after_fetches, hhand, onScene_of_within h, onScene_of_within hin,
      h.putScene_putScene hpost (anchored_fetches _ _), receive_snd]
  · have hhand : w.hand d = w := onScene_of_none h _
    rw [onScene_of_none h, hhand]
    unfold ready
    rw [List.getElem?_eq_none_iff.2 h]
    rfl

/-- What the next timer carries arrives when it comes off the clock. -/
theorem deliver_next {limit : ℕ} {d : Delivery} {clock : Clock Delivery}
    (hn : w.clock.next? limit = some (d, clock)) :
    let w' := w.happen (.expire limit)
    (({ w with clock } : World).deliver d).2 = w'.after (w'.ready d.target) := by
  simp only [happen, hn]
  exact deliver_eq _ d

theorem timerCourse_none {limit : ℕ} (hn : w.clock.next? limit = none) (fuel : ℕ) :
    timerCourse limit (fuel + 1) w = [.pass limit] := by rw [timerCourse, hn]

theorem timerCourse_of_none {limit : ℕ} (hn : w.clock.next? limit = none) (fuel : ℕ) :
    timerCourse limit fuel w = [.pass limit] := by
  cases fuel with
  | zero => rfl
  | succ fuel => exact timerCourse_none hn fuel

/-- What is not due does not come due. -/
theorem timerCourse_of_late {limit : ℕ} (h : ∀ t ∈ w.clock.pending, limit < t.due) (fuel : ℕ) :
    timerCourse limit fuel w = [.pass limit] := timerCourse_of_none (Clock.next?_of_late h) fuel

/-- One timer, the events that are handled when it comes due, and the other timers. -/
theorem timerCourse_some {limit : ℕ} {d : Delivery} {clock : Clock Delivery}
    (hn : w.clock.next? limit = some (d, clock)) (fuel : ℕ) :
    let w' := w.happen (.expire limit)
    timerCourse limit (fuel + 1) w = .expire limit :: (w'.ready d.target ++
      timerCourse limit fuel (w'.after (w'.ready d.target))) := by
  have hdeliver := deliver_next hn
  simp only [happen, hn] at hdeliver ⊢
  rw [timerCourse, hn]
  dsimp only
  rw [hdeliver, List.cons_append]

theorem bind_eq (w : World) (c : ConnId) (l : LegId) :
    w.bind c l = w.after (w.bindCourse c l) := by
  unfold bind bindCourse
  split_ifs
  · have hreg (s : Scene) : Anchored s s.register := Anchored.of_path (path_register s)
    have hup (s : Scene) : Anchored s s.update := Anchored.of_path (path_update s)
    exact (onScene_onScene _ c hreg hup).symm
  · rfl

theorem build_eq (w : World) (leg : Option LegId) (o : Options) :
    w.build leg o = (w.conns.length, w.after (w.buildCourse leg o)) := by
  unfold build buildCourse
  rw [List.cons_append, after_cons, after_append]
  cases leg with
  | none => rfl
  | some l =>
    dsimp only
    rw [← bind_eq]
    rfl

theorem connect_snd (w : World) (leg : Option LegId) (o : Options) :
    (w.connect leg o).2 = w.after (w.connectCourse leg o) := by
  unfold connect connectCourse armCourse inScene
  rw [after_append, build_eq]
  dsimp only
  rcases within_or_le (w.after (w.buildCourse leg o)) w.conns.length with ⟨s, h⟩ | h
  · rw [scene?_eq_some_iff.2 h]
    dsimp only
    split_ifs with hwaits hrun
    · have harm : s.arm = (.ok (), s.disarm.rearm) := by
        rw [arm_eq, if_pos (h.clock ▸ hrun)]
      simp only [after_cons, after_nil, happen, onScene_of_within h, act, harm]
    · have harm := s.arm_eq
      rw [if_neg (h.clock ▸ hrun)] at harm
      simp only [after_cons, after_nil, happen, onScene_of_within h, act, harm]
    · exact h.putScene_self
  · rw [scene?_eq_none_iff.2 h]
    rfl

theorem confirmBurst_snd (w : World) (p : PhoneId) :
    (w.confirmBurst p).2 = w.after (w.confirmCourse p) := by
  unfold confirmBurst confirmCourse
  cases hp : w.phones[p]?.bind (·.releaseBurst) with
  | none => rfl
  | some taken =>
    rw [after_cons]
    simp only [happen, hp]
    exact deliver_eq _ _

theorem broadcastTo_snd (cs : List ConnId) (w : World) :
    (w.broadcastTo cs).2 = w.after (w.broadcastCourse cs) := by
  induction cs generalizing w with
  | nil => rfl
  | cons c rest ih =>
    rw [broadcastCourse, List.cons_append, after_cons, after_append]
    show ((w.deliver ⟨c, .lineControl⟩).2.broadcastTo rest).2 = _
    rw [ih]
    congr 1
    exact deliver_eq _ _

theorem runTimers_eq (limit fuel : ℕ) (w : World) :
    runTimers limit fuel w = w.after (timerCourse limit fuel w) := by
  induction fuel generalizing w with
  | zero => rfl
  | succ fuel ih =>
    unfold runTimers timerCourse
    cases hn : w.clock.next? limit with
    | none => rfl
    | some due =>
      dsimp only
      rw [List.cons_append, after_cons, after_append, ih]
      simp only [happen, hn]
      congr 1
      exact deliver_eq _ _

theorem drain_snd (w : World) (c : ConnId) :
    (w.inScene c [] Scene.drain).2 = w.after (w.drainCourse c) := by
  rw [inScene_snd]
  unfold drainCourse
  rcases within_or_le w c with ⟨s, h⟩ | h
  · rw [h.conn]
    dsimp only
    rw [after_fetches, onScene_of_within h, onScene_of_within h]
    exact congrArg _ (foldl_fetch _ s)
  · rw [onScene_of_none h, List.getElem?_eq_none_iff.2 h]
    rfl

theorem drive_eq (w : World) (c : ConnId) :
    w.onScene c Scene.drive = w.after (w.driveCourse c) := by
  unfold driveCourse
  rcases within_or_le w c with ⟨s, h⟩ | h
  · have hatt : Anchored s (s.act .attend) := anchored_act s (by decide)
    rw [h.conn, onScene_of_within h]
    dsimp only
    by_cases hd : s.conn.driven = true
    · rw [if_pos hd, drive, if_pos hd, h.putScene_self]
      rfl
    · have hdrive : s.drive = if s.conn.mailbox.shutDown then (s.act .attend).act .retire
          else (s.act .attend).drain.2 := by
        unfold drive
        rw [if_neg hd]
        rfl
      have hin := h.putScene hatt
      rw [if_neg hd, hdrive, after_cons, happen, onScene_of_within h]
      split_ifs with hshut
      · rw [after_cons, happen, onScene_of_within hin,
          h.putScene_putScene hatt (anchored_act _ (by decide))]
        rfl
      · rw [after_fetches, onScene_of_within hin,
          h.putScene_putScene hatt (anchored_fetches _ _)]
        exact congrArg _ (foldl_fetch _ _)
  · rw [onScene_of_none h, List.getElem?_eq_none_iff.2 h]
    rfl

/-- **A request is what it consists of.** -/
theorem perform_snd (w : World) (op : Op) : (w.perform op).2 = w.after (w.course op) := by
  cases op with
  | connect leg o =>
    have hworld : (w.perform (.connect leg o)).2 = (w.connect leg o).2 := by
      rw [perform]
      split
      · next he => rw [he]
      · next he => rw [he]
    rw [hworld]
    exact connect_snd w leg o
  | advance ms => exact runTimers_eq _ _ w
  | confirm p => exact confirmBurst_snd w p
  | broadcast p => exact broadcastTo_snd _ w
  | rebind c l =>
    show w.rebind c l = _
    unfold rebind
    rw [course]
    cases w.conns[c]? with
    | none => rfl
    | some k =>
      dsimp only
      split_ifs
      · rfl
      · exact bind_eq w c l
  | cloneConn c =>
    rw [perform, cloneConn, course]
    cases w.conns[c]? with
    | none => rfl
    | some k => exact congrArg Prod.snd (build_eq w k.leg k.options)
  | drain c => exact drain_snd w c
  | drive c => exact drive_eq w c
  | play c digit => exact inScene_snd w c (.ok ()) (·.playTone digit)
  | keys c digits => exact inScene_snd w c (.ok ()) (·.pressKeys digits)
  | conference c other => exact inScene_snd w c false Scene.conference
  | _ => rfl

theorem settle_eq (w : World) : w.settle = w.after w.settleCourse := runTimers_eq _ _ w

theorem step_snd (w : World) (op : Op) :
    (w.step op).2 = w.after (w.course op ++ (w.perform op).2.settleCourse) := by
  rw [after_append, ← perform_snd, ← settle_eq]
  rfl

/-- **A run is its history.** -/
theorem run_snd (w : World) (ops : List Op) : (w.run ops).2 = w.after (w.history ops) := by
  induction ops generalizing w with
  | nil => rfl
  | cons op ops ih =>
    show ((w.step op).2.run ops).2 = _
    rw [ih, history, after_append, ← step_snd]

/-! ### Where happenings come from -/

section Origins

variable {h : Happening}

theorem minor_fetches {n : ℕ} {c : ConnId} (hh : h ∈ List.replicate n (Happening.deed c .fetch)) :
    h.isMinor = true := by
  rw [List.eq_of_mem_replicate hh]
  rfl

/-- A connection that is ready only handles what waits. -/
theorem mem_ready {c : ConnId} (hh : h ∈ w.ready c) : h = .deed c .fetch := by
  unfold ready at hh
  split at hh
  · cases hh
  · split_ifs at hh
    · exact List.eq_of_mem_replicate hh
    · cases hh

theorem minor_bind {c : ConnId} {l : LegId} (hh : h ∈ w.bindCourse c l) : h.isMinor = true := by
  unfold bindCourse at hh
  split_ifs at hh
  · simp only [List.mem_cons, List.not_mem_nil, or_false] at hh
    rcases hh with rfl | rfl | rfl | rfl <;> rfl
  · cases hh

theorem minor_build {leg : Option LegId} {o : Options} (hh : h ∈ w.buildCourse leg o) :
    h.isMinor = true := by
  unfold buildCourse at hh
  rw [List.cons_append, List.mem_cons, List.mem_append, List.mem_singleton] at hh
  rcases hh with rfl | hh | rfl
  · rfl
  · cases leg with
    | none => cases hh
    | some l => exact minor_bind hh
  · rfl

theorem mem_broadcastCourse {cs : List ConnId} (hh : h ∈ w.broadcastCourse cs) :
    ∃ c, h = .deed c (.post .lineControl) ∨ h = .deed c .fetch := by
  induction cs generalizing w with
  | nil => cases hh
  | cons c rest ih =>
    rw [broadcastCourse, List.cons_append, List.mem_cons, List.mem_append] at hh
    rcases hh with rfl | hh | hh
    · exact ⟨c, .inl rfl⟩
    · exact ⟨c, .inr (mem_ready hh)⟩
    · exact ih hh

theorem mem_armCourse {c : ConnId} (hh : h ∈ w.armCourse c) :
    h = .deed c .arm ∨ h = .deed c .retire := by
  unfold armCourse at hh
  split at hh
  · cases hh
  · split_ifs at hh
    · exact .inl (List.mem_singleton.1 hh)
    · simpa using hh
    · cases hh

theorem mem_timerCourse {limit fuel : ℕ} (hh : h ∈ timerCourse limit fuel w) :
    (∃ c, h = .deed c .fetch) ∨ h = .expire limit ∨ h = .pass limit := by
  induction fuel generalizing w with
  | zero => exact .inr (.inr (List.mem_singleton.1 hh))
  | succ fuel ih =>
    unfold timerCourse at hh
    split at hh
    · exact .inr (.inr (List.mem_singleton.1 hh))
    · rw [List.cons_append, List.mem_cons, List.mem_append] at hh
      rcases hh with rfl | hh | hh
      · exact .inr (.inl rfl)
      · exact .inl ⟨_, mem_ready hh⟩
      · exact ih hh

/-- Only an idle connection that is shut down is left. -/
theorem mem_driveCourse {c : ConnId} (hh : h ∈ w.driveCourse c) :
    h = .deed c .attend ∨ h = .deed c .fetch ∨
      h = .deed c .retire ∧ ∃ k, w.conns[c]? = some k ∧ k.driven = false := by
  unfold driveCourse at hh
  cases hk : w.conns[c]? with
  | none => simp [hk] at hh
  | some k =>
    simp only [hk] at hh
    split_ifs at hh with hdriven
    · cases hh
    · simp only [List.mem_cons, List.not_mem_nil, or_false] at hh
      rcases hh with rfl | rfl
      · exact .inl rfl
      · exact .inr (.inr ⟨rfl, k, rfl, by simpa using hdriven⟩)
    · rcases List.mem_cons.1 hh with rfl | hh
      · exact .inl rfl
      · exact .inr (.inl (List.eq_of_mem_replicate hh))

/-- What a request can consist of besides what it asks for. -/
inductive Routine (w : World) : Op → Happening → Prop
  | minor {op : Op} {h : Happening} (hh : h.isMinor = true) : Routine w op h
  | timer (ms : ℕ) {h : Happening}
      (hh : h = .expire (w.clock.now + ms) ∨ h = .pass (w.clock.now + ms)) :
      Routine w (.advance ms) h
  /-- Only a new connection sets its deadline. -/
  | arm (leg : Option LegId) (o : Options) : Routine w (.connect leg o) (.deed w.conns.length .arm)
  | abandon (leg : Option LegId) (o : Options) :
      Routine w (.connect leg o) (.deed w.conns.length .retire)
  | attend (c : ConnId) : Routine w (.drive c) (.deed c .attend)
  /-- Somebody begins to receive the events of a connection that is shut down. -/
  | leave (c : ConnId) (k : Conn) (hk : w.conns[c]? = some k) (hidle : k.driven = false) :
      Routine w (.drive c) (.deed c .retire)

/-- What a request consists of is routine, or is what the request asks for. -/
theorem routine_or_asked {op : Op} (hh : h ∈ w.course op) :
    w.Routine op h ∨ op.happening? = some h := by
  cases op with
  | connect leg o =>
    rcases List.mem_append.1 hh with hh | hh
    · exact .inl (.minor (minor_build hh))
    · rcases mem_armCourse hh with rfl | rfl
      · exact .inl (.arm leg o)
      · exact .inl (.abandon leg o)
  | advance ms =>
    rcases mem_timerCourse hh with ⟨c, rfl⟩ | ht
    · exact .inl (.minor rfl)
    · exact .inl (.timer ms ht)
  | confirm p =>
    rw [course, confirmCourse] at hh
    split at hh
    · cases hh
    · rcases List.mem_cons.1 hh with rfl | hh
      · exact .inl (.minor rfl)
      · obtain rfl := mem_ready hh
        exact .inl (.minor rfl)
  | broadcast p => obtain ⟨c, rfl | rfl⟩ := mem_broadcastCourse hh <;> exact .inl (.minor rfl)
  | rebind c l =>
    rw [course] at hh
    split at hh
    · cases hh
    · split_ifs at hh
      · cases hh
      · exact .inl (.minor (minor_bind hh))
  | cloneConn c =>
    rw [course] at hh
    split at hh
    · cases hh
    · exact .inl (.minor (minor_build hh))
  | drain c =>
    rw [course, drainCourse] at hh
    split at hh
    · cases hh
    · exact .inl (.minor (minor_fetches hh))
  | drive c =>
    rcases mem_driveCourse hh with rfl | rfl | ⟨rfl, k, hk, hidle⟩
    · exact .inl (.attend c)
    · exact .inl (.minor rfl)
    · exact .inl (.leave c k hk hidle)
  | _ => exact .inr (congrArg some (List.mem_singleton.1 hh).symm)

theorem isRoutine_of_minor (hh : h.isMinor = true) : h.isRoutine = true := by
  cases h with
  | deed c d =>
    cases d with
    | post e => cases e <;> first | rfl | cases hh
    | _ => first | rfl | cases hh
  | _ => first | rfl | cases hh

theorem Routine.isRoutine {op : Op} (hr : w.Routine op h) : h.isRoutine = true := by
  cases hr with
  | minor hh => exact isRoutine_of_minor hh
  | timer ms hh => rcases hh with rfl | rfl <;> rfl
  | _ => rfl

theorem isRoutine_timers {limit fuel : ℕ} (hh : h ∈ timerCourse limit fuel w) :
    h.isRoutine = true := by
  rcases mem_timerCourse hh with ⟨c, rfl⟩ | rfl | rfl <;> rfl

/-- Whatever happens in a run is routine, or is what one of its requests asks for. -/
theorem routine_or_mem (ops : List Op) (w : World) (hh : h ∈ w.history ops) :
    h.isRoutine = true ∨ ∃ op ∈ ops, op.happening? = some h := by
  induction ops generalizing w with
  | nil => cases hh
  | cons op ops ih =>
    rw [history, List.append_assoc, List.mem_append, List.mem_append] at hh
    rcases hh with hh | hh | hh
    · rcases routine_or_asked hh with hr | ha
      · exact .inl hr.isRoutine
      · exact .inr ⟨op, List.mem_cons_self .., ha⟩
    · exact .inl (isRoutine_timers hh)
    · rcases ih _ hh with hr | ⟨op', hop', ha⟩
      · exact .inl hr
      · exact .inr ⟨op', List.mem_cons_of_mem _ hop', ha⟩

end Origins

/-! ### Moments -/

/-- The moments of a course of happenings. -/
def moments (w : World) : List Happening → List Moment
  | [] => []
  | h :: hs => ⟨w, h⟩ :: (w.happen h).moments hs

/-- The moments of a run. -/
def story (w : World) (ops : List Op) : List Moment := w.moments (w.history ops)

theorem moments_append (w : World) (hs hs' : List Happening) :
    w.moments (hs ++ hs') = w.moments hs ++ (w.after hs).moments hs' := by
  induction hs generalizing w with
  | nil => rfl
  | cons h hs ih => exact congrArg _ (ih _)

theorem story_cons (w : World) (op : Op) (ops : List Op) :
    w.story (op :: ops) =
      w.moments (w.course op ++ (w.perform op).2.settleCourse) ++ (w.step op).2.story ops := by
  unfold story
  rw [history, moments_append, ← step_snd]

/-- One run after the other. -/
theorem run_append (w : World) (ops ops' : List Op) :
    (w.run (ops ++ ops')).2 = ((w.run ops).2.run ops').2 := by
  induction ops generalizing w with
  | nil => rfl
  | cons op ops ih => exact ih (w.step op).2

theorem story_append (w : World) (ops ops' : List Op) :
    w.story (ops ++ ops') = w.story ops ++ (w.run ops).2.story ops' := by
  induction ops generalizing w with
  | nil => rfl
  | cons op ops ih =>
    rw [List.cons_append, story_cons, story_cons, ih, List.append_assoc]
    rfl

theorem what_mem {hs : List Happening} {m : Moment} (hm : m ∈ w.moments hs) : m.what ∈ hs := by
  induction hs generalizing w with
  | nil => cases hm
  | cons x hs ih =>
    rcases List.mem_cons.1 hm with rfl | hm
    · exact List.mem_cons_self ..
    · exact List.mem_cons_of_mem _ (ih hm)

/-- What happens has its moment. -/
theorem exists_moment {hs : List Happening} {x : Happening} (hx : x ∈ hs) :
    ∃ m ∈ w.moments hs, m.what = x := by
  induction hs generalizing w with
  | nil => cases hx
  | cons y hs ih =>
    rcases List.mem_cons.1 hx with rfl | hx
    · exact ⟨⟨w, x⟩, List.mem_cons_self .., rfl⟩
    · obtain ⟨m, hm, hwhat⟩ := ih hx (w := w.happen y)
      exact ⟨m, List.mem_cons_of_mem _ hm, hwhat⟩

/-- What comes before a moment. -/
theorem moments_split {hs : List Happening} {pre post : List Moment} {m : Moment}
    (h : w.moments hs = pre ++ m :: post) :
    ∃ hs₁ hs₂, hs = hs₁ ++ m.what :: hs₂ ∧ pre = w.moments hs₁ ∧ m.before = w.after hs₁ := by
  induction pre generalizing w hs with
  | nil =>
    cases hs with
    | nil => cases h
    | cons x hs =>
      obtain ⟨rfl, -⟩ := List.cons.inj h
      exact ⟨[], hs, rfl, rfl, rfl⟩
  | cons m₀ pre ih =>
    cases hs with
    | nil => cases h
    | cons x hs =>
      obtain ⟨rfl, hrest⟩ := List.cons.inj h
      have hrest' : (w.happen x).moments hs = pre ++ m :: post := hrest
      obtain ⟨hs₁, hs₂, rfl, rfl, hbefore⟩ := ih hrest'
      exact ⟨x :: hs₁, hs₂, rfl, rfl, hbefore⟩

theorem moments_take (w : World) (hs : List Happening) (n : ℕ) :
    w.moments (hs.take n) = (w.moments hs).take n := by
  induction hs generalizing w n with
  | nil => simp [moments]
  | cons h hs ih =>
    cases n with
    | zero => rfl
    | succ n => exact congrArg _ (ih _ n)

theorem moments_drop (w : World) (hs : List Happening) (n : ℕ) :
    (w.after (hs.take n)).moments (hs.drop n) = (w.moments hs).drop n := by
  induction hs generalizing w n with
  | nil => simp [moments]
  | cons h hs ih =>
    cases n with
    | zero => rfl
    | succ n => exact ih _ n

/-- The world after the first `n` things that happen in a run. -/
def during (w : World) (ops : List Op) (n : ℕ) : World := w.after ((w.history ops).take n)

/-- At the end everything has happened. -/
theorem during_length (w : World) (ops : List Op) :
    w.during ops (w.history ops).length = (w.run ops).2 := by
  rw [during, List.take_length, run_snd]

theorem before_of_moments {hs : List Happening} {i : ℕ} {m : Moment}
    (hm : (w.moments hs)[i]? = some m) : m.before = w.after (hs.take i) := by
  induction hs generalizing w i with
  | nil => cases hm
  | cons h hs ih =>
    cases i with
    | zero =>
      obtain rfl := Option.some.inj hm
      rfl
    | succ i => exact ih hm

theorem what_of_moments {hs : List Happening} {i : ℕ} {m : Moment}
    (hm : (w.moments hs)[i]? = some m) : hs[i]? = some m.what := by
  induction hs generalizing w i with
  | nil => cases hm
  | cons x hs ih =>
    cases i with
    | zero =>
      obtain rfl := Option.some.inj hm
      rfl
    | succ i => exact ih hm

/-- The moments of a run, by number. -/
theorem before_of_story {ops : List Op} {i : ℕ} {m : Moment}
    (hm : (w.story ops)[i]? = some m) : m.before = w.during ops i := before_of_moments hm

/-- What happens between two moments of a run. -/
theorem during_of_le (w : World) (ops : List Op) {n m : ℕ} (h : n ≤ m) :
    w.during ops m = (w.during ops n).after (((w.history ops).take m).drop n) := by
  unfold during
  rw [← after_append]
  congr 1
  conv_lhs => rw [← List.take_append_drop n ((w.history ops).take m)]
  rw [List.take_take, Nat.min_eq_left h]

/-- The moments of a run from one number to another. -/
theorem moments_between (w : World) (ops : List Op) {n j : ℕ} (h : n ≤ j) :
    (w.during ops n).moments (((w.history ops).take j).drop n) =
      ((w.story ops).take j).drop n := by
  have hdrop := w.moments_drop ((w.history ops).take j) n
  rw [List.take_take, Nat.min_eq_left h, moments_take] at hdrop
  exact hdrop

/-- What happens between two moments of a run belongs to the run. -/
theorem mem_story_of_between {ops : List Op} {n i : ℕ} {m : Moment}
    (hm : m ∈ (w.during ops n).moments (((w.history ops).take i).drop n)) : m ∈ w.story ops := by
  rcases Nat.le_total n i with hle | hle
  · rw [moments_between w ops hle] at hm
    exact List.mem_of_mem_take (List.mem_of_mem_drop hm)
  · rw [List.drop_eq_nil_of_le (by simp; omega)] at hm
    cases hm

theorem during_succ (w : World) (ops : List Op) {n : ℕ} {x : Happening}
    (hx : (w.history ops)[n]? = some x) : w.during ops (n + 1) = (w.during ops n).happen x := by
  unfold during
  rw [List.take_add_one, hx, after_append]
  rfl

end World

/-- The world afterwards. -/
def Moment.after (m : Moment) : World := m.before.happen m.what

/-- The world after a moment of a run. -/
theorem World.during_of_story {w : World} {ops : List Op} {i : ℕ} {m : Moment}
    (hm : (w.story ops)[i]? = some m) : w.during ops (i + 1) = m.after := by
  rw [World.during_succ w ops (World.what_of_moments hm), ← World.before_of_story hm]
  rfl

end CdmaCall
