import CdmaCall.Proofs.World.Orderly

/-!
# The workload bounds the timers to come

Handling an event never makes the workload grow, and each timer that comes due takes one off it. An
advance is therefore over only when no timer is due any more (`due_advanceTo`), and everything in
the history of a run fits where it happens (`fitting_history`).
-/

namespace CdmaCall

namespace Scene

variable {s s' : Scene} {full : Bool}

/-- The part of the workload that a connection has to do with. -/
def load (s : Scene) : ℕ :=
  s.clock.pending.length + if s.conn.tones.queue.isEmpty then 0 else 1

/-- The tones are left alone. -/
theorem tones_bit (h : Bit full s s') : s'.conn.tones = s.conn.tones := by
  cases h with
  | perform =>
    rename_i a h
    rw [perform_eq_of_not_burst s h]
  | hangUp => unfold hangUp; cases s.leg <;> rfl
  | correct => unfold onLineControl; cases s.leg <;> rfl
  | _ => rfl

theorem load_bit (h : Bit full s s') : s'.load ≤ s.load := by
  have htones := tones_bit h
  have hpending : s'.clock.pending.length ≤ s.clock.pending.length := by
    cases h with
    | perform =>
      rename_i a h
      rw [perform_eq_of_not_burst s h]
    | disarm =>
      unfold disarm Guard.disarm
      cases s.conn.guard.armed with
      | none => exact le_rfl
      | some d => exact List.length_filter_le ..
    | hangUp => unfold hangUp; cases s.leg <;> exact le_rfl
    | correct => unfold onLineControl; cases s.leg <;> exact le_rfl
    | _ => exact le_rfl
  unfold load
  rw [htones]
  omega

theorem load_path (h : Path full s s') : s'.load ≤ s.load :=
  Path.keeps (fun _ _ hb (ht : Scene.load _ ≤ s.load) => (load_bit hb).trans ht) h le_rfl

/-- A burst starts at most one timer. -/
theorem length_burst (s : Scene) (t : Transmitter) (digits : List Char) :
    (s.perform (t.burstOf digits)).clock.pending.length ≤ s.clock.pending.length + 1 := by
  cases hp : s.phone with
  | none => simp [perform, hp]
  | some p =>
    cases hd : p.confirmDelay with
    | none => simp [perform_burst_kept s t digits hp hd]
    | some delay => simp [perform_burst_delayed s t digits hp hd, Clock.start]

/-- A request of the phone leaves the connection alone. -/
theorem conn_perform (s : Scene) (a : Action) : (s.perform a).conn = s.conn := by
  unfold perform
  cases s.phone with
  | none => rfl
  | some p => dsimp only; split <;> rfl

theorem conn_perform? (s : Scene) (a : Option Action) : (s.perform? a).conn = s.conn := by
  cases a with
  | none => rfl
  | some a => exact conn_perform s a

theorem tones_perform (s : Scene) (a : Action) : (s.perform a).conn.tones = s.conn.tones :=
  congrArg (·.tones) (conn_perform s a)

/-- **Handling an event does not add to the workload.** What a confirmation starts, the queue that
it empties makes up for. -/
theorem load_handle (s : Scene) (e : Event) : (s.handle e).load ≤ s.load := by
  by_cases he : e = .burstConfirmed
  · subst he
    unfold handle
    split_ifs
    · exact le_rfl
    · rcases onBurstConfirmed_cases s with ⟨-, h⟩ | ⟨hq, -, h⟩
      · rw [h]
        simp [load, putTones, Transmitter.discard]
      · have hlen := length_burst ((s.putTones s.conn.tones.discard.2).putTones
          { s.conn.tones.discard.2 with pending := true }) s.conn.tones.discard.2
          s.conn.tones.queue
        rw [h]
        unfold load
        rw [tones_perform]
        simpa [putTones, Transmitter.discard, hq] using hlen
  · exact load_path (path_handle s he)

theorem load_fetch (s : Scene) : s.fetch.load ≤ s.load := by
  unfold fetch
  cases s.conn.mailbox.waiting with
  | nil => exact le_rfl
  | cons e rest => exact load_handle _ e

end Scene

namespace World

open Scene

variable {w : World} {c : ConnId} {s s' : Scene} {limit : ℕ}

theorem Within.workload (h : Within w c s) (s' : Scene) :
    (w.putScene c s').workload + s.load = w.workload + s'.load := by
  obtain ⟨hlt, hconn⟩ := List.getElem?_eq_some_iff.1 h.conn
  have hle : (if !s.conn.tones.queue.isEmpty then 1 else 0) ≤
      w.conns.countP (!·.tones.queue.isEmpty) := by
    split_ifs with hq
    · exact List.countP_pos_iff.2 ⟨_, List.mem_of_getElem? h.conn, hq⟩
    · exact Nat.zero_le _
  have hset := List.countP_set (p := fun k : Conn => !k.tones.queue.isEmpty) (a := s'.conn) hlt
  unfold World.workload load
  rw [putScene_conns, putScene_clock, hset, hconn, h.clock]
  cases hs : s.conn.tones.queue.isEmpty <;> cases hs' : s'.conn.tones.queue.isEmpty <;>
    simp only [hs, Bool.not_true, Bool.not_false, Bool.false_eq_true, if_true, if_false]
      at hle ⊢ <;>
    omega

theorem workload_onScene {f : Scene → Scene} (hf : ∀ s, (f s).load ≤ s.load) :
    (w.onScene c f).workload ≤ w.workload := by
  rcases within_or_le w c with ⟨s, h⟩ | h
  · have hput := h.workload (f s)
    have hle := hf s
    rw [onScene_of_within h]
    omega
  · rw [onScene_of_none h]

theorem workload_hand (w : World) (d : Delivery) : (w.hand d).workload ≤ w.workload :=
  workload_onScene fun _ => le_rfl

theorem workload_fetches (n : ℕ) (w : World) (c : ConnId) :
    (w.after (List.replicate n (.deed c .fetch))).workload ≤ w.workload := by
  induction n generalizing w with
  | zero => exact le_rfl
  | succ n ih => exact (ih _).trans (workload_onScene load_fetch)

theorem ready_eq_fetches (w : World) (c : ConnId) :
    ∃ n, w.ready c = List.replicate n (.deed c .fetch) := by
  unfold ready
  cases w.conns[c]? with
  | none => exact ⟨0, rfl⟩
  | some k =>
    dsimp only
    split_ifs
    · exact ⟨_, rfl⟩
    · exact ⟨0, rfl⟩

theorem workload_deliver (w : World) (d : Delivery) : (w.deliver d).2.workload ≤ w.workload := by
  obtain ⟨n, hn⟩ := (w.hand d).ready_eq_fetches d.target
  rw [deliver_eq, hn]
  exact (workload_fetches n _ _).trans (workload_hand w d)

/-- A timer that comes due takes one off the workload. -/
theorem workload_next (hw : w.Orderly) {d : Delivery} {clock : Clock Delivery}
    (hn : w.clock.next? limit = some (d, clock)) :
    ({ w with clock } : World).workload + 1 = w.workload := by
  obtain ⟨t, ht, -, -, -, rfl⟩ := Clock.next?_eq_some hn
  have hlen := hw.clock.countP_cancel ht fun _ => true
  simp only [List.countP_true, if_true] at hlen
  unfold workload
  dsimp only
  omega

/-! ### Everything in a history fits -/

/-- Each of the happenings fits where it comes about. -/
def Fitting (w : World) : List Happening → Prop
  | [] => True
  | h :: hs => h.Fits w ∧ (w.happen h).Fitting hs

theorem fitting_append {hs hs' : List Happening} :
    w.Fitting (hs ++ hs') ↔ w.Fitting hs ∧ (w.after hs).Fitting hs' := by
  induction hs generalizing w with
  | nil => exact ⟨fun h => ⟨trivial, h⟩, fun h => h.2⟩
  | cons h hs ih => simp only [List.cons_append, Fitting, after_cons, ih, and_assoc]

theorem fitting_deeds (ds : List Deed) (w : World) (c : ConnId) :
    w.Fitting (ds.map (.deed c)) := by
  induction ds generalizing w with
  | nil => trivial
  | cons d ds ih => exact ⟨trivial, ih _⟩

theorem fitting_fetches (n : ℕ) (w : World) (c : ConnId) :
    w.Fitting (List.replicate n (.deed c .fetch)) := by
  have h := fitting_deeds (List.replicate n .fetch) w c
  rwa [List.map_replicate] at h

theorem fitting_ready (w : World) (c : ConnId) : w.Fitting (w.ready c) := by
  obtain ⟨n, hn⟩ := w.ready_eq_fetches c
  rw [hn]
  exact fitting_fetches n w c

theorem Orderly.after {hs : List Happening} (hw : w.Orderly) (hf : w.Fitting hs) :
    (w.after hs).Orderly := by
  induction hs generalizing w with
  | nil => exact hw
  | cons h hs ih => exact ih (hw.happen hf.1) hf.2

/-- **What is kept by whatever fits holds at every moment.** -/
theorem keeps {R : World → Prop} {P : Happening → Prop}
    (hR : ∀ w h, w.Orderly → h.Fits w → P h → R w → R (w.happen h)) {hs : List Happening}
    (hw : w.Orderly) (hf : w.Fitting hs) (hP : ∀ h ∈ hs, P h) (hr : R w) :
    R (w.after hs) ∧ ∀ m ∈ w.moments hs, R m.before := by
  induction hs generalizing w with
  | nil => exact ⟨hr, fun m hm => absurd hm List.not_mem_nil⟩
  | cons h hs ih =>
    have hr' := hR w h hw hf.1 (hP h (List.mem_cons_self ..)) hr
    have hrest : ∀ h' ∈ hs, P h' := fun h' hh' => hP h' (List.mem_cons_of_mem _ hh')
    obtain ⟨hend, hall⟩ := ih (hw.happen hf.1) hf.2 hrest hr'
    refine ⟨hend, fun m hm => ?_⟩
    rcases List.mem_cons.1 hm with rfl | hm
    · exact hr
    · exact hall m hm

/-! #### Timers -/

theorem now_deed (hw : w.Orderly) (c : ConnId) (d : Deed) :
    (w.happen (.deed c d)).clock.now = w.clock.now := by
  rcases within_or_le w c with ⟨s, h⟩ | h
  · rw [happen, onScene_of_within h, putScene_clock, (onward_act (hw.timed h) d).now, h.clock]
  · rw [happen, onScene_of_none h]

theorem now_fetches (n : ℕ) (hw : w.Orderly) (c : ConnId) :
    (w.after (List.replicate n (.deed c .fetch))).clock.now = w.clock.now := by
  induction n generalizing w with
  | zero => rfl
  | succ n ih => exact (ih (hw.deed c .fetch)).trans (now_deed hw c .fetch)

theorem now_deliver (hw : w.Orderly) (d : Delivery) :
    (w.deliver d).2.clock.now = w.clock.now := by
  obtain ⟨n, hn⟩ := (w.hand d).ready_eq_fetches d.target
  rw [deliver_eq, hn, now_fetches n (hw.hand d)]
  exact now_deed hw d.target (.post d.event)

theorem Orderly.deliver (hw : w.Orderly) (d : Delivery) : (w.deliver d).2.Orderly := by
  rw [deliver_eq]
  exact (hw.hand d).after (fitting_ready _ _)

/-- After a timer that came due the world is in order, with less work to do, and not too late. -/
theorem orderly_next (hw : w.Orderly) {d : Delivery} {clock : Clock Delivery}
    (hn : w.clock.next? limit = some (d, clock)) :
    let w' := (({ w with clock } : World).deliver d).2
    w'.Orderly ∧ w'.workload < w.workload ∧ w'.clock.now ≤ limit := by
  have hload := workload_next hw hn
  have hdeliver := workload_deliver ({ w with clock } : World) d
  obtain ⟨t, -, -, hle, -, hclock⟩ := Clock.next?_eq_some hn
  refine ⟨(hw.next hn).deliver d, by omega, ?_⟩
  rw [now_deliver (hw.next hn)]
  subst hclock
  exact hle

/-- **There is fuel for every timer.** When it is used up, no timer is due. -/
theorem fitting_timers {fuel : ℕ} (hw : w.Orderly) (hfuel : w.workload ≤ fuel)
    (hnow : w.clock.now ≤ limit) : w.Fitting (timerCourse limit fuel w) := by
  induction fuel generalizing w with
  | zero =>
    have hnone : w.clock.pending = [] := by
      unfold workload at hfuel
      exact List.eq_nil_of_length_eq_zero (by omega)
    exact ⟨⟨hnow, fun t ht => by simp [hnone] at ht⟩, trivial⟩
  | succ fuel ih =>
    cases hn : w.clock.next? limit with
    | none =>
      rw [timerCourse_none hn]
      exact ⟨⟨hnow, Clock.next?_eq_none hn⟩, trivial⟩
    | some next =>
      obtain ⟨d, clock⟩ := next
      obtain ⟨hnext, hload, hle⟩ := orderly_next hw hn
      rw [timerCourse_some hn]
      refine ⟨trivial, fitting_append.2 ⟨fitting_ready _ _, ?_⟩⟩
      rw [← deliver_next hn]
      exact ih hnext (by omega) hle

theorem fitting_settle (hw : w.Orderly) : w.Fitting w.settleCourse :=
  fitting_timers hw le_rfl le_rfl

/-- An advance ends at its limit, and no timer due by then is left. -/
theorem due_timers {fuel : ℕ} (hw : w.Orderly) (hfuel : w.workload ≤ fuel)
    (hnow : w.clock.now ≤ limit) :
    (runTimers limit fuel w).clock.now = limit ∧
      ∀ t ∈ (runTimers limit fuel w).clock.pending, limit < t.due := by
  induction fuel generalizing w with
  | zero =>
    have hf : w.Fitting _ := fitting_timers hw hfuel hnow
    exact ⟨rfl, hf.1.2⟩
  | succ fuel ih =>
    unfold runTimers
    cases hn : w.clock.next? limit with
    | none => exact ⟨rfl, Clock.next?_eq_none hn⟩
    | some next =>
      obtain ⟨d, clock⟩ := next
      obtain ⟨hnext, hload, hle⟩ := orderly_next hw hn
      exact ih hnext (by omega) hle

/-! #### Requests -/

theorem onScene_legs_length (w : World) (c : ConnId) (f : Scene → Scene) :
    (w.onScene c f).legs.length = w.legs.length := by
  unfold onScene
  cases w.scene? c with
  | none => rfl
  | some s => exact putScene_legs_length

theorem fitting_bind (w : World) (c : ConnId) (l : LegId) : w.Fitting (w.bindCourse c l) := by
  unfold bindCourse
  split_ifs with hl
  · refine ⟨trivial, ?_, trivial, trivial, trivial⟩
    exact hl.trans_eq (onScene_legs_length w c (·.act .unregister)).symm
  · trivial

theorem fitting_build (w : World) (leg : Option LegId) (o : Options) :
    w.Fitting (w.buildCourse leg o) := by
  unfold buildCourse
  rw [List.cons_append]
  refine ⟨trivial, fitting_append.2 ⟨?_, trivial, trivial⟩⟩
  cases leg with
  | none => trivial
  | some l => exact fitting_bind _ _ l

theorem fitting_connect (w : World) (leg : Option LegId) (o : Options) :
    w.Fitting (w.connectCourse leg o) := by
  refine fitting_append.2 ⟨fitting_build w leg o, ?_⟩
  unfold armCourse
  split
  · trivial
  · split_ifs
    · exact ⟨trivial, trivial⟩
    · exact ⟨trivial, trivial, trivial⟩
    · trivial

theorem fitting_broadcast (cs : List ConnId) (w : World) : w.Fitting (w.broadcastCourse cs) := by
  induction cs generalizing w with
  | nil => trivial
  | cons c rest ih =>
    refine ⟨trivial, fitting_append.2 ⟨fitting_ready _ _, ?_⟩⟩
    have hdeliver := deliver_eq w ⟨c, .lineControl⟩
    exact hdeliver ▸ ih _

theorem fitting_course (hw : w.Orderly) (op : Op) : w.Fitting (w.course op) := by
  cases op with
  | connect leg o => exact fitting_connect w leg o
  | advance ms => exact fitting_timers hw le_rfl (Nat.le_add_right _ _)
  | confirm p =>
    rw [course, confirmCourse]
    split
    · trivial
    · exact ⟨trivial, fitting_ready _ _⟩
  | broadcast p => exact fitting_broadcast _ w
  | rebind c l =>
    rw [course]
    split
    · trivial
    · split_ifs
      · trivial
      · exact fitting_bind w c l
  | cloneConn c =>
    rw [course]
    split
    · trivial
    · exact fitting_build w _ _
  | drain c =>
    rw [course, drainCourse]
    split
    · trivial
    · exact fitting_fetches _ w c
  | drive c =>
    rw [course, driveCourse]
    split
    · trivial
    · split_ifs
      · trivial
      · exact ⟨trivial, trivial, trivial⟩
      · exact ⟨trivial, fitting_fetches _ _ c⟩
  | _ => exact ⟨trivial, trivial⟩

theorem fitting_step (hw : w.Orderly) (op : Op) :
    w.Fitting (w.course op ++ (w.perform op).2.settleCourse) := by
  have hcourse := fitting_course hw op
  refine fitting_append.2 ⟨hcourse, ?_⟩
  rw [perform_snd]
  exact fitting_settle (hw.after hcourse)

theorem Orderly.step (hw : w.Orderly) (op : Op) : (w.step op).2.Orderly := by
  rw [step_snd]
  exact hw.after (fitting_step hw op)

/-- **Everything in a history fits.** -/
theorem fitting_history (hw : w.Orderly) (ops : List Op) : w.Fitting (w.history ops) := by
  induction ops generalizing w with
  | nil => trivial
  | cons op ops ih =>
    rw [history]
    refine fitting_append.2 ⟨fitting_step hw op, ?_⟩
    rw [← step_snd]
    exact ih (hw.step op)

theorem Orderly.run (hw : w.Orderly) (ops : List Op) : (w.run ops).2.Orderly := by
  rw [run_snd]
  exact hw.after (fitting_history hw ops)

/-- After a request no timer is due. -/
theorem due_step (hw : w.Orderly) (op : Op) :
    ∀ t ∈ (w.step op).2.clock.pending, (w.step op).2.clock.now < t.due := by
  have hperform : (w.perform op).2.Orderly := by
    rw [perform_snd]
    exact hw.after (fitting_course hw op)
  have hdue : (w.perform op).2.settle.clock.now = _ ∧ _ := due_timers hperform le_rfl le_rfl
  intro t ht
  exact hdue.1.symm ▸ hdue.2 t ht

/-! ### Where sessions start -/

/-- No connection was made, and no phone was used. -/
structure Fresh (w : World) : Prop where
  conns : w.conns = []
  pending : w.clock.pending = []
  held : ∀ p ∈ w.phones, p.held = []
  subscribers : ∀ p ∈ w.phones, p.subscribers = []
  actions : ∀ p ∈ w.phones, p.actions = []

theorem Fresh.orderly (h : w.Fresh) : w.Orderly where
  clock := ⟨by simp [h.pending], by simp [h.pending], by simp [h.pending]⟩
  targets := by simp [h.pending]
  held p hp i hi := by simp [h.held p hp] at hi
  known := by simp [h.conns]
  own := by simp [h.conns]
  bound := by simp [h.conns]
  shut := by simp [h.conns]

/-- A phone and a leg that it serves. -/
def served (leg : Leg) : World := { phones := [{ id := 0 }], legs := [leg] }

theorem fresh_served (leg : Leg) : (served leg).Fresh :=
  ⟨rfl, rfl, by simp [served], by simp [served], by simp [served]⟩

/-- A world that a session reaches. -/
def Reachable (w : World) : Prop := ∃ (start : World) (ops : List Op),
  start.Fresh ∧ w = (start.run ops).2

theorem Reachable.orderly (h : w.Reachable) : w.Orderly := by
  obtain ⟨start, ops, hfresh, rfl⟩ := h
  exact hfresh.orderly.run ops

end World

end CdmaCall
