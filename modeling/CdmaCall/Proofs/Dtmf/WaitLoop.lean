import CdmaCall.Proofs.Dtmf.Outstanding
import CdmaCall.Proofs.Session.Clone
import CdmaCall.Scenario

/-!
# Waiting for a burst to be confirmed

A script that waits for a confirmation looks again and again, each time after as long as a phone
takes to confirm. It looks before the timers that are due at that very time, so nothing may have
come in the first time. Afterwards each wait in which it still finds a burst outstanding takes a
timer off the clock (`Confirming.wait`), and there are only so many to come: the script is done
after at most one wait more than the workload (`confirmed_of_workload`), as `Scenario.burstDtmf` is
whatever the configuration (`burstDtmfRun_confirmed`).
-/

namespace CdmaCall

section Defs

/-- Connection `c` is attended, no event waits, and phones confirm by themselves within `ms`. -/
structure World.Confirming (w : World) (c : ConnId) (ms : ℕ) : Prop where
  orderly : w.Orderly
  attended : w.Attended c
  caughtUp : w.CaughtUp
  backed : w.Backed
  held : w.heldFor c = 0
  unasked : none ∉ w.delays
  within : w.ConfirmsWithin ms
  soon : w.Soon ms

/-- The world in which a scripted call on `leg` starts. -/
def Scenario.fresh (c : Config) (phone : Phone) (leg : Leg) : World :=
  { toneType := c.dtmf.toneType
    emergency := ⟨c.numbers⟩
    phones := [phone]
    legs := [leg] }

end Defs

namespace World

open Scene

variable {w : World} {c : ConnId} {k : Conn} {l : LegId} {leg : Leg} {o : Options}
  {ms limit fuel n : ℕ} {t : Timer Delivery}

/-! ### The workload of a wait -/

section Workload

theorem workload_runTimers (hw : w.Orderly) (limit fuel : ℕ) :
    (runTimers limit fuel w).workload ≤ w.workload := by
  induction fuel generalizing w with
  | zero => exact le_rfl
  | succ fuel ih =>
    unfold runTimers
    cases hn : w.clock.next? limit with
    | none => exact le_rfl
    | some next =>
      obtain ⟨hnext, hload, -⟩ := orderly_next hw hn
      exact (ih hnext).trans hload.le

/-- Where a timer comes due, less is left to do. -/
theorem workload_runTimers_lt (hw : w.Orderly) (hfuel : w.workload ≤ fuel)
    (ht : t ∈ w.clock.pending) (hdue : t.due ≤ limit) :
    (runTimers limit fuel w).workload < w.workload := by
  have hpos : 0 < w.workload := Nat.add_pos_left (List.length_pos_of_mem ht) _
  cases fuel with
  | zero => omega
  | succ fuel =>
    unfold runTimers
    cases hn : w.clock.next? limit with
    | none => exact absurd (Clock.next?_eq_none hn t ht) (by omega)
    | some next =>
      obtain ⟨hnext, hload, -⟩ := orderly_next hw hn
      exact (workload_runTimers hnext limit fuel).trans_lt hload

/-- A wait stops just before the timers that are due at its end. -/
theorem wait_succ (w : World) (hn : n + 1 ≤ Clock.longest) : w.wait (n + 1) =
    { w.advance n with
      clock := { (w.advance n).clock with now := (w.advance n).clock.now + 1 } } := by
  unfold wait
  rw [Clock.bounded, Nat.min_eq_left hn]

end Workload

/-! ### Waits -/

section Waits

theorem Confirming.timers (h : w.Confirming c ms) (hfuel : w.workload ≤ fuel)
    (hnow : w.clock.now ≤ limit) : (runTimers limit fuel w).Confirming c ms := by
  have hfits := fitting_timers h.orderly hfuel hnow
  obtain ⟨⟨hdelays, hbacked, hheld, hsoon⟩, -⟩ :=
    keeps (P := fun _ => True)
      (R := fun v => v.delays = w.delays ∧ v.Backed ∧ v.heldFor c = 0 ∧ v.Soon ms)
      (fun v x hv hf _ ⟨hdelays, hbacked, hheld, hsoon⟩ => by
        have hself : v.SelfConfirms c := selfConfirms_of_delays (hdelays ▸ h.unasked) c
        have hwithin : v.ConfirmsWithin ms := fun delay hd => h.within delay (hdelays ▸ hd)
        have hheld' := (heldFor_happen hv hself x).trans hheld.le
        exact ⟨(delays_happen hv x).trans hdelays, hbacked.happen hv x, Nat.le_zero.1 hheld',
          hsoon.happen hv hf hwithin⟩)
      h.orderly hfits (fun _ _ => trivial) ⟨rfl, h.backed, h.held, h.soon⟩
  rw [runTimers_eq]
  exact ⟨h.orderly.after hfits, (h.attended.after fun x hx => not_leaves_timers hx).1,
    (caughtUp_timers h.orderly h.caughtUp).1, hbacked, hheld, hdelays ▸ h.unasked,
    fun delay hd => h.within delay (hdelays ▸ hd), hsoon⟩

/-- An outstanding burst is confirmed by a timer. -/
theorem Confirming.exists_timer (h : w.Confirming c ms) (hbusy : w.busy c = true) :
    ∃ t ∈ w.clock.pending, t.job = ⟨c, .burstConfirmed⟩ :=
  exists_running h.backed h.attended h.caughtUp h.held hbusy

/-- **One wait.** Afterwards the next confirmation comes within less than a wait. If that was so
before, a burst that was outstanding leaves less to do. -/
theorem Confirming.wait (h : w.Confirming c ms) (hpos : 0 < ms) (hms : ms ≤ Clock.longest) :
    (w.wait ms).Confirming c ms ∧ (w.wait ms).Soon (ms - 1) ∧
      (w.wait ms).workload ≤ w.workload ∧
      (w.Soon (ms - 1) → w.busy c = true → (w.wait ms).workload < w.workload) := by
  obtain ⟨n, rfl⟩ : ∃ n, ms = n + 1 := ⟨ms - 1, by omega⟩
  have hadvance : (w.advance n).Confirming c (n + 1) := h.timers le_rfl (Nat.le_add_right _ _)
  have hdue : ∀ t ∈ (w.advance n).clock.pending, (w.advance n).clock.now < t.due := by
    have hlimit := due_timers h.orderly le_rfl (Nat.le_add_right w.clock.now n)
    exact fun t ht => hlimit.1.trans_lt (hlimit.2 t ht)
  have hclock := hadvance.orderly.clock
  rw [wait_succ w hms]
  refine ⟨⟨{ hadvance.orderly with clock := ⟨hclock.young, hclock.distinct, hdue⟩ },
    hadvance.attended, hadvance.caughtUp, hadvance.backed, hadvance.held, hadvance.unasked,
    hadvance.within, fun t ht he => ?_⟩, fun t ht he => ?_, ?_, fun hsoon hbusy => ?_⟩
  · exact (hadvance.soon t ht he).trans (by dsimp only; omega)
  · exact (hadvance.soon t ht he).trans (by dsimp only; omega)
  · exact workload_runTimers h.orderly _ _
  · obtain ⟨t, ht, hjob⟩ := h.exists_timer hbusy
    exact workload_runTimers_lt h.orderly le_rfl ht (hsoon t ht (by rw [hjob]))

end Waits

/-! ### Connecting -/

section Connecting

/-- A connection that is made on a leg that does not wait is new, and sets no deadline. -/
theorem new_connect (hw : w.Orderly) (hdue : ∀ t ∈ w.clock.pending, w.clock.now < t.due)
    (hleg : w.legs[l]? = some leg) (hstate : leg.state ≠ .waiting) :
    ∃ k, (w.step (.connect (some l) o)).2.conns[w.conns.length]? = some k ∧
      k.New o (some l) (some leg.state) := by
  have hbound : ∀ l', some l = some l' → l' < w.legs.length := by
    rintro l' ⟨⟩
    exact (List.getElem?_eq_some_iff.1 hleg).1
  obtain ⟨s, hin, hnew, hpending, hnow⟩ := new_build (o := o) hw hbound
  rw [Option.bind_some, hleg] at hnew
  have harm : (w.build (some l) o).2.armCourse w.conns.length = [] := by
    have hflag : s.conn.waiting = false := hnew.waiting.trans (by simpa using hstate)
    unfold armCourse
    rw [scene?_eq_some_iff.2 hin]
    simp [hflag]
  have hperform : (w.perform (.connect (some l) o)).2 = (w.build (some l) o).2 := by
    rw [perform_snd, course, connectCourse, harm, List.append_nil, build_eq]
  have hsettled : ∀ t ∈ (w.build (some l) o).2.clock.pending,
      (w.build (some l) o).2.clock.now < t.due := by
    rw [← hin.clock, hnow]
    exact fun t ht => hdue t (hpending t ht)
  refine ⟨s.conn, ?_, hnew⟩
  show (w.perform (.connect (some l) o)).2.settle.conns[w.conns.length]? = _
  rw [hperform, settle_of_due hsettled]
  exact hin.conn

/-- **Who makes a call and handles its events** attends to it. -/
theorem attended_connect (hw : w.Orderly) (hdue : ∀ t ∈ w.clock.pending, w.clock.now < t.due)
    (hleg : w.legs[l]? = some leg) (hstate : leg.state ≠ .waiting) :
    (w.run [.connect (some l) o, .drive w.conns.length]).2.Attended w.conns.length := by
  obtain ⟨k, hk, hnew⟩ := new_connect (o := o) hw hdue hleg hstate
  have hreceived : k.mailbox.receiverGone = false := by rw [hnew.mailbox]
  exact attended_drive (hw.step (.connect (some l) o)) hk hnew.opened hreceived

end Connecting

end World

namespace Scenario

open World

variable {r : Run} {ms fuel : ℕ}

/-! ### Scripts that wait -/

namespace Run

theorem act_world (r : Run) (ops : List Op) : (r.act ops).world = (r.world.run ops).2 := rfl

theorem awaitsConfirmation_say (r : Run) (text : String) :
    (r.say text).awaitsConfirmation = r.awaitsConfirmation := rfl

/-- Once the next confirmation comes within less than a wait, each wait counts. -/
theorem confirmed_of_soon (h : r.world.Confirming call ms) (hsoon : r.world.Soon (ms - 1))
    (hpos : 0 < ms) (hms : ms ≤ Clock.longest) (hfuel : r.world.workload ≤ fuel) :
    (r.pauseWhileAwaiting ms fuel).awaitsConfirmation = false := by
  induction fuel generalizing r with
  | zero =>
    show r.world.busy call = false
    rw [Bool.eq_false_iff]
    intro hbusy
    obtain ⟨t, ht, -⟩ := h.exists_timer hbusy
    have hlength : 0 < r.world.workload := Nat.add_pos_left (List.length_pos_of_mem ht) _
    omega
  | succ fuel ih =>
    rw [pauseWhileAwaiting]
    split_ifs with hbusy
    · obtain ⟨hnext, hsoon', -, hless⟩ := h.wait hpos hms
      have hload := hless hsoon hbusy
      exact ih hnext hsoon' (Nat.le_of_lt_succ (hload.trans_le hfuel))
    · simpa using hbusy

/-- **A script that waits for its confirmations gets them**, if it is ready to wait once more than
there are timers to come. -/
theorem confirmed_of_workload (h : r.world.Confirming call ms) (hpos : 0 < ms)
    (hms : ms ≤ Clock.longest) (hfuel : r.world.workload < fuel) :
    (r.pauseWhileAwaiting ms fuel).awaitsConfirmation = false := by
  cases fuel with
  | zero => omega
  | succ fuel =>
    rw [pauseWhileAwaiting]
    split_ifs with hbusy
    · obtain ⟨hnext, hsoon, hload, -⟩ := h.wait hpos hms
      exact confirmed_of_soon hnext hsoon hpos hms (hload.trans (Nat.le_of_lt_succ hfuel))
    · simpa using hbusy

end Run

theorem start_eq (c : Config) (phone : Phone) (leg : Leg) (direction : Direction) :
    start c phone leg direction = Run.act { world := fresh c phone leg }
      [.connect (some callLeg) (.ofConfig c direction), .drive call] := rfl

theorem fresh_fresh (c : Config) {phone : Phone} {leg : Leg} (hheld : phone.held = [])
    (hsubscribers : phone.subscribers = []) (hactions : phone.actions = []) :
    (fresh c phone leg).Fresh :=
  ⟨rfl, rfl, by simp [fresh, hheld], by simp [fresh, hsubscribers], by simp [fresh, hactions]⟩

/-- **A scripted call whose phone confirms by itself** has its confirmations come, whatever is asked
for after it was made, but that it is not closed. -/
theorem confirming_start (c : Config) {phone : Phone} {leg : Leg} {direction : Direction}
    {delay : ℕ} {ops : List Op} (hfresh : (fresh c phone leg).Fresh)
    (hdelay : phone.confirmDelay = some delay) (hstate : leg.state ≠ .waiting)
    (hops : .close call ∉ ops) :
    ((start c phone leg direction).act ops).world.Confirming call delay := by
  set making : List Op := [.connect (some callLeg) (.ofConfig c direction), .drive call]
  set w := ((fresh c phone leg).run making).2
  have hattended : w.Attended call :=
    attended_connect hfresh.orderly (by simp [fresh]) (List.getElem?_cons_zero ..) hstate
  have hreachable : (w.run ops).2.Reachable := ⟨_, making ++ ops, hfresh, (run_append _ _ _).symm⟩
  have hdelays : (w.run ops).2.delays = [some delay] := by
    rw [← run_append, (delays_run hfresh.orderly _).1]
    simp [delays, fresh, hdelay]
  have hunasked : none ∉ (w.run ops).2.delays := by simp [hdelays]
  have hwithin : (w.run ops).2.ConfirmsWithin delay := fun n hn => by
    rw [hdelays, List.mem_singleton, Option.some.injEq] at hn
    exact hn.le
  rw [start_eq, Run.act_world, Run.act_world]
  exact ⟨hreachable.orderly, (attended_story hattended hops).1, hreachable.caughtUp,
    hreachable.backed, hreachable.heldFor hunasked call, hunasked, hwithin,
    hreachable.soon hwithin⟩

/-- **The wait of `Scenario.burstDtmf` ends**, whatever the configuration: when the script goes on
no confirmation is awaited any more. -/
theorem burstDtmfRun_confirmed (c : Config) : (burstDtmfRun c).awaitsConfirmation = false := by
  let phone : Phone := { id := 0, confirmDelay := some confirmTime }
  have hconfirming : ((start c phone (talking "5550100") .outgoing).act
      [.keys call keys]).world.Confirming call confirmTime :=
    confirming_start c (fresh_fresh c rfl rfl rfl) rfl (by decide) (by simp)
  unfold burstDtmfRun
  dsimp only
  rw [Run.awaitsConfirmation_say]
  exact Run.confirmed_of_workload hconfirming (by decide) (by decide) (Nat.lt_succ_self _)

end Scenario

end CdmaCall
