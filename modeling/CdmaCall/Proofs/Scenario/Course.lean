import CdmaCall.Proofs.Dtmf.WaitLoop
import CdmaCall.Proofs.Lifecycle.Closed
import CdmaCall.Proofs.Line.Registry
import CdmaCall.Proofs.Waiting.Deadline

/-!
# The course of a scripted call

A script makes one connection, handles its events as they arrive, and closes it at the end. In
between it asks for nothing that makes, binds or closes a connection, so the call stays `InCall`:
the connection is open and bound, and of subscriptions its phone has heard once, before anything
else. What a phone was asked for stays on record (`record_grows`), and nothing but binding and
closing writes into its book, so one happening keeps this (`InCall.happen`), and so does whatever a
script does (`Ongoing.act`, `Ongoing.pause`). Closing gives the subscription up and leaves nothing
that a timer could still reach (`runTimers_shut`), so that is the last request of all, and the
handling of events is over (`Ongoing.finish`). Each of the five scenarios is such a call
(`play_logged`).
-/

namespace CdmaCall

section Defs

/-- Something neither makes, binds nor closes a connection. -/
structure Happening.Steady (x : Happening) : Prop where
  binding : x.isBinding = false
  making : ∀ o, x ≠ .enlist o
  closing : ∀ c, x ≠ .deed c .close

/-- Whether a request neither makes, binds nor closes a connection. -/
def Op.isSteady : Op → Bool
  | .connect .. | .cloneConn _ | .rebind .. | .close _ => false
  | _ => true

/-- A phone was asked to subscribe connection `c` before anything else, and for no subscription
since. -/
structure Phone.Serving (p : Phone) (c : ConnId) : Prop where
  first : [.register c] <+: p.actions
  only : p.actions.filter (·.isBooking) = [.register c]

namespace Scenario

/-- The connection of a script is the only one, open, and bound to a leg whose phone serves it. -/
structure InCall (w : World) : Prop where
  orderly : w.Orderly
  alone : w.conns.length = 1
  opened : ∃ k, w.conns[call]? = some k ∧ k.closed = false
  bound : w.phoneAt call = some callPhone
  serving : ∃ p, w.phones[callPhone]? = some p ∧ p.Serving call

/-- A script between the making of its connection and the end. -/
structure Run.Ongoing (r : Run) : Prop where
  inCall : InCall r.world
  driven : r.world.Drives call

/-- The phone was asked first to subscribe the connection, last to give that up, and for no other
subscription; and the handling of events is over. -/
structure Ending.Logged (e : Ending) : Prop where
  log : ∃ between, e.actions = .register call :: between ++ [.unregister call] ∧
    ∀ a ∈ between, a.isBooking = false
  loop : ∃ k, e.closed.world.conns[call]? = some k ∧ k.loopState = .finished

end Scenario

end Defs

namespace World

open Scene

variable {w : World} {c : ConnId} {k : Conn} {p : PhoneId} {phone : Phone} {x : Happening} {op : Op}

/-! ### What stays on record -/

section Records

/-- **What a phone was asked for stays on record.** -/
theorem record_grows (hw : w.Orderly) (hp : w.phones[p]? = some phone) (x : Happening) :
    ∃ phone', (w.happen x).phones[p]? = some phone' ∧ phone.actions <+: phone'.actions := by
  have hsame {v : World} (h : v.phones.map (·.actions) = w.phones.map (·.actions)) :
      ∃ phone', v.phones[p]? = some phone' ∧ phone.actions <+: phone'.actions := by
    have hget := congrArg (·[p]?) h
    simp only [List.getElem?_map, hp, Option.map_some] at hget
    obtain ⟨phone', hphone', hactions⟩ := Option.map_eq_some_iff.1 hget
    exact ⟨phone', hphone', hactions ▸ List.prefix_rfl⟩
  by_cases hx : ∃ c d, x = .deed c d
  · obtain ⟨c, d, rfl⟩ := hx
    rcases within_or_le w c with ⟨s, hin⟩ | hle
    · obtain ⟨as, hasks, -⟩ := asks_act (hw.timed hin) d
      rw [hin.happen_deed]
      rcases hin.phones_putScene hasks with ⟨-, heq⟩ | ⟨q, old, new, -, hold, hset, hactions⟩
      · exact hsame heq
      · by_cases hq : q = p
        · subst hq
          obtain rfl := Option.some.inj (hp.symm.trans hold)
          have hlt : q < w.phones.length := (List.getElem?_eq_some_iff.1 hp).1
          exact ⟨new, by rw [hset, List.getElem?_set_self hlt], hactions ▸ List.prefix_append _ _⟩
        · exact ⟨phone, by rw [hset, List.getElem?_set_ne hq, hp], List.prefix_rfl⟩
    · exact hsame (by rw [happen, onScene_of_none hle])
  · exact hsame (actions_happen fun c d he => hx ⟨c, d, he⟩)

end Records

/-! ### Steady requests -/

section Steady

theorem steady_timers {limit fuel : ℕ} (hx : x ∈ timerCourse limit fuel w) : x.Steady := by
  rcases mem_timerCourse hx with ⟨i, rfl⟩ | rfl | rfl <;> exact ⟨rfl, by simp, by simp⟩

/-- A steady request consists of nothing else. -/
theorem steady_course (hop : op.isSteady = true) (hx : x ∈ w.course op) : x.Steady := by
  have hfounds : op.founds = false := by cases op <;> first | rfl | cases hop
  have hplain (hfounding : x.isFounding = true) : False := by
    cases hfounds.symm.trans (founds_of_mem hx hfounding)
  refine ⟨?_, ?_, ?_⟩
  · rw [Bool.eq_false_iff]
    exact fun hbinding => hplain (Happening.isFounding_of_isBinding hbinding)
  · rintro o rfl
    exact hplain rfl
  · rintro c rfl
    rcases routine_or_asked hx with hroutine | hasked
    · cases hroutine.isRoutine
    · cases op <;> simp [Op.happening?] at hasked
      cases hop

end Steady

/-! ### Handling events as they arrive -/

section Driving

/-- Who begins to handle the events of a connection, or has begun before, goes on. -/
theorem drives_drive (hk : w.conns[c]? = some k) : (w.step (.drive c)).2.Drives c := by
  obtain ⟨s, hin, rfl⟩ := exists_within hk
  rw [step_snd, after_append]
  refine Drives.after ?_ _
  rw [course, driveCourse, hk]
  dsimp only
  split_ifs with hdriven
  · exact ⟨_, hk, hdriven⟩
  · exact (drives_attend hin).after _
  · exact (drives_attend hin).after _

end Driving

/-! ### Waits -/

section Waits

/-- A wait lets timers come due, and stops just before those that are due at its end. -/
theorem wait_cases (w : World) (ms : ℕ) : Clock.bounded ms = 0 ∧ w.wait ms = w ∨
    ∃ n v, Clock.bounded ms = n + 1 ∧ v = w.after (timerCourse (w.clock.now + n) w.workload w) ∧
      w.wait ms = { v with clock := { v.clock with now := v.clock.now + 1 } } := by
  unfold World.wait
  split
  · next hzero => exact .inl ⟨hzero, rfl⟩
  · next n hn =>
    refine .inr ⟨n, w.advance n, hn, ?_, rfl⟩
    exact runTimers_eq _ _ w

end Waits

/-! ### After the end -/

section Ends

/-- A timer finds nobody but the connection that is shut. -/
theorem deliver_alone (hconns : w.conns = [k]) (hshut : k.Shut) (d : Delivery) :
    (w.deliver d).2 = w := by
  obtain ⟨c, e⟩ := d
  cases c with
  | zero =>
    have hk : w.conns[0]? = some k := by rw [hconns]; rfl
    rw [deliver_shut hk hshut e]
  | succ c =>
    rw [deliver, inScene_snd]
    exact onScene_of_none (by simp [hconns]) _

/-- **Where the only connection is shut** timers move nothing but the clock. -/
theorem runTimers_shut (limit fuel : ℕ) (hconns : w.conns = [k]) (hshut : k.Shut) :
    ∃ clock, runTimers limit fuel w = { w with clock } := by
  induction fuel generalizing w with
  | zero => exact ⟨_, rfl⟩
  | succ fuel ih =>
    unfold runTimers
    rcases w.clock.next? limit with _ | ⟨d, clock⟩
    · exact ⟨_, rfl⟩
    · dsimp only
      rw [deliver_alone (w := { w with clock }) hconns hshut]
      exact ih hconns

end Ends

end World

namespace Scenario

open World Scene

variable {w : World} {x : Happening} {op : Op} {r : Run} {c : Config} {phone : Phone} {leg : Leg}
  {ms : ℕ}

/-! ### During the call -/

section During

/-- Another time makes no difference, as long as no timer is overdue. -/
theorem InCall.at {clock : Clock Delivery} (h : InCall w)
    (hclock : ({ w with clock } : World).Orderly) : InCall { w with clock } :=
  ⟨hclock, h.alone, h.opened, h.bound, h.serving⟩

/-- **One happening.** -/
theorem InCall.happen (h : InCall w) (hf : x.Fits w) (hx : x.Steady) : InCall (w.happen x) := by
  have hassign (l : LegId) : x ≠ .assign call l := by
    rintro rfl
    cases hx.binding
  refine ⟨h.orderly.happen hf, ?_, ?_, ?_, ?_⟩
  · rw [conns_length_happen hx.making, h.alone]
  · obtain ⟨k, hk, hopen⟩ := h.opened
    obtain ⟨k', hk', hchange⟩ := change_happen hk x
    exact ⟨k', hk', (hchange.closed (hx.closing call)).trans hopen⟩
  · rw [phoneAt_happen hassign (hx.closing call), h.bound]
  · obtain ⟨p, hp, hserving⟩ := h.serving
    obtain ⟨p', hp', hprefix⟩ := record_grows h.orderly hp x
    have hbooks := congrArg (·[callPhone]?) (book_happen (w := w) hx.binding hx.closing)
    simp only [List.getElem?_map, hp, hp', Option.map_some, Option.some.injEq] at hbooks
    have hbooked : p'.actions.filter (·.isBooking) = p.actions.filter (·.isBooking) :=
      congrArg Prod.snd hbooks
    exact ⟨p', hp', hserving.first.trans hprefix, hbooked.trans hserving.only⟩

theorem InCall.after {hs : List Happening} (h : InCall w) (hf : w.Fitting hs)
    (hhs : ∀ x ∈ hs, x.Steady) : InCall (w.after hs) :=
  (keeps (fun _ _ _ hf hx h => h.happen hf hx) h.orderly hf hhs h).1

theorem InCall.step (h : InCall w) (hop : op.isSteady = true) : InCall (w.step op).2 := by
  rw [step_snd]
  refine h.after (fitting_step h.orderly op) fun x hx => ?_
  rcases List.mem_append.1 hx with hx | hx
  · exact steady_course hop hx
  · exact steady_timers hx

theorem InCall.run {ops : List Op} (h : InCall w) (hops : ops.all Op.isSteady = true) :
    InCall (w.run ops).2 := by
  induction ops generalizing w with
  | nil => exact h
  | cons op ops ih =>
    obtain ⟨hop, hrest⟩ := Bool.and_eq_true_iff.1 hops
    exact ih (h.step hop) hrest

theorem InCall.wait (h : InCall w) (ms : ℕ) : InCall (w.wait ms) := by
  rcases wait_cases w ms with ⟨-, hsame⟩ | ⟨n, v, -, hv, hwait⟩
  · rw [hsame]
    exact h
  · have hle : w.clock.now ≤ w.clock.now + n := Nat.le_add_right _ _
    have hadvance : InCall v :=
      hv ▸ h.after (fitting_timers h.orderly le_rfl hle) fun x hx => steady_timers hx
    have hdue := due_timers h.orderly le_rfl hle
    rw [runTimers_eq, ← hv] at hdue
    have hsound := hadvance.orderly.clock
    rw [hwait]
    exact hadvance.at { hadvance.orderly with
      clock := ⟨hsound.young, hsound.distinct, fun t ht => hdue.1.trans_lt (hdue.2 t ht)⟩ }

namespace Run

@[simp] theorem world_goTo (r : Run) (w : World) : (r.goTo w).world = w := rfl

@[simp] theorem world_say (r : Run) (text : String) : (r.say text).world = r.world := rfl

theorem act_eq (r : Run) (ops : List Op) : r.act ops = r.goTo (r.world.run ops).2 := rfl

theorem act_pair (r : Run) (op op' : Op) :
    r.act [op, op'] = r.goTo ((r.world.step op).2.step op').2 := rfl

theorem pause_eq (r : Run) (ms : ℕ) : r.pause ms = r.goTo (r.world.wait ms) := rfl

theorem Ongoing.act (h : r.Ongoing) (ops : List Op) (hops : ops.all Op.isSteady = true) :
    (r.act ops).Ongoing := by
  refine ⟨h.inCall.run hops, ?_⟩
  rw [act_world, run_snd]
  exact h.driven.after _

theorem Ongoing.pause (h : r.Ongoing) (ms : ℕ) : (r.pause ms).Ongoing := by
  refine ⟨h.inCall.wait ms, ?_⟩
  rw [pause_eq, world_goTo]
  rcases wait_cases r.world ms with ⟨-, hsame⟩ | ⟨n, v, -, hv, hwait⟩
  · rw [hsame]
    exact h.driven
  · have hdriven : v.Drives call := hv ▸ h.driven.after _
    rw [hwait]
    exact hdriven

theorem Ongoing.say (h : r.Ongoing) (text : String) : (r.say text).Ongoing := ⟨h.inCall, h.driven⟩

theorem Ongoing.pauseWhileAwaiting (h : r.Ongoing) (ms fuel : ℕ) :
    (r.pauseWhileAwaiting ms fuel).Ongoing := by
  induction fuel generalizing r with
  | zero => exact h
  | succ fuel ih =>
    rw [Run.pauseWhileAwaiting]
    split_ifs
    · exact ih (h.pause ms)
    · exact h

end Run

end During

/-! ### Making the call -/

section Making

/-- A connection that is made on the only leg is subscribed first of all. -/
theorem inCall_connect (hfresh : (fresh c phone leg).Fresh) (hleg : leg.phone = some callPhone)
    (o : Options) : InCall ((fresh c phone leg).step (.connect (some callLeg) o)).2 := by
  set w := fresh c phone leg
  set binding : List Happening :=
    [.enlist o, .deed call .unregister, .assign call callLeg, .deed call .register]
  obtain ⟨rest, hcourse, hrest⟩ : ∃ rest, w.course (.connect (some callLeg) o) = binding ++ rest ∧
      ∀ x ∈ rest, x.Steady := by
    refine ⟨[.deed call .update, .deed call .mark] ++
      (w.build (some callLeg) o).2.armCourse w.conns.length, rfl, fun x hx => ?_⟩
    rcases List.mem_append.1 hx with hx | hx
    · simp only [List.mem_cons, List.not_mem_nil, or_false] at hx
      rcases hx with rfl | rfl <;> exact ⟨rfl, by simp, by simp⟩
    · rcases mem_armCourse hx with rfl | rfl <;> exact ⟨rfl, by simp, by simp⟩
  have hfits := fitting_step hfresh.orderly (.connect (some callLeg) o)
  rw [hcourse, List.append_assoc] at hfits
  obtain ⟨hbinding, hfits⟩ := fitting_append.1 hfits
  have hbound : InCall (w.after binding) := by
    have hactions : (phone.register call).actions = [.register call] :=
      congrArg (· ++ [Action.register call]) (hfresh.actions phone (List.mem_singleton_self _))
    obtain ⟨⟩ := leg
    subst hleg
    exact ⟨hfresh.orderly.after hbinding, rfl, ⟨_, rfl, rfl⟩, rfl, _, rfl,
      hactions ▸ List.prefix_rfl, by rw [hactions]; rfl⟩
  rw [step_snd, hcourse, List.append_assoc, after_append]
  refine hbound.after hfits fun x hx => ?_
  rcases List.mem_append.1 hx with hx | hx
  · exact hrest x hx
  · exact steady_timers hx

/-- **A scripted call on a leg of its phone** is one, as soon as it has started. -/
theorem start_ongoing (hfresh : (fresh c phone leg).Fresh) (hleg : leg.phone = some callPhone)
    (direction : Direction) : (start c phone leg direction).Ongoing := by
  have hmade := inCall_connect hfresh hleg (.ofConfig c direction)
  have hdrive : (Op.drive call).isSteady = true := rfl
  obtain ⟨k, hk, -⟩ := hmade.opened
  rw [start_eq, Run.act_pair]
  refine ⟨?_, ?_⟩ <;> rw [Run.world_goTo]
  · exact hmade.step hdrive
  · exact drives_drive hk

end Making

/-! ### Ending the call -/

section Finishing

/-- **Closing is the end of the record**, and of the handling of events. -/
theorem Run.Ongoing.finish (h : r.Ongoing) : r.finish.Logged := by
  obtain ⟨k, hk, hopen⟩ := h.inCall.opened
  obtain ⟨p, hp, hserving⟩ := h.inCall.serving
  obtain ⟨s, hin, rfl⟩ := exists_within hk
  have hdriven : s.conn.driven = true := by
    obtain ⟨k, hk, hdriven⟩ := h.driven
    exact hin.conn_eq hk ▸ hdriven
  have hphone : s.phone = some p := by
    rw [hin.phone, ← hin.phoneAt, h.inCall.bound]
    exact hp
  set v := r.world.onScene call close
  have hv : v = r.world.putScene call s.close := onScene_of_within hin _
  have hclose := close_eq s hopen
  have hconns : v.conns = [s.close.conn] := by
    obtain ⟨k, hsingle⟩ := List.length_eq_one_iff.1 h.inCall.alone
    rw [hv, putScene_conns, hsingle]
    rfl
  have hphones : v.phones[callPhone]? = some (p.unregister call) := by
    have hclosed : s.close.phone = some (p.unregister call) := by rw [hclose, hphone, hin.id]; rfl
    have hlt : callPhone < r.world.phones.length := (List.getElem?_eq_some_iff.1 hp).1
    rw [hv]
    show (place r.world.phones (r.world.phoneAt call) s.close.phone)[callPhone]? = _
    rw [h.inCall.bound, hclosed]
    exact List.getElem?_set_self hlt
  -- what is still on the clock reaches nobody
  obtain ⟨clock, hsettled⟩ := runTimers_shut v.clock.now v.workload hconns (shut_close hopen)
  have hworld : r.finish.closed.world = { v with clock } := hsettled
  obtain ⟨between, hbetween⟩ := hserving.first
  have honly := hserving.only
  rw [← hbetween, List.filter_append] at honly
  have hnone : between.filter (·.isBooking) = [] := List.append_cancel_left honly
  refine ⟨⟨between, ?_, ?_⟩, s.close.conn, ?_, ?_⟩
  · rw [Ending.actions, hworld]
    show ((v.phones[callPhone]?).map (·.actions)).getD [] = _
    rw [hphones]
    show p.actions ++ [.unregister call] = _
    rw [← hbetween]
    rfl
  · simpa using List.filter_eq_nil_iff.1 hnone
  · rw [hworld]
    show v.conns[call]? = _
    rw [hconns]
    rfl
  · have hstill : s.close.conn.driven = true := driven_act hdriven .close
    simp [Conn.loopState, hstill, closed_close]

/-- **Every scenario that can be played** has its call on record from the subscription to the end of
it, and handles events until then. -/
theorem play_logged (c : Config) (scenario : Scenario) {e : Ending}
    (he : play c scenario = .ok e) : e.Logged := by
  have hstart (confirmDelay : Option ℕ) (leg : Leg) (hleg : leg.phone = some callPhone)
      (direction : Direction) : (start c { id := 0, confirmDelay } leg direction).Ongoing :=
    start_ongoing (fresh_fresh c rfl rfl rfl) hleg direction
  cases scenario with
  | burstDtmf =>
    obtain rfl := Except.ok.inj he
    have hstarted := hstart (some confirmTime) (talking "5550100") rfl .outgoing
    have hkeys := hstarted.act [.keys call keys] rfl
    exact ((hkeys.pauseWhileAwaiting _ _).say _).finish
  | callWaitingMissed =>
    obtain rfl := Except.ok.inj he
    exact ((((hstart none waiting rfl .incoming).say _).pause _).say _).finish
  | callWaitingAnswered =>
    obtain rfl := Except.ok.inj he
    have hwaited := (hstart none waiting rfl .incoming).pause ((c.timeout.toNat + 1) / 2)
    have hanswered := hwaited.act [.answer call, .legState callLeg .active, .update call] rfl
    exact ((hanswered.pause _).say _).finish
  | emergencyDial =>
    rw [play] at he
    split at he
    · cases he
    · rename_i number _ _
      obtain rfl := Except.ok.inj he
      have hplaced := hstart none (placed ("tel:" ++ number)) rfl .outgoing
      exact ((((hplaced.say _).pause 500).act
        [.legState callLeg .active, .update call] rfl).say _).finish
  | lineControl =>
    obtain rfl := Except.ok.inj he
    have hrecord {r : Run} (h : r.Ongoing) :
        ((r.pause 250).act [.broadcast callPhone]).Ongoing :=
      (h.pause 250).act [.broadcast callPhone] rfl
    have hstarted := hstart none (talking "5550100") rfl .outgoing
    exact (((hrecord (hrecord (hrecord hstarted))).pause 50).say _).finish

end Finishing

end Scenario

end CdmaCall
