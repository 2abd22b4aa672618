import CdmaCall.Proofs.Dispatch.Arrivals
import Mathlib.Data.List.Induction

/-!
# Events are dispatched once, on time and in order

A dispatcher serves requests, and its receiver takes what has arrived by the end of each. `Tracks`
tells the state of the dispatcher from the requests it has served, and is kept by one more
(`Tracks.step`). So whatever is requested in whatever order, the receiver is given just what
arrives, at its time and in order (`dispatched_on_time`). The time of a timer is the end of its
delay, or of thirty years if the delay is longer (`delivered_before_delay`).
-/

namespace CdmaCall

namespace Dispatcher

section Defs

/-- A dispatcher in use: what its requests returned, and what its receiver was given. -/
structure Service where
  dispatcher : Dispatcher := {}
  replies : List Reply := []
  received : List Event := []
  deriving DecidableEq, Repr

/-- One request; the receiver takes what has arrived by its end. -/
def Service.request (s : Service) (op : Op) : Service where
  dispatcher := (s.dispatcher.step op).2.receive.2
  replies := s.replies ++ [(s.dispatcher.step op).1]
  received := s.received ++ (s.dispatcher.step op).2.receive.1

/-- A new dispatcher after these requests. -/
def served (ops : List Op) : Service := ops.foldl Service.request {}

/-- A request without the passing of time. -/
def instant (d : Dispatcher) : Op → Dispatcher
  | .advance _ => d
  | op => (d.perform op).2

end Defs

variable {ops before : List Op} {op : Op} {i : ℕ} {t : Timer Event} {d : Dispatcher}

/-! ### One request at work -/

theorem post_all (m : Mailbox) (es : List Event) :
    es.foldl (fun m e => (m.post e).2) m =
      { m with waiting := m.waiting ++ if m.accepts then es else [] } := by
  induction es generalizing m with
  | nil => simp
  | cons e es ih =>
    rw [List.foldl_cons, ih]
    by_cases hm : m.accepts = true
    · have hpost : (m.post e).2 = { m with waiting := m.waiting ++ [e] } := by
        rw [Mailbox.post, if_pos hm]
      have hstill : Mailbox.accepts { m with waiting := m.waiting ++ [e] } = true := hm
      simp [hpost, hstill, hm]
    · have hpost : (m.post e).2 = m := by rw [Mailbox.post, if_neg hm]
      simp [hpost, hm]

/-- Moving the clock to `limit` delivers the timers that are due by then, in their order, if the
mailbox takes them in. -/
theorem advanceTo_spec (hd : d.clock.pending.Pairwise (·.id < ·.id)) (limit : ℕ) :
    ∃ ts : List (Timer Event), ts.Pairwise Timer.Before ∧
      (∀ t, t ∈ ts ↔ t ∈ d.clock.pending ∧ t.due ≤ limit) ∧
      d.advanceTo limit = { d with
        clock := { d.clock with
          now := limit, pending := d.clock.pending.filter (limit < ·.due) }
        mailbox := { d.mailbox with
          waiting := d.mailbox.waiting ++ if d.mailbox.accepts then ts.map (·.job) else [] } } := by
  obtain ⟨ts, hsort, hmem, htake⟩ := Clock.takeDue_spec hd limit
  exact ⟨ts, hsort, hmem, by simp only [advanceTo, htake, post_all]⟩

/-- Once the clock has been moved nothing is left to settle. -/
theorem settle_advanceTo (hd : d.clock.pending.Pairwise (·.id < ·.id)) (limit : ℕ) :
    (d.advanceTo limit).settle = d.advanceTo limit := by
  obtain ⟨ts, -, -, heq⟩ := advanceTo_spec hd limit
  have hlate : ∀ t ∈ (d.advanceTo limit).clock.pending, limit < t.due := by
    intro t ht
    rw [heq] at ht
    exact of_decide_eq_true (List.mem_filter.1 ht).2
  have hnow : (d.advanceTo limit).clock.now = limit := by rw [heq]
  have hd' : (d.advanceTo limit).clock.pending.Pairwise (·.id < ·.id) := by
    rw [heq]
    exact hd.filter _
  obtain ⟨us, -, hus, heq'⟩ := advanceTo_spec hd' (d.advanceTo limit).clock.now
  have hnone : us = [] := List.eq_nil_iff_forall_not_mem.2 fun t ht => by
    obtain ⟨hp, hdue⟩ := (hus t).1 ht
    have := hlate t hp
    omega
  have hall : (d.advanceTo limit).clock.pending.filter ((d.advanceTo limit).clock.now < ·.due)
      = (d.advanceTo limit).clock.pending :=
    List.filter_eq_self.2 fun t ht => decide_eq_true (by rw [hnow]; exact hlate t ht)
  rw [settle, heq', hall, hnone]
  simp

/-- A request takes effect at once, and then the clock moves. -/
theorem step_eq (hd : d.clock.pending.Pairwise (·.id < ·.id)) (op : Op) :
    (d.step op).2 = (d.instant op).advanceTo (d.clock.now + op.wait) := by
  cases op with
  | advance ms => exact settle_advanceTo hd _
  | _ => rfl

/-- The state of a dispatcher, told from the requests it has served. -/
structure Tracks (ops : List Op) (d : Dispatcher) : Prop where
  now : d.clock.now = elapsed ops
  next : d.clock.nextId = posted ops
  shut : d.mailbox.shutDown = true ↔ .shutdown ∈ ops
  gone : d.mailbox.receiverGone = true ↔ .dropReceiver ∈ ops
  taken : d.mailbox.waiting = []
  cancelled : ∀ timer, timer ∈ d.cancelled ↔ .cancel timer ∈ ops
  ordered : d.clock.pending.Pairwise (·.id < ·.id)
  pending : ∀ t, t ∈ d.clock.pending ↔ ∃ i, Kept ops i t ∧ elapsed ops < t.due

theorem Tracks.accepts (h : Tracks ops d) : d.mailbox.accepts = true ↔ Open ops := by
  simp only [Mailbox.accepts, Bool.and_eq_true, Bool.not_eq_true', Open, ← h.shut, ← h.gone,
    Bool.not_eq_true]

theorem Tracks.start : Tracks [] {} where
  now := rfl
  next := rfl
  shut := by simp
  gone := by simp
  taken := rfl
  cancelled := by simp
  ordered := .nil
  pending t := by simp [Kept, Started]

theorem Tracks.young (h : Tracks ops d) (ht : t ∈ d.clock.pending) : t.id < posted ops := by
  obtain ⟨i, ⟨⟨e, delay, hop, rfl⟩, -⟩, -⟩ := (h.pending t).1 ht
  have := posted_take_lt hop (lt_of_getElem? hop)
  rwa [List.take_length] at this

/-- The timers before the clock moves: the old ones that the request does not cancel, and the one it
starts. -/
theorem Tracks.instant_pending (h : Tracks ops d) (op : Op) :
    (d.instant op).clock.pending.Pairwise (·.id < ·.id) ∧
    ∀ t, t ∈ (d.instant op).clock.pending ↔
      ∃ i, Kept (ops ++ [op]) i t ∧ (elapsed ops < t.due ∨ i = ops.length) := by
  -- a request that neither starts nor cancels leaves the timers alone
  have hsame : op.starts = false → (∀ timer, op ≠ .cancel timer) →
      (d.instant op).clock = d.clock →
      (d.instant op).clock.pending.Pairwise (·.id < ·.id) ∧
      ∀ t, t ∈ (d.instant op).clock.pending ↔
        ∃ i, Kept (ops ++ [op]) i t ∧ (elapsed ops < t.due ∨ i = ops.length) := by
    intro hstart hcancel hclock
    refine ⟨hclock ▸ h.ordered, fun t => ?_⟩
    rw [hclock, h.pending]
    refine exists_congr fun i => ?_
    rw [kept_snoc]
    constructor
    · rintro ⟨hkept, hlate⟩
      exact ⟨.inl ⟨hkept, hcancel _⟩, .inl hlate⟩
    · rintro ⟨⟨hkept, -⟩ | ⟨-, e, delay, rfl, -⟩, hlate⟩
      · exact ⟨hkept, hlate.resolve_right (Nat.ne_of_lt hkept.1.lt)⟩
      · exact absurd hstart (by simp [Op.starts])
  cases op with
  | postDelayed e delay =>
    have hpending : (d.instant (.postDelayed e delay)).clock.pending =
        d.clock.pending ++ [⟨posted ops, elapsed ops + Clock.bounded delay, e⟩] := by
      rw [← h.next, ← h.now]
      rfl
    rw [hpending]
    refine ⟨List.pairwise_append.2 ⟨h.ordered, List.pairwise_singleton .., fun u hu v hv => ?_⟩,
      fun t => ?_⟩
    · rw [List.mem_singleton.1 hv]
      exact h.young hu
    · rw [List.mem_append, List.mem_singleton, h.pending]
      constructor
      · rintro (⟨i, hkept, hlate⟩ | rfl)
        · exact ⟨i, kept_snoc.2 (.inl ⟨hkept, by simp⟩), .inl hlate⟩
        · exact ⟨_, kept_snoc.2 (.inr ⟨rfl, e, delay, rfl, rfl⟩), .inr rfl⟩
      · rintro ⟨i, hkept, hlate⟩
        rcases kept_snoc.1 hkept with ⟨hold, -⟩ | ⟨-, e', delay', heq, rfl⟩
        · exact .inl ⟨i, hold, hlate.resolve_right (Nat.ne_of_lt hold.1.lt)⟩
        · obtain ⟨rfl, rfl⟩ := Op.postDelayed.inj heq
          exact .inr rfl
  | cancel timer =>
    refine ⟨h.ordered.filter _, fun t => ?_⟩
    refine Clock.mem_cancel.trans ?_
    rw [h.pending]
    constructor
    · rintro ⟨⟨i, hkept, hlate⟩, hid⟩
      exact ⟨i, kept_snoc.2 (.inl ⟨hkept, fun heq => hid (Op.cancel.inj heq).symm⟩), .inl hlate⟩
    · rintro ⟨i, hkept, hlate⟩
      rcases kept_snoc.1 hkept with ⟨hold, hid⟩ | ⟨-, e, delay, heq, -⟩
      · exact ⟨⟨i, hold, hlate.resolve_right (Nat.ne_of_lt hold.1.lt)⟩,
          fun heq => hid (by rw [heq])⟩
      · simp at heq
  | _ => exact hsame rfl (by simp) rfl

/-- The mailbox before the clock moves: what the request posts at once, if the dispatcher is open. -/
theorem Tracks.instant_mailbox (h : Tracks ops d) (op : Op) :
    (d.instant op).mailbox.waiting = (if Open ops then op.posts.toList else []) ∧
    ((d.instant op).mailbox.shutDown = true ↔ .shutdown ∈ ops ++ [op]) ∧
    ((d.instant op).mailbox.receiverGone = true ↔ .dropReceiver ∈ ops ++ [op]) := by
  have hpost : ∀ e, (d.mailbox.post e).2 =
      { d.mailbox with waiting := if Open ops then [e] else [] } := by
    intro e
    by_cases hopen : Open ops
    · simp [Mailbox.post, h.accepts.2 hopen, hopen, h.taken]
    · simp [Mailbox.post, mt h.accepts.1 hopen, hopen, ← h.taken]
  have hshut := h.shut
  have hgone := h.gone
  cases op with
  | confirm =>
    have heq : (d.instant .confirm).mailbox = (d.mailbox.post .burstConfirmed).2 := rfl
    rw [heq, hpost]
    simp [hshut, hgone, Op.posts]
  | notify =>
    have heq : (d.instant .notify).mailbox = (d.mailbox.post .lineControl).2 := rfl
    rw [heq, hpost]
    simp [hshut, hgone, Op.posts]
  | _ => simp [instant, perform, postDelayed, cancel, shutdown, dropReceiver, Mailbox.shutdown,
      Mailbox.dropReceiver, hshut, hgone, h.taken, Op.posts]

/-- One request more. Its events are what it posts at once, and then the timers that come due within
it, if the dispatcher is open. -/
theorem Tracks.step (h : Tracks ops d) (op : Op) :
    Tracks (ops ++ [op]) (d.step op).2.receive.2 ∧
    ∃ ts : List (Timer Event), ts.Pairwise Timer.Before ∧
      (∀ t, t ∈ ts ↔ (∃ i, Kept (ops ++ [op]) i t ∧ (elapsed ops < t.due ∨ i = ops.length)) ∧
        t.due ≤ elapsed (ops ++ [op])) ∧
      (d.step op).2.receive.1 =
        if Open ops then op.posts.toList ++ ts.map (·.job) else [] := by
  obtain ⟨hordered, hpending⟩ := h.instant_pending op
  obtain ⟨hwaiting, hshut, hgone⟩ := h.instant_mailbox op
  obtain ⟨ts, hsort, hmem, heq⟩ := advanceTo_spec hordered (elapsed (ops ++ [op]))
  have hlimit : d.clock.now + op.wait = elapsed (ops ++ [op]) := by
    rw [h.now, elapsed_append, elapsed_singleton]
  have hstep : (d.step op).2 = (d.instant op).advanceTo (elapsed (ops ++ [op])) := by
    rw [step_eq h.ordered, hlimit]
  have hnow : elapsed ops ≤ elapsed (ops ++ [op]) := by simp
  have haccepts : (d.instant op).mailbox.accepts = true ↔ Open (ops ++ [op]) := by
    simp only [Mailbox.accepts, Bool.and_eq_true, Bool.not_eq_true', Open, ← hshut, ← hgone,
      Bool.not_eq_true]
  refine ⟨?_, ts, hsort, fun t => by rw [hmem, hpending], ?_⟩
  · rw [hstep, heq]
    refine ⟨rfl, ?_, hshut, hgone, rfl, fun timer => ?_, hordered.filter _, fun t => ?_⟩
    · cases op <;> simp [instant, perform, postDelayed, cancel, post, shutdown, dropReceiver,
        Clock.start, Clock.cancel, posted, Op.starts, receive, h.next]
    · cases op <;> simp [instant, perform, postDelayed, cancel, post, shutdown, dropReceiver,
        receive, h.cancelled, or_comm]
    · show t ∈ (d.instant op).clock.pending.filter _ ↔ _
      rw [List.mem_filter, hpending]
      simp only [decide_eq_true_eq]
      constructor
      · rintro ⟨⟨i, hkept, -⟩, hdue⟩
        exact ⟨i, hkept, hdue⟩
      · rintro ⟨i, hkept, hdue⟩
        exact ⟨⟨i, hkept, .inl (Nat.lt_of_le_of_lt hnow hdue)⟩, hdue⟩
  · rw [hstep, heq]
    show (d.instant op).mailbox.waiting ++ _ = _
    rw [hwaiting]
    by_cases hopen : Open ops
    · by_cases hnew : Open (ops ++ [op])
      · simp [hopen, haccepts.2 hnew]
      · -- closing takes no time, and nothing that was left is due
        have hclose : op = .shutdown ∨ op = .dropReceiver := by
          by_contra hne
          exact hnew (open_snoc.2 ⟨hopen, fun heq => hne (.inl heq), fun heq => hne (.inr heq)⟩)
        have hquick : op.wait = 0 ∧ op.starts = false ∧ op.posts = none := by
          rcases hclose with rfl | rfl <;> exact ⟨rfl, rfl, rfl⟩
        have hnone : ts = [] := List.eq_nil_iff_forall_not_mem.2 fun t ht => by
          rw [hmem, hpending, elapsed_append, elapsed_singleton, hquick.1] at ht
          obtain ⟨⟨i, hkept, hlate⟩, hdue⟩ := ht
          exact absurd hdue (Nat.not_le_of_lt (hkept.late_of_not_starts hquick.2.1 hlate))
        simp [hopen, mt haccepts.1 hnew, hnone, hquick.2.2]
    · have hnew : ¬Open (ops ++ [op]) := fun hnew => hopen (open_snoc.1 hnew).1
      simp [hopen, mt haccepts.1 hnew]

theorem Tracks.reply (h : Tracks ops d) (op : Op) : (d.step op).1 = answer ops op := by
  have hpost : ∀ e, (d.post e).1 = decide (Open ops) := by
    intro e
    by_cases hopen : Open ops
    · simp [post, Mailbox.post, h.accepts.2 hopen, hopen]
    · simp [post, Mailbox.post, mt h.accepts.1 hopen, hopen]
  cases op with
  | postDelayed e delay => exact congrArg Reply.handle h.next
  | confirm => exact congrArg Reply.taken (hpost _)
  | notify => exact congrArg Reply.taken (hpost _)
  | _ => rfl

/-! ### A whole history -/

theorem served_snoc (ops : List Op) (op : Op) :
    served (ops ++ [op]) = (served ops).request op := by
  simp [served]

theorem tracks_served (ops : List Op) : Tracks ops (served ops).dispatcher := by
  induction ops using List.reverseRecOn with
  | nil => exact .start
  | append_singleton ops op ih =>
    rw [served_snoc]
    exact (ih.step op).1

theorem length_replies (ops : List Op) : (served ops).replies.length = ops.length := by
  induction ops using List.reverseRecOn with
  | nil => rfl
  | append_singleton ops op ih => simp [served_snoc, Service.request, ih]

theorem replies_served (ops : List Op) {i : ℕ} {op : Op} (hop : ops[i]? = some op) :
    (served ops).replies[i]? = some (answer (ops.take i) op) := by
  induction ops using List.reverseRecOn with
  | nil => simp at hop
  | append_singleton ops last ih =>
    have hreplies : (served (ops ++ [last])).replies =
        (served ops).replies ++ [answer ops last] := by
      rw [served_snoc, Service.request, (tracks_served ops).reply]
    rw [hreplies, getElem?_snoc]
    rcases getElem?_snoc.1 hop with hold | ⟨rfl, rfl⟩
    · rw [take_snoc (Nat.le_of_lt (lt_of_getElem? hold))]
      exact .inl (ih hold)
    · rw [List.take_left, length_replies]
      exact .inr ⟨rfl, rfl⟩

theorem Arrives.lt {x : Arrival} (h : Arrives ops x) : x.request < ops.length := by
  cases h <;> exact lt_of_getElem? ‹_›

theorem Arrives.reached {x : Arrival} (h : Arrives ops x) : x.time ≤ elapsed ops := by
  cases h with
  | timer _ _ _ hreached _ => exact hreached
  | _ => exact elapsed_take_le ops _

/-- A request delivers one event at most. -/
theorem Arrives.unique {x y : Arrival} (hx : Arrives ops x) (hy : Arrives ops y)
    (h : x.request = y.request) : x = y := by
  cases hx <;> cases hy <;> simp only at h <;> subst h <;> grind [Op.posts]

/-- Timers in their order are deliveries in their order, each with the request that started it. -/
theorem exists_labelled {ts : List (Timer Event)} (hsort : ts.Pairwise Timer.Before)
    (hstarted : ∀ t ∈ ts, ∃ i, Started ops i t) :
    ∃ xs : List Arrival, xs.Pairwise Arrival.Before ∧
      (∀ x, x ∈ xs ↔ ∃ i, ∃ t ∈ ts, Started ops i t ∧ x = ⟨t.due, i, t.job⟩) ∧
      xs.map (·.event) = ts.map (·.job) := by
  choose! label hlabel using hstarted
  refine ⟨ts.map fun t => ⟨t.due, label t, t.job⟩, ?_, fun x => ?_, by simp [Function.comp_def]⟩
  · rw [List.pairwise_map]
    refine hsort.imp_of_mem fun {t u} ht hu htu => ?_
    rcases htu with hlt | ⟨heq, hid⟩
    · exact .inl hlt
    · exact .inr ⟨heq, (hlabel t ht).lt_of_id (hlabel u hu) hid⟩
  · rw [List.mem_map]
    constructor
    · rintro ⟨t, ht, rfl⟩
      exact ⟨label t, t, ht, hlabel t ht, rfl⟩
    · rintro ⟨i, t, ht, hi, rfl⟩
      exact ⟨t, ht, by rw [(hlabel t ht).unique hi]⟩

/-- The deliveries of one more request, in their order. -/
theorem exists_fresh (ops : List Op) (op : Op) :
    ∃ fresh : List Arrival, fresh.Pairwise Arrival.Before ∧
      (∀ x, Arrives (ops ++ [op]) x ↔ Arrives ops x ∨ x ∈ fresh) ∧
      (∀ x ∈ fresh, elapsed ops < x.time ∨ elapsed ops = x.time ∧ x.request = ops.length) ∧
      (served (ops ++ [op])).received = (served ops).received ++ fresh.map (·.event) := by
  obtain ⟨-, ts, hsort, hmem, hevents⟩ := (tracks_served ops).step op
  have hreceived : (served (ops ++ [op])).received = (served ops).received ++
      if Open ops then op.posts.toList ++ ts.map (·.job) else [] := by
    rw [served_snoc, Service.request, hevents]
  by_cases hopen : Open ops
  case neg =>
    refine ⟨[], .nil, fun x => ?_, by simp, ?_⟩
    · rw [arrives_snoc]
      simp [hopen]
    · rw [hreceived, if_neg hopen, List.map_nil]
  case pos =>
    obtain ⟨late, hlate, hlabel, hjobs⟩ := exists_labelled hsort fun t ht =>
      let ⟨⟨i, hkept, _⟩, _⟩ := (hmem t).1 ht
      ⟨i, hkept.1⟩
    have hripe : ∀ x, x ∈ late ↔ ∃ i t, Kept (ops ++ [op]) i t ∧
        (elapsed ops < t.due ∨ i = ops.length) ∧ t.due ≤ elapsed (ops ++ [op]) ∧
        x = ⟨t.due, i, t.job⟩ := by
      intro x
      rw [hlabel]
      constructor
      · rintro ⟨i, t, ht, hstarted, rfl⟩
        obtain ⟨⟨i', hkept, hi⟩, hreached⟩ := (hmem t).1 ht
        obtain rfl := hstarted.unique hkept.1
        exact ⟨i, t, hkept, hi, hreached, rfl⟩
      · rintro ⟨i, t, hkept, hi, hreached, rfl⟩
        exact ⟨i, t, (hmem t).2 ⟨⟨i, hkept, hi⟩, hreached⟩, hkept.1, rfl⟩
    have hposted : ∀ x, x ∈ op.posts.toList.map (⟨elapsed ops, ops.length, ·⟩ : Event → Arrival) ↔
        ∃ e, op.posts = some e ∧ x = ⟨elapsed ops, ops.length, e⟩ := by
      simp [eq_comm]
    refine ⟨op.posts.toList.map (⟨elapsed ops, ops.length, ·⟩) ++ late,
      List.pairwise_append.2 ⟨by cases op.posts <;> simp, hlate, fun x hx y hy => ?_⟩,
      fun x => ?_, fun x hx => ?_, ?_⟩
    · obtain ⟨e, he, rfl⟩ := (hposted x).1 hx
      obtain ⟨i, t, hkept, hi, -, rfl⟩ := (hripe y).1 hy
      have hstarts : op.starts = false := by cases op <;> first | rfl | cases he
      exact .inl (hkept.late_of_not_starts hstarts hi)
    · rw [arrives_snoc, List.mem_append, hposted, hripe]
      simp [hopen]
    · rcases List.mem_append.1 hx with hx | hx
      · obtain ⟨e, -, rfl⟩ := (hposted x).1 hx
        exact .inr ⟨rfl, rfl⟩
      · obtain ⟨i, t, hkept, hi, -, rfl⟩ := (hripe x).1 hx
        exact hkept.late hi
    · rw [hreceived, if_pos hopen, List.map_append, hjobs]
      simp [Function.comp_def]

/-- The deliveries of a history in their order, and what each beginning of it has delivered. -/
theorem exists_arrivals (ops : List Op) :
    ∃ arrivals : List Arrival, arrivals.Pairwise Arrival.Before ∧
      (∀ x, x ∈ arrivals ↔ Arrives ops x) ∧
      ∀ before, before <+: ops →
        (served before).received = (arrivals.filter (·.ByThen before)).map (·.event) := by
  induction ops using List.reverseRecOn with
  | nil =>
    refine ⟨[], .nil, fun x => ⟨by simp, fun h => absurd h.lt (by simp)⟩, fun before hb => ?_⟩
    rw [List.prefix_nil.1 hb]
    rfl
  | append_singleton ops op ih =>
    obtain ⟨old, hsort, hold, hreceived⟩ := ih
    obtain ⟨fresh, hfresh, hnew, hlate, hevents⟩ := exists_fresh ops op
    have hcross : ∀ x ∈ old, ∀ y ∈ fresh, x.Before y := by
      intro x hx y hy
      have hx' := (hold x).1 hx
      rcases hlate y hy with hlt | ⟨htime, hlast⟩
      · exact .inl (Nat.lt_of_le_of_lt hx'.reached hlt)
      · rcases Nat.lt_or_eq_of_le (htime ▸ hx'.reached) with hlt | heq
        · exact .inl hlt
        · exact .inr ⟨heq, hlast ▸ hx'.lt⟩
    refine ⟨old ++ fresh, List.pairwise_append.2 ⟨hsort, hfresh, hcross⟩,
      fun x => by rw [List.mem_append, hold, hnew], fun before hb => ?_⟩
    rcases List.prefix_concat_iff.1 hb with rfl | hb
    · have hall : ∀ x ∈ old ++ fresh, x.ByThen (ops ++ [op]) := by
        intro x hx
        have hx' : Arrives (ops ++ [op]) x := by rwa [hnew, ← hold, ← List.mem_append]
        exact ⟨hx'.lt, hx'.reached⟩
      have hself : ∀ x ∈ old, x.ByThen ops := fun x hx =>
        ⟨((hold x).1 hx).lt, ((hold x).1 hx).reached⟩
      rw [hevents, hreceived ops (List.prefix_refl _),
        List.filter_eq_self.2 fun x hx => decide_eq_true (hself x hx),
        List.filter_eq_self.2 fun x hx => decide_eq_true (hall x hx), List.map_append]
    · have hnone : fresh.filter (·.ByThen before) = [] := by
        refine List.filter_eq_nil_iff.2 fun x hx hby => ?_
        obtain ⟨hrequest, htime⟩ := of_decide_eq_true hby
        have htime' := elapsed_mono hb
        have hlen := hb.length_le
        rcases hlate x hx with hlt | ⟨-, hlast⟩ <;> omega
      rw [hreceived before hb, List.filter_append, hnone, List.append_nil]

/-- **Events are dispatched exactly once, on time and in order.** What arrives is just what is read
off the requests, one delivery for a request at most, and by the end of each request the receiver
was given what is due by then, ordered by time and then by the requests. A timer is due when its
delay is over, or as soon as `Clock.longest` has passed if that is less. A confirmation or a
notification is answered by whether it was taken. A timer counts as cancelled once it was, or once
the dispatcher was shut down, whether or not it has fired. -/
theorem dispatched_on_time (ops : List Op) :
    (∃ arrivals : List Arrival, arrivals.Pairwise Arrival.Before ∧
      (arrivals.map (·.request)).Nodup ∧
      (∀ x, x ∈ arrivals ↔ Arrives ops x) ∧
      ∀ before, before <+: ops →
        (served before).received = (arrivals.filter (·.ByThen before)).map (·.event)) ∧
    (∀ i op, ops[i]? = some op → (served ops).replies[i]? = some (answer (ops.take i) op)) ∧
    ∀ timer, (served ops).dispatcher.isCancelled timer = true ↔
      .cancel timer ∈ ops ∨ .shutdown ∈ ops := by
  refine ⟨?_, fun i op => replies_served ops, fun timer => ?_⟩
  · obtain ⟨arrivals, hsort, hmem, hreceived⟩ := exists_arrivals ops
    refine ⟨arrivals, hsort, ?_, hmem, hreceived⟩
    have hne : arrivals.Pairwise (·.request ≠ ·.request) := by
      refine hsort.imp_of_mem fun {x y} hx hy hxy heq => ?_
      obtain rfl := ((hmem x).1 hx).unique ((hmem y).1 hy) heq
      rcases hxy with h | ⟨-, h⟩ <;> exact Nat.lt_irrefl _ h
    exact List.pairwise_map.2 hne
  · have h := tracks_served ops
    rw [isCancelled, Bool.or_eq_true, h.shut, List.contains_iff_mem, h.cancelled, or_comm]

/-- Two timers with equal deadlines, a confirmation before them, and one cancelled too late. -/
example :
    (served [.postDelayed (.missed 0) 5, .postDelayed .lineControl 3, .confirm,
      .postDelayed (.missed 1) 5, .advance 5, .cancel 0, .shutdown, .notify]).received =
      [.burstConfirmed, .lineControl, .missed 0, .missed 1] := by decide

/-- **A delay of more than thirty years is cut short**: its event arrives before the delay is over. -/
theorem delivered_before_delay :
    let delay := Clock.longest + 1
    let ops : List Op := [.postDelayed .lineControl delay, .advance Clock.longest]
    elapsed ops < delay ∧ (served ops).received = [.lineControl] := by
  intro delay ops
  exact ⟨by decide +kernel, by decide +kernel⟩

end Dispatcher

end CdmaCall
