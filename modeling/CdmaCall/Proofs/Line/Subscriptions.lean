import CdmaCall.Proofs.Lifecycle.Closed
import CdmaCall.Proofs.Line.Registry

/-!
# What line control records reach

A record that arrives at a phone is handed to everybody who is subscribed there, and each who takes
it in gets it once (`countP_gets`). In every world that a session reaches these are just the open
connections that are bound to the phone and whose events somebody receives
(`subscriptions_follow_binding`).
-/

namespace CdmaCall

section Defs

/-- The events that wait for connection `c`. -/
def World.waiting (w : World) (c : ConnId) : List Event :=
  (w.conns[c]?.map (·.mailbox.waiting)).getD []

/-- Whether events can reach connection `c`. -/
def World.accepts (w : World) (c : ConnId) : Bool := w.conns[c]?.any (·.mailbox.accepts)

/-- Whether the event `e` is put into the mailbox of connection `c`. -/
def Moment.gets (c : ConnId) (e : Event) (m : Moment) : Bool :=
  m.after.waiting c == m.before.waiting c ++ [e]

/-- The open connections that are bound to the phone `p` and whose events somebody receives. -/
def World.listeners (w : World) (p : PhoneId) : List ConnId :=
  (List.range w.conns.length).filter fun c => w.phoneAt c == some p &&
    w.conns[c]?.any fun k => !k.closed && !k.mailbox.receiverGone

end Defs

namespace World

open Scene

variable {w : World} {c i : ConnId} {s : Scene}

/-! ### What one record does -/

theorem Within.waiting (h : Within w c s) : w.waiting c = s.conn.mailbox.waiting := by
  simp [World.waiting, h.conn]

theorem Within.accepts (h : Within w c s) : w.accepts c = s.conn.mailbox.accepts := by
  simp [World.accepts, h.conn]

theorem waiting_happen_other (hi : i ≠ c) (d : Deed) :
    (w.happen (.deed c d)).waiting i = w.waiting i := by
  unfold World.waiting
  rcases within_or_le w c with ⟨s, hin⟩ | hle
  · rw [hin.happen_deed, putScene_other hi]
  · rw [happen, onScene_of_none hle]

/-- An event arrives at nobody but the connection that it is for, if that one takes it. -/
theorem gets_post (w : World) (c i : ConnId) (e : Event) :
    Moment.gets i e ⟨w, .deed c (.post e)⟩ = (i == c && w.accepts c) := by
  show ((w.happen (.deed c (.post e))).waiting i == w.waiting i ++ [e]) = _
  by_cases hi : i = c
  · subst hi
    rcases within_or_le w i with ⟨s, hin⟩ | hle
    · have hwaits : (w.happen (.deed i (.post e))).waiting i =
          (s.conn.mailbox.post e).2.waiting := by
        rw [World.waiting, hin.conn_deed]
        rfl
      rw [hwaits, hin.waiting, hin.accepts, Mailbox.post]
      split_ifs with haccepts
      · simp [haccepts]
      · simp [haccepts]
    · have hnone : w.conns[i]? = none := List.getElem?_eq_none_iff.2 hle
      rw [happen, onScene_of_none hle]
      simp [World.waiting, World.accepts, hnone]
  · have hne : (i == c) = false := beq_eq_false_iff_ne.2 hi
    rw [waiting_happen_other hi, hne, Bool.false_and, beq_eq_false_iff_ne]
    simp

/-- Who handles what waits gets nothing. -/
theorem gets_fetch (w : World) (c i : ConnId) (e : Event) :
    Moment.gets i e ⟨w, .deed c .fetch⟩ = false := by
  show ((w.happen (.deed c .fetch)).waiting i == w.waiting i ++ [e]) = false
  by_cases hi : i = c
  · subst hi
    rcases within_or_le w i with ⟨s, hin⟩ | hle
    · have hwaits : (w.happen (.deed i .fetch)).waiting i = s.conn.mailbox.waiting.tail := by
        rw [World.waiting, hin.conn_deed]
        show s.fetch.conn.mailbox.waiting = _
        rw [mailbox_fetch]
      rw [hwaits, hin.waiting, beq_eq_false_iff_ne]
      intro heq
      have hlength := congrArg List.length heq
      simp only [List.length_tail, List.length_append, List.length_singleton] at hlength
      omega
    · rw [happen, onScene_of_none hle]
      simp
  · rw [waiting_happen_other hi]
    simp

/-- Whatever arrives at a connection, the others stay as they are. -/
theorem deliver_other (hi : i ≠ c) (e : Event) :
    (w.deliver ⟨c, e⟩).2.conns[i]? = w.conns[i]? := by
  unfold deliver
  rw [inScene_snd]
  rcases within_or_le w c with ⟨s, hin⟩ | hle
  · rw [onScene_of_within hin, putScene_other hi]
  · rw [onScene_of_none hle]

theorem accepts_deliver (hi : i ≠ c) (e : Event) :
    (w.deliver ⟨c, e⟩).2.accepts i = w.accepts i := by
  rw [World.accepts, World.accepts, deliver_other hi]

theorem deliver_fst (w : World) (c : ConnId) (e : Event) :
    (w.deliver ⟨c, e⟩).1 = w.accepts c := by
  unfold deliver inScene
  rcases hscene : w.scene? c with _ | s
  · have hnone : w.conns[c]? = none :=
      List.getElem?_eq_none_iff.2 (scene?_eq_none_iff.1 hscene)
    simp [World.accepts, hnone]
  · rw [(scene?_eq_some_iff.1 hscene).accepts]
    show (s.receive e).1 = _
    unfold receive
    split_ifs with haccepts
    · exact haccepts.symm
    · simpa using haccepts

/-- A record is counted once for each connection in the list that takes it. -/
theorem broadcastTo_fst {cs : List ConnId} (hcs : cs.Nodup) :
    (w.broadcastTo cs).1 = cs.countP w.accepts := by
  induction cs generalizing w with
  | nil => rfl
  | cons c cs ih =>
    obtain ⟨hc, hcs⟩ := List.nodup_cons.1 hcs
    -- Whatever `c` does with the record, the others take it as they would have done before.
    have hrest : ((w.deliver ⟨c, .lineControl⟩).2.broadcastTo cs).1 = cs.countP w.accepts := by
      rw [ih hcs]
      refine List.countP_congr fun i hi => ?_
      rw [accepts_deliver (ne_of_mem_of_not_mem hi hc)]
    have hfst : (w.broadcastTo (c :: cs)).1 =
        if (w.deliver ⟨c, .lineControl⟩).1
          then ((w.deliver ⟨c, .lineControl⟩).2.broadcastTo cs).1 + 1
          else ((w.deliver ⟨c, .lineControl⟩).2.broadcastTo cs).1 := rfl
    rw [hfst, hrest, deliver_fst, List.countP_cons]
    split_ifs <;> rfl

/-- A record arrives once at each connection in the list that takes it, and at no other. -/
theorem countP_gets {cs : List ConnId} (hcs : cs.Nodup) (i : ConnId) :
    (w.moments (w.broadcastCourse cs)).countP (·.gets i .lineControl) =
      if i ∈ cs ∧ w.accepts i = true then 1 else 0 := by
  induction cs generalizing w with
  | nil => simp [broadcastCourse, moments]
  | cons c cs ih =>
    obtain ⟨hc, hcs⟩ := List.nodup_cons.1 hcs
    have hready : ((w.hand ⟨c, .lineControl⟩).moments
        ((w.hand ⟨c, .lineControl⟩).ready c)).countP (·.gets i .lineControl) = 0 := by
      refine List.countP_eq_zero.2 fun m hm => ?_
      obtain ⟨before, what⟩ := m
      obtain rfl : what = .deed c .fetch := mem_ready (what_mem hm)
      simp [gets_fetch]
    have hsplit : w.moments (w.broadcastCourse (c :: cs)) =
        ⟨w, .deed c (.post .lineControl)⟩ ::
          ((w.hand ⟨c, .lineControl⟩).moments ((w.hand ⟨c, .lineControl⟩).ready c) ++
            (w.deliver ⟨c, .lineControl⟩).2.moments
              ((w.deliver ⟨c, .lineControl⟩).2.broadcastCourse cs)) := by
      rw [broadcastCourse, List.cons_append, moments]
      congr 1
      rw [moments_append, deliver_eq]
      rfl
    rw [hsplit, List.countP_cons, List.countP_append, hready, ih hcs, gets_post]
    by_cases hi : i = c
    · subst hi
      simp [hc]
    · simp [hi, accepts_deliver hi]

/-! ### Who listens -/

theorem mem_listeners {p : PhoneId} : c ∈ w.listeners p ↔
    w.phoneAt c = some p ∧ ∃ k, w.conns[c]? = some k ∧ k.closed = false ∧
      k.mailbox.receiverGone = false := by
  unfold listeners
  rw [List.mem_filter, List.mem_range, Bool.and_eq_true, beq_iff_eq]
  constructor
  · rintro ⟨hlt, hp, hk⟩
    rw [List.getElem?_eq_getElem hlt] at hk ⊢
    exact ⟨hp, _, rfl, by simpa using hk⟩
  · rintro ⟨hp, k, hk, hopen, hreceiver⟩
    refine ⟨(List.getElem?_eq_some_iff.1 hk).1, hp, ?_⟩
    simp [hk, hopen, hreceiver]

theorem Reachable.shut {k : Conn} (h : w.Reachable) (hk : w.conns[c]? = some k)
    (hclosed : k.closed = true) : k.Shut := by
  obtain ⟨start, ops, hfresh, rfl⟩ := h
  rw [← during_length] at hk
  exact shut_during hfresh hk hclosed

/-- Who is bound to a phone is open. -/
theorem Reachable.exists_open {p : PhoneId} (h : w.Reachable) (hc : w.phoneAt c = some p) :
    ∃ k, w.conns[c]? = some k ∧ k.closed = false := by
  rcases hk : w.conns[c]? with _ | k
  · rw [phoneAt_of_le (List.getElem?_eq_none_iff.1 hk)] at hc
    cases hc
  · refine ⟨k, rfl, ?_⟩
    rw [Bool.eq_false_iff]
    intro hclosed
    have hleg : w.legAt c = none := by
      rw [World.legAt, hk]
      exact (h.shut hk hclosed).leg
    rw [World.phoneAt, hleg] at hc
    cases hc

/-- Who is bound to a phone and takes events listens there. -/
theorem Reachable.mem_listeners_iff {p : PhoneId} (h : w.Reachable) :
    c ∈ w.listeners p ↔ w.phoneAt c = some p ∧ w.accepts c = true := by
  rw [mem_listeners]
  refine and_congr_right fun _ => ?_
  rcases hk : w.conns[c]? with _ | k
  · simp [World.accepts, hk]
  · have hshut : k.mailbox.shutDown = k.closed := h.orderly.shut k (List.mem_of_getElem? hk)
    simp [World.accepts, hk, Mailbox.accepts, hshut]

/-- **Subscriptions follow the binding.** In every world that a session reaches, just those
connections are subscribed at a phone that are open and bound to a leg of it, and each was
subscribed and unsubscribed there in turn, beginning with a subscription. So a record that arrives
at the phone is put once into the mailbox of each of them whose events somebody receives, and into
no other, and their number is returned. -/
theorem subscriptions_follow_binding (h : w.Reachable) {p : PhoneId} {phone : Phone}
    (hp : w.phones[p]? = some phone) :
    (∀ c, c ∈ phone.subscribers ↔
      ∃ k, w.conns[c]? = some k ∧ k.closed = false ∧ w.phoneAt c = some p) ∧
    (∀ c, ∃ n, phone.bookings c = alternating c n) ∧
    (w.perform (.broadcast p)).1 = .count (w.listeners p).length ∧
    ∀ c, (w.moments (w.course (.broadcast p))).countP (·.gets c .lineControl) =
      if c ∈ w.listeners p then 1 else 0 := by
  have hsubscribed (c : ConnId) : c ∈ phone.subscribers ↔ w.phoneAt c = some p :=
    h.subscribed.subscribed p phone hp c
  have hbooked : phone.Booked := h.subscribed.booked phone (List.mem_of_getElem? hp)
  have htable : (w.phones[p]?.map (·.subscribers)).getD [] = phone.subscribers := by rw [hp]; rfl
  refine ⟨fun c => ?_, fun c => ?_, ?_, fun c => ?_⟩
  · rw [hsubscribed]
    constructor
    · intro hc
      obtain ⟨k, hk, hopen⟩ := h.exists_open hc
      exact ⟨k, hk, hopen, hc⟩
    · rintro ⟨k, -, -, hc⟩
      exact hc
  · obtain ⟨n, hturns, -⟩ := hbooked.turns c
    exact ⟨n, hturns⟩
  · have hnodup : (w.listeners p).Nodup := List.nodup_range.filter _
    have hperm : (phone.subscribers.filter w.accepts).Perm (w.listeners p) := by
      refine (List.perm_ext_iff_of_nodup (hbooked.nodup.filter _) hnodup).2 fun c => ?_
      rw [List.mem_filter, hsubscribed, h.mem_listeners_iff]
    show Reply.count (w.broadcast p).1 = _
    rw [broadcast, htable, broadcastTo_fst hbooked.nodup, List.countP_eq_length_filter,
      hperm.length_eq]
  · rw [course, htable, countP_gets hbooked.nodup c]
    simp only [hsubscribed, h.mem_listeners_iff]

/-- A call is cloned and closed: only the clone is still subscribed. -/
theorem subscriptions_follow_binding_served :
    let w := ((served (Leg.outgoing "5550100" (some 0))).run
      [.connect (some 0) {}, .cloneConn 0, .close 0]).2
    w.Reachable ∧ ∃ phone, w.phones[0]? = some phone ∧ 0 ∉ phone.subscribers ∧
      1 ∈ phone.subscribers ∧ (∃ n, phone.bookings 0 = alternating 0 n) ∧
      (w.perform (.broadcast 0)).1 = .count 1 ∧
      (w.moments (w.course (.broadcast 0))).countP (·.gets 1 .lineControl) = 1 := by
  intro w
  have hreachable : w.Reachable := ⟨_, _, fresh_served _, rfl⟩
  have hphones : w.phones.length = 1 := by decide +kernel
  have hlisteners : w.listeners 0 = [1] := by decide +kernel
  have hclosed : w.conns[0]?.map (·.closed) = some true := by decide +kernel
  have hopen : w.conns[1]?.map (·.closed) = some false := by decide +kernel
  have hbound : w.phoneAt 1 = some 0 := by decide +kernel
  have hp : w.phones[0]? = some w.phones[0] := by simp [hphones]
  obtain ⟨hsubscribed, hturns, hcount, hgets⟩ := subscriptions_follow_binding hreachable hp
  refine ⟨hreachable, _, hp, ?_, ?_, hturns 0, by rw [hcount, hlisteners]; rfl,
    by rw [hgets, hlisteners]; rfl⟩
  · rw [hsubscribed]
    rintro ⟨k, hk, hk', -⟩
    rw [hk] at hclosed
    cases (Option.some.inj hclosed).symm.trans hk'
  · obtain ⟨k, hk, hk'⟩ := Option.map_eq_some_iff.1 hopen
    exact (hsubscribed 1).2 ⟨k, hk, hk', hbound⟩

end World

end CdmaCall
