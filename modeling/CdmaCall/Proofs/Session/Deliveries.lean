import CdmaCall.Proofs.Line.Subscriptions
import CdmaCall.Proofs.Session.Requests

/-!
# Whose events arrive

Confirmations, deadlines and line control records all come from things that connections share: a
phone and the clock. What arrives at a connection is due to it all the same (`due_of_gets`). A
confirmation is one of those that were owed to it, and with those that arrived before these are
never more than the bursts that it sent; a deadline is one that it set; and a record has arrived at
the phone at which it is subscribed.
-/

namespace CdmaCall

section Defs

namespace Moment

/-- How many bursts connection `c` sends. -/
def burstsBy (c : ConnId) (m : Moment) : ℕ :=
  if m.what.subject? = some c then (m.before.newActions m.after).countP (·.2.isBurst) else 0

/-- Connection `c` sets its deadline as `generation`. -/
def Arms (c : ConnId) (generation : ℕ) (m : Moment) : Prop :=
  m.what = .deed c .arm ∧ ∃ k, m.after.conns[c]? = some k ∧ k.guard.generation = generation

/-- How many bursts connection `c` has sent. -/
def sent (c : ConnId) (ms : List Moment) : ℕ := (ms.map (·.burstsBy c)).sum

/-- How many confirmations have arrived at connection `c`. -/
def confirmed (c : ConnId) (ms : List Moment) : ℕ := ms.countP (·.gets c .burstConfirmed)

end Moment

/-- Whether nothing but line control records is put into a mailbox directly. -/
def Happening.Honest : Happening → Prop
  | .deed _ (.post e) => e = .lineControl
  | _ => True

namespace World

/-- How many confirmations for connection `c` phones keep or run on the clock. -/
def owed (w : World) (c : ConnId) : ℕ := w.heldFor c + w.running c

/-- After the moments `ms`: confirmations for connection `c` match bursts of its own, and its timers
are such confirmations and deadlines that it set. -/
structure Ledger (c : ConnId) (ms : List Moment) (w : World) : Prop where
  bursts : w.owed c + Moment.confirmed c ms ≤ Moment.sent c ms
  timers : ∀ t ∈ w.clock.pending, t.job.target = c → t.job.event = .burstConfirmed ∨
    ∃ g, t.job.event = .missed g ∧ ∃ m ∈ ms, m.Arms c g

/-- Connection `c` has a right to an event that arrives at moment `m`, while the request `op` is
carried out and after the moments `ms`. A confirmation is taken from those owed to it, which it has
earned with bursts; a deadline comes off the clock, and it has set it; a record has arrived at the
phone to which it is bound and at which it is subscribed. -/
def Due (w : World) (op : Op) (ms : List Moment) (m : Moment) (c : ConnId) : Event → Prop
  | .burstConfirmed => m.before.owed c = m.after.owed c + 1 ∧
    m.before.owed c + Moment.confirmed c ms ≤ Moment.sent c ms
  | .missed g => (∃ t ∈ m.before.clock.pending, t.job = ⟨c, .missed g⟩ ∧
    t ∉ m.after.clock.pending) ∧ ∃ m' ∈ ms, m'.Arms c g
  | .lineControl => ∃ p phone, op = .broadcast p ∧ w.phones[p]? = some phone ∧
    c ∈ phone.subscribers ∧ w.phoneAt c = some p

end World

end Defs

namespace Scene

variable {s : Scene} {d : Deed}

/-- Only what is posted comes in. -/
theorem length_act (hd : ∀ e, d ≠ .post e) :
    (s.act d).conn.mailbox.waiting.length ≤ s.conn.mailbox.waiting.length := by
  cases d with
  | post e => exact absurd rfl (hd e)
  | close =>
    show s.close.conn.mailbox.waiting.length ≤ _
    rw [mailbox_close]
    split_ifs <;> exact le_rfl
  | fetch =>
    show s.fetch.conn.mailbox.waiting.length ≤ _
    rw [mailbox_fetch]
    simp
  | attend => exact le_rfl
  | retire => exact Nat.zero_le _
  | _ =>
    rw [(undisturbed_act s rfl).mailbox]

end Scene

namespace World

open Scene

variable {w w' v start : World} {c i : ConnId} {s : Scene} {d : Deed} {e : Event} {x : Happening}
  {ms pre post : List Moment} {m : Moment} {op : Op} {ops : List Op} {hs : List Happening}

/-! ### What arrives -/

section Arrivals

theorem not_gets_of_eq (h : m.after.waiting c = m.before.waiting c) : m.gets c e = false := by
  unfold Moment.gets
  rw [h, beq_eq_false_iff_ne]
  simp

/-- A deed brings nothing but what it posts. -/
theorem gets_deed (hd : d ≠ .post e) : Moment.gets c e ⟨w, .deed i d⟩ = false := by
  by_cases hi : c = i
  · subst hi
    rcases within_or_le w c with ⟨s, hin⟩ | hle
    · have hafter : (w.happen (.deed c d)).waiting c = (s.act d).conn.mailbox.waiting := by
        rw [World.waiting, hin.conn_deed]
        rfl
      show ((w.happen (.deed c d)).waiting c == w.waiting c ++ [e]) = false
      rw [hafter, hin.waiting, beq_eq_false_iff_ne]
      intro heq
      by_cases hpost : ∃ e', d = .post e'
      · obtain ⟨e', rfl⟩ := hpost
        by_cases haccepts : s.conn.mailbox.accepts = true
        · rw [act_post s e' haccepts] at heq
          exact hd (congrArg Deed.post (List.singleton_inj.1 (List.append_cancel_left heq)))
        · rw [act_post_of_not s e' haccepts] at heq
          simp at heq
      · have hlength := length_act (s := s) fun e' he => hpost ⟨e', he⟩
        rw [heq, List.length_append, List.length_singleton] at hlength
        omega
    · exact not_gets_of_eq (by rw [Moment.after, happen, onScene_of_none hle])
  · exact not_gets_of_eq (waiting_happen_other hi d)

/-- What is handed over arrives where it is meant for, if anywhere. -/
theorem gets_hand {d : Delivery} (hv : v.conns = w.conns)
    (h : ((v.hand d).waiting c == w.waiting c ++ [e]) = true) : d = ⟨c, e⟩ := by
  have hwaiting : w.waiting c = v.waiting c := by rw [World.waiting, World.waiting, hv]
  rw [hwaiting] at h
  change Moment.gets c e ⟨v, .deed d.target (.post d.event)⟩ = true at h
  by_cases he : d.event = e
  · subst he
    rw [gets_post, Bool.and_eq_true, beq_iff_eq] at h
    obtain ⟨target, event⟩ := d
    obtain rfl : c = target := h.1
    rfl
  · rw [gets_deed (by simpa using he)] at h
    cases h

/-- Nothing waits for a new connection. -/
theorem waiting_enlist (w : World) (o : Options) (c : ConnId) :
    (w.happen (.enlist o)).waiting c = w.waiting c := by
  unfold World.waiting
  rcases hk : w.conns[c]? with _ | k
  · rcases hk' : (w.happen (.enlist o)).conns[c]? with _ | k'
    · rfl
    · obtain ⟨o', rfl⟩ := fresh_happen hk hk'
      rfl
  · have hold : (w.happen (.enlist o)).conns[c]? = some k := by
      show (w.conns ++ [Conn.fresh o])[c]? = some k
      rw [List.getElem?_append_left (List.getElem?_eq_some_iff.1 hk).1, hk]
    rw [hold]

theorem waiting_assign (w : World) (i : ConnId) (l : LegId) (c : ConnId) :
    (w.happen (.assign i l)).waiting c = w.waiting c := by
  unfold World.waiting
  rw [happen, setLeg_getElem?]
  split_ifs
  · rw [Option.map_map]
    rfl
  · rfl

/-- **What arrives** is posted, or is a confirmation that a phone kept, or comes off the clock. -/
theorem gets_inv (h : m.gets c e = true) : m.what = .deed c (.post e) ∨
    (e = .burstConfirmed ∧ ∃ p phone, m.what = .confirm p ∧
      m.before.phones[p]?.bind (·.releaseBurst) = some (c, phone)) ∨
    ∃ limit clock, m.what = .expire limit ∧
      m.before.clock.next? limit = some (⟨c, e⟩, clock) := by
  obtain ⟨w, x⟩ := m
  have hquiet (hsame : (w.happen x).waiting c = w.waiting c) : False := by
    rw [not_gets_of_eq (m := ⟨w, x⟩) hsame] at h
    cases h
  cases x with
  | deed i d =>
    by_cases hd : d = .post e
    · subst hd
      rw [gets_post, Bool.and_eq_true, beq_iff_eq] at h
      exact .inl (by rw [h.1])
    · rw [gets_deed hd] at h
      cases h
  | confirm p =>
    rcases htaken : w.phones[p]?.bind (·.releaseBurst) with _ | taken
    · exact (hquiet (by simp only [happen, htaken])).elim
    · have hafter : (Moment.mk w (.confirm p)).after =
          ({ w with phones := w.phones.set p taken.2 } : World).hand
            ⟨taken.1, .burstConfirmed⟩ := by
        simp only [Moment.after, happen, htaken]
      rw [Moment.gets, hafter] at h
      obtain ⟨rfl, rfl⟩ := Delivery.mk.inj (gets_hand rfl h)
      exact .inr (.inl ⟨rfl, p, taken.2, rfl, htaken⟩)
  | expire limit =>
    rcases hnext : w.clock.next? limit with _ | next
    · exact (hquiet (by simp only [happen, hnext])).elim
    · have hafter : (Moment.mk w (.expire limit)).after =
          ({ w with clock := next.2 } : World).hand next.1 := by
        simp only [Moment.after, happen, hnext]
      rw [Moment.gets, hafter] at h
      obtain ⟨d, clock⟩ := next
      obtain rfl : d = ⟨c, e⟩ := gets_hand rfl h
      exact .inr (.inr ⟨limit, clock, rfl, hnext⟩)
  | enlist o => exact (hquiet (waiting_enlist w o c)).elim
  | assign i l => exact (hquiet (waiting_assign w i l c)).elim
  | release l =>
    refine (hquiet ?_).elim
    rw [happen, hangUpLeg]
    cases w.legs[l]? <;> rfl
  | _ => exact (hquiet rfl).elim

end Arrivals

/-! ### The ledger -/

section Ledgers

theorem sent_append (c : ConnId) (ms : List Moment) (m : Moment) :
    Moment.sent c (ms ++ [m]) = Moment.sent c ms + m.burstsBy c := by
  simp [Moment.sent]

theorem confirmed_append (c : ConnId) (ms : List Moment) (m : Moment) :
    Moment.confirmed c (ms ++ [m]) =
      Moment.confirmed c ms + if m.gets c .burstConfirmed then 1 else 0 := by
  simp [Moment.confirmed, List.countP_append, List.countP_singleton]

/-- What one moment adds. -/
theorem Ledger.add (h : Ledger c ms w)
    (hbursts : w'.owed c + (if m.gets c .burstConfirmed then 1 else 0) ≤
      w.owed c + m.burstsBy c)
    (htimers : ∀ t ∈ w'.clock.pending, t.job.target = c → t ∈ w.clock.pending ∨
      t.job.event = .burstConfirmed ∨ ∃ g, t.job.event = .missed g ∧ m.Arms c g) :
    Ledger c (ms ++ [m]) w' := by
  refine ⟨?_, fun t ht htarget => ?_⟩
  · have hold := h.bursts
    rw [sent_append, confirmed_append]
    omega
  · rcases htimers t ht htarget with ht | ht | ⟨g, hg, harms⟩
    · refine (h.timers t ht htarget).imp_right ?_
      rintro ⟨g, hg, m', hm', harms⟩
      exact ⟨g, hg, m', List.mem_append_left _ hm', harms⟩
    · exact .inl ht
    · exact .inr ⟨g, hg, m, List.mem_append_right _ (List.mem_singleton_self _), harms⟩

theorem Ledger.deed (h : Ledger c ms w) (hw : w.Orderly) (hd : d ≠ .post .burstConfirmed)
    (i : ConnId) : Ledger c (ms ++ [⟨w, .deed i d⟩]) (w.happen (.deed i d)) := by
  have hgets : (if Moment.gets c .burstConfirmed ⟨w, .deed i d⟩ then 1 else 0) = 0 :=
    if_neg (by simp [gets_deed hd])
  rcases within_or_le w i with ⟨s, hin⟩ | hle
  · obtain ⟨as, hasks, -⟩ := asks_act (hw.timed hin) d
    have hmoved := hin.tokens (phone_act s d) c
    refine h.add ?_ fun t ht htarget => ?_
    · rw [hgets, hin.happen_deed, World.owed, World.owed]
      by_cases hi : i = c
      · subst hi
        have hcount : Moment.burstsBy i ⟨w, .deed i d⟩ = as.countP (·.isBurst) := by
          refine (if_pos rfl).trans ?_
          show (w.newActions (w.happen (.deed i d))).countP _ = _
          rw [hin.happen_deed, hin.countP_newActions hasks]
        have htokens := hasks.tokens
        rw [hin.id] at htokens
        omega
      · have hsame := (onward_act (hw.timed hin) d).tokens (hin.id ▸ Ne.symm hi)
        omega
    · rw [hin.happen_deed, putScene_clock] at ht
      rcases starts_act s d t ht with hold | hjob | ⟨rfl, hjob⟩
      · exact .inl (hin.clock ▸ hold)
      · exact .inr (.inl (by rw [hjob]))
      · refine .inr (.inr ⟨_, by rw [hjob], ?_⟩)
        have hself : i = c := by rw [← htarget, hjob, hin.id]
        subst hself
        refine ⟨rfl, _, hin.conn_deed .arm, ?_⟩
        rw [act, arm_eq]
        unfold rearm disarm Guard.disarm
        cases s.conn.guard.armed <;> split_ifs <;> rfl
  · have hsame : w.happen (.deed i d) = w := onScene_of_none hle _
    refine h.add ?_ fun t ht _ => .inl (hsame ▸ ht)
    rw [hgets, hsame]
    omega

/-- What is handed over is put into a mailbox, and that is all. -/
theorem hand_eq (w : World) (d : Delivery) :
    (w.hand d).phones = w.phones ∧ (w.hand d).clock = w.clock := by
  unfold hand
  rcases within_or_le w d.target with ⟨s, hin⟩ | hle
  · rw [onScene_of_within hin]
    refine ⟨?_, hin.clock⟩
    show place w.phones (w.phoneAt d.target) s.phone = w.phones
    exact place_self (by rw [hin.phoneAt, hin.phone])
  · rw [onScene_of_none hle]
    exact ⟨rfl, rfl⟩

/-- Only deeds ask phones for anything. -/
theorem actions_happen (hx : ∀ c d, x ≠ .deed c d) :
    (w.happen x).phones.map (·.actions) = w.phones.map (·.actions) := by
  cases x with
  | deed c d => exact absurd rfl (hx c d)
  | release l =>
    rw [happen, hangUpLeg]
    cases w.legs[l]? <;> rfl
  | hold p active =>
    exact map_modify_of_eq (fun phone : Phone => { phone with holding := active }) (·.actions)
      (fun _ => rfl) w.phones p
  | confirm p =>
    rw [happen]
    rcases hp : w.phones[p]?.bind (·.releaseBurst) with _ | ⟨c, phone⟩
    · rfl
    · obtain ⟨q, hq, hrelease⟩ := Option.bind_eq_some_iff.1 hp
      have hactions : phone.actions = q.actions := by rw [releaseBurst_keeps hrelease]
      dsimp only
      rw [(hand_eq _ _).1]
      exact map_place_of_eq (i := some p) (a := some phone) hq.symm (congrArg some hactions)
  | expire limit =>
    rw [happen]
    rcases w.clock.next? limit with _ | next
    · rfl
    · exact congrArg (List.map (·.actions)) (hand_eq _ _).1
  | _ => rfl

theorem heldFor_congr (h : w'.phones.map (·.held) = w.phones.map (·.held)) (c : ConnId) :
    w'.heldFor c = w.heldFor c := by
  have hcount := congrArg (List.map (List.count c)) h
  rw [List.map_map, List.map_map] at hcount
  exact congrArg List.sum hcount

/-- What is handed over counts once, and where it is meant for. -/
theorem gets_le {d : Delivery} (hhand : w.happen x = v.hand d) (hv : v.conns = w.conns) :
    (if Moment.gets c e ⟨w, x⟩ then 1 else 0) ≤ if d = ⟨c, e⟩ then 1 else 0 := by
  by_cases hgets : Moment.gets c e ⟨w, x⟩ = true
  · rw [if_pos hgets]
    rw [Moment.gets, Moment.after, hhand] at hgets
    rw [if_pos (gets_hand hv hgets)]
  · rw [if_neg hgets]
    exact Nat.zero_le _

/-- A confirmation that a phone gives away is owed no more. -/
theorem owed_confirm {p : PhoneId} {phone : Phone}
    (htaken : w.phones[p]?.bind (·.releaseBurst) = some (i, phone)) (c : ConnId) :
    (w.happen (.confirm p)).owed c +
      (if (⟨i, .burstConfirmed⟩ : Delivery) = ⟨c, .burstConfirmed⟩ then 1 else 0) = w.owed c := by
  set v : World := { w with phones := w.phones.set p phone }
  have hheld : v.heldFor c + _ = w.heldFor c := heldFor_release htaken c
  have hrunning : v.running c = w.running c := rfl
  obtain ⟨hphones, hclock⟩ := v.hand_eq ⟨i, .burstConfirmed⟩
  have hafter : (w.happen (.confirm p)).owed c = v.owed c := by
    simp only [happen, htaken, World.owed, World.heldFor, World.running]
    rw [hphones, hclock]
  rw [hafter, World.owed, World.owed]
  omega

/-- A confirmation that comes off the clock is owed no more. -/
theorem owed_expire (hw : w.Orderly) {limit : ℕ} {d : Delivery} {clock : Clock Delivery}
    (hnext : w.clock.next? limit = some (d, clock)) (c : ConnId) :
    (w.happen (.expire limit)).owed c + (if d = ⟨c, .burstConfirmed⟩ then 1 else 0) =
      w.owed c := by
  set v : World := { w with clock }
  have hrunning : v.running c + _ = w.running c := running_next hw hnext c
  have hheld : v.heldFor c = w.heldFor c := rfl
  obtain ⟨hphones, hclock⟩ := v.hand_eq d
  have hafter : (w.happen (.expire limit)).owed c = v.owed c := by
    simp only [happen, hnext, World.owed, World.heldFor, World.running]
    rw [hphones, hclock]
  rw [hafter, World.owed, World.owed]
  omega

/-- The timer that comes due is pending no more. -/
theorem clock_expire {limit : ℕ} {d : Delivery} {clock : Clock Delivery}
    (hnext : w.clock.next? limit = some (d, clock)) :
    ∃ t ∈ w.clock.pending, t.job = d ∧
      (w.happen (.expire limit)).clock.pending = (w.clock.cancel t.id).pending := by
  obtain ⟨t, ht, hjob, -, -, hcancel⟩ := Clock.next?_eq_some hnext
  refine ⟨t, ht, hjob, ?_⟩
  simp only [happen, hnext]
  rw [(hand_eq _ _).2, hcancel]

theorem Ledger.confirm (h : Ledger c ms w) (p : PhoneId) :
    Ledger c (ms ++ [⟨w, .confirm p⟩]) (w.happen (.confirm p)) := by
  rcases htaken : w.phones[p]?.bind (·.releaseBurst) with _ | ⟨i, phone⟩
  · have hsame : w.happen (.confirm p) = w := by simp only [happen, htaken]
    have hgets : Moment.gets c .burstConfirmed ⟨w, .confirm p⟩ = false :=
      not_gets_of_eq (by rw [Moment.after, hsame])
    refine h.add ?_ fun t ht _ => .inl (hsame ▸ ht)
    rw [hgets, hsame]
    simp
  · have hhand : w.happen (.confirm p) =
        ({ w with phones := w.phones.set p phone } : World).hand ⟨i, .burstConfirmed⟩ := by
      simp only [happen, htaken]
    have hgets := gets_le (c := c) (e := .burstConfirmed) hhand rfl
    have howed := owed_confirm htaken c
    refine h.add (by omega) fun t ht _ => .inl ?_
    rwa [hhand, (hand_eq _ _).2] at ht

theorem Ledger.expire (h : Ledger c ms w) (hw : w.Orderly) (limit : ℕ) :
    Ledger c (ms ++ [⟨w, .expire limit⟩]) (w.happen (.expire limit)) := by
  rcases hnext : w.clock.next? limit with _ | ⟨d, clock⟩
  · have hsame : w.happen (.expire limit) = w := by simp only [happen, hnext]
    have hgets : Moment.gets c .burstConfirmed ⟨w, .expire limit⟩ = false :=
      not_gets_of_eq (by rw [Moment.after, hsame])
    refine h.add ?_ fun t ht _ => .inl (hsame ▸ ht)
    rw [hgets, hsame]
    simp
  · have hhand : w.happen (.expire limit) = ({ w with clock } : World).hand d := by
      simp only [happen, hnext]
    have hgets := gets_le (c := c) (e := .burstConfirmed) hhand rfl
    have howed := owed_expire hw hnext c
    obtain ⟨t, -, -, hpending⟩ := clock_expire hnext
    refine h.add (by omega) fun u hu _ => .inl ?_
    rw [hpending] at hu
    exact (Clock.mem_cancel.1 hu).1

/-- **One moment.** -/
theorem Ledger.next (h : Ledger c ms w) (hw : w.Orderly) (hx : x.Honest) :
    Ledger c (ms ++ [⟨w, x⟩]) (w.happen x) := by
  have hplain (hgets : Moment.gets c .burstConfirmed ⟨w, x⟩ = false)
      (hheld : (w.happen x).phones.map (·.held) = w.phones.map (·.held))
      (hpending : (w.happen x).clock.pending = w.clock.pending) :
      Ledger c (ms ++ [⟨w, x⟩]) (w.happen x) := by
    refine h.add ?_ fun t ht _ => .inl (hpending ▸ ht)
    rw [hgets, World.owed, World.owed, heldFor_congr hheld, World.running, World.running,
      hpending]
    simp
  have hsilent (hwhat : ∀ p, x ≠ .confirm p) (hexpire : ∀ limit, x ≠ .expire limit)
      (hpost : x ≠ .deed c (.post .burstConfirmed)) :
      Moment.gets c .burstConfirmed ⟨w, x⟩ = false := by
    rw [Bool.eq_false_iff]
    intro hgets
    rcases gets_inv hgets with hx | ⟨-, p, -, hx, -⟩ | ⟨limit, -, hx, -⟩
    · exact hpost hx
    · exact hwhat p hx
    · exact hexpire limit hx
  cases x with
  | deed i d => exact h.deed hw (by rintro rfl; cases hx) i
  | confirm p => exact h.confirm p
  | expire limit => exact h.expire hw limit
  | hold p active =>
    exact hplain (hsilent (by simp) (by simp) (by simp))
      (map_modify_of_eq ({ · with holding := active }) (·.held) (fun _ => rfl) w.phones p) rfl
  | release l =>
    refine hplain (hsilent (by simp) (by simp) (by simp)) ?_ ?_ <;>
    · rw [happen, hangUpLeg]
      cases w.legs[l]? <;> rfl
  | _ => exact hplain (hsilent (by simp) (by simp) (by simp)) rfl rfl

/-- Nothing but records is posted in a run. -/
theorem honest_history (ops : List Op) (w : World) : ∀ x ∈ w.history ops, x.Honest := by
  intro x hx
  rcases routine_or_mem ops w hx with hroutine | ⟨op, -, hasked⟩
  · cases x with
    | deed i d =>
      cases d with
      | post e => cases e <;> first | rfl | cases hroutine
      | _ => trivial
    | _ => trivial
  · cases x with
    | deed i d =>
      cases d with
      | post e => cases op <;> simp [Op.happening?] at hasked
      | _ => trivial
    | _ => trivial

/-- **At every moment of a session.** -/
theorem ledger_story (hstart : start.Fresh) (hstory : start.story ops = pre ++ m :: post)
    (c : ConnId) : Ledger c pre m.before := by
  obtain ⟨hs, hs', hhistory, hpre, hbefore⟩ := moments_split hstory
  have hempty : (∀ m ∈ ([] : List Moment), m.before.Orderly ∧ m.what.Honest) →
      Ledger c [] start := by
    intro _
    refine ⟨?_, by simp [hstart.pending]⟩
    have hheld : start.heldFor c = 0 := by
      refine List.sum_eq_zero_iff_forall_eq_nat.2 fun n hn => ?_
      obtain ⟨p, hp, rfl⟩ := List.mem_map.1 hn
      rw [hstart.held p hp]
      rfl
    have hrunning : start.running c = 0 := by
      rw [World.running, hstart.pending]
      rfl
    rw [World.owed, hheld, hrunning]
    exact le_rfl
  have hkept := kept_along (P := fun ms w =>
    (∀ m ∈ ms, m.before.Orderly ∧ m.what.Honest) → Ledger c ms w) hs (fun ms w x ih hms => by
      have hlast := hms _ (List.mem_append_right _ (List.mem_singleton_self _))
      exact (ih fun m hm => hms m (List.mem_append_left _ hm)).next hlast.1 hlast.2) hempty
  rw [hpre, hbefore]
  refine hkept fun m' hm' => ?_
  have hm'' : m' ∈ start.story ops := by
    rw [hstory, hpre]
    exact List.mem_append_left _ (by simpa using hm')
  exact ⟨orderly_story hstart m' hm'', honest_history ops start _ (what_mem hm'')⟩

end Ledgers

/-! ### What is due -/

section Dues

theorem post_of_broadcast {cs : List ConnId}
    (hx : .deed c (.post e) ∈ w.broadcastCourse cs) : c ∈ cs := by
  induction cs generalizing w with
  | nil => cases hx
  | cons c' cs ih =>
    rw [broadcastCourse, List.cons_append, List.mem_cons, List.mem_append] at hx
    rcases hx with hx | hx | hx
    · cases hx
      exact List.mem_cons_self ..
    · cases mem_ready hx
    · exact List.mem_cons_of_mem _ (ih hx)

theorem post_of_build {leg : Option LegId} {o : Options} :
    .deed c (.post e) ∉ w.buildCourse leg o := by
  intro hx
  unfold buildCourse bindCourse at hx
  cases leg with
  | none => simp at hx
  | some l =>
    dsimp only at hx
    split_ifs at hx <;> simp at hx

/-- Records arrive when the network sends them, at those who are subscribed. -/
theorem post_of_mem (hx : .deed c (.post e) ∈ w.course op) :
    ∃ p phone, op = .broadcast p ∧ w.phones[p]? = some phone ∧ c ∈ phone.subscribers := by
  cases op with
  | broadcast p =>
    rw [course] at hx
    have hmem := post_of_broadcast hx
    rcases hp : w.phones[p]? with _ | phone
    · simp [hp] at hmem
    · exact ⟨p, phone, rfl, hp, by simpa [hp] using hmem⟩
  | connect leg o =>
    rcases List.mem_append.1 hx with hx | hx
    · exact absurd hx post_of_build
    · rcases mem_armCourse hx with hx | hx <;> cases hx
  | cloneConn i =>
    rw [course] at hx
    split at hx
    · cases hx
    · exact absurd hx post_of_build
  | advance ms => rcases mem_timerCourse hx with ⟨i, hx⟩ | hx | hx <;> cases hx
  | confirm p =>
    rw [course, confirmCourse] at hx
    split at hx
    · cases hx
    · rcases List.mem_cons.1 hx with hx | hx
      · cases hx
      · cases mem_ready hx
  | rebind i l =>
    rw [course] at hx
    split at hx
    · cases hx
    · unfold bindCourse at hx
      split_ifs at hx <;> simp at hx
  | drain i =>
    rw [course, drainCourse] at hx
    split at hx
    · cases hx
    · cases List.eq_of_mem_replicate hx
  | drive i => rcases mem_driveCourse hx with hx | hx | ⟨hx, -⟩ <;> cases hx
  | _ => cases List.mem_singleton.1 hx

/-- **What arrives is due.** -/
theorem due_of_gets (hstart : start.Fresh) (hv : v = (start.run ops).2)
    (hmoments : v.moments (v.course op ++ (v.perform op).2.settleCourse) = pre ++ m :: post)
    (hgets : m.gets c e = true) : v.Due op (start.story ops ++ pre) m c e := by
  have hstory : start.story (ops ++ [op]) = (start.story ops ++ pre) ++ m :: post := by
    rw [story_append, ← hv, story_cons, hmoments]
    simp [story, history, moments]
  have hmem : m ∈ start.story (ops ++ [op]) := by simp [hstory]
  have hledger := ledger_story hstart hstory c
  rcases gets_inv hgets with hwhat | ⟨rfl, p, phone, hwhat, htaken⟩ | ⟨limit, clock, hwhat, hnext⟩
  · have hhonest := honest_history _ _ _ (what_mem hmem)
    rw [hwhat] at hhonest
    obtain rfl : e = .lineControl := hhonest
    have hx : m.what ∈ v.course op ++ (v.perform op).2.settleCourse :=
      what_mem (hmoments ▸ List.mem_append_right _ (List.mem_cons_self ..))
    rw [hwhat] at hx
    rcases List.mem_append.1 hx with hx | hx
    · obtain ⟨p, phone, hop, hp, hsubscribed⟩ := post_of_mem hx
      have hreachable : v.Reachable := ⟨start, ops, hstart, hv⟩
      exact ⟨p, phone, hop, hp, hsubscribed,
        (hreachable.subscribed.subscribed p phone hp c).1 hsubscribed⟩
    · rcases mem_timerCourse hx with ⟨i, hx⟩ | hx | hx <;> cases hx
  · have howed := owed_confirm htaken c
    rw [if_pos rfl, ← hwhat] at howed
    exact ⟨howed.symm, hledger.bursts⟩
  · obtain ⟨t, ht, hjob, hpending⟩ := clock_expire hnext
    rw [← hwhat] at hpending
    have htarget : t.job.target = c := by rw [hjob]
    have hevent : t.job.event = e := by rw [hjob]
    rcases hledger.timers t ht htarget with he | ⟨g, hg, harms⟩
    · obtain rfl : e = .burstConfirmed := hevent.symm.trans he
      have howed := owed_expire (orderly_story hstart m hmem) hnext c
      rw [if_pos rfl, ← hwhat] at howed
      exact ⟨howed.symm, hledger.bursts⟩
    · obtain rfl : e = .missed g := hevent.symm.trans hg
      refine ⟨⟨t, ht, hjob, fun hstill => ?_⟩, harms⟩
      change t ∈ (m.before.happen m.what).clock.pending at hstill
      rw [hpending] at hstill
      exact (Clock.mem_cancel.1 hstill).2 rfl

end Dues

end World

end CdmaCall
