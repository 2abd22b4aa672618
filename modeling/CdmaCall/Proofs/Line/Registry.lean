import CdmaCall.Proofs.Session.Setup
import CdmaCall.Proofs.World.Network
import CdmaCall.Proofs.World.Workload
import Mathlib.Logic.Function.Basic

/-!
# Who is subscribed to line control records

Phones keep who is subscribed, connections keep the leg that they are bound to, and the two are
changed by different requests. `Table` says that they agree, and that the requests for the
subscription of one connection come in turns. Closing and binding keep them in agreement, since the
old subscription is given up before another leg is bound (`Table.leave`, `Table.join`), and nothing
else touches either (`Subscribed.run`).
-/

namespace CdmaCall

/-! ## Definitions -/

section Defs

/-- The first `n` of the requests by which connection `c` is subscribed and unsubscribed in turn. -/
def alternating (c : ConnId) (n : ℕ) : List Action :=
  (List.range n).map fun i => if i % 2 = 0 then .register c else .unregister c

/-- The requests for the subscription of connection `c`, in order. -/
def Phone.bookings (p : Phone) (c : ConnId) : List Action :=
  p.actions.filter fun a => a == .register c || a == .unregister c

/-- Whoever is subscribed is so once, and was subscribed and unsubscribed in turn up to that. -/
structure Phone.Booked (p : Phone) : Prop where
  nodup : p.subscribers.Nodup
  turns : ∀ c, ∃ n, p.bookings c = alternating c n ∧ (c ∈ p.subscribers ↔ n % 2 = 1)

/-- Each connection is subscribed where it is bound, and nowhere else. -/
structure Table (phones : List Phone) (bound : ConnId → Option PhoneId) : Prop where
  booked : ∀ phone ∈ phones, phone.Booked
  subscribed : ∀ p phone, phones[p]? = some phone → ∀ c, c ∈ phone.subscribers ↔ bound c = some p

/-- Change what is in a place, if there is one. -/
def modifyAt {α : Type} (xs : List α) (i : Option ℕ) (f : α → α) : List α :=
  match i with
  | none => xs
  | some i => xs.modify i f

/-- Whether a happening belongs to binding a connection to a leg. -/
def Happening.isBinding : Happening → Bool
  | .assign .. | .deed _ .register | .deed _ .unregister => true
  | _ => false

end Defs

theorem Happening.isFounding_of_isBinding {x : Happening} (hx : x.isBinding = true) :
    x.isFounding = true := by
  cases x with
  | deed c d =>
    cases d with
    | register | unregister => rfl
    | _ => cases hx
  | assign => rfl
  | _ => cases hx

/-! ## One phone -/

namespace Phone

variable {p p' : Phone} {c i : ConnId}

theorem alternating_succ (c : ConnId) (n : ℕ) : alternating c (n + 1) =
    alternating c n ++ [if n % 2 = 0 then .register c else .unregister c] := by
  simp [alternating, List.range_succ]

theorem bookings_of_book (h : p'.book = p.book) (c : ConnId) : p'.bookings c = p.bookings c := by
  have hbook (q : Phone) : q.bookings c =
      q.book.2.filter fun a => a == .register c || a == .unregister c := by
    unfold bookings book
    rw [List.filter_filter]
    refine List.filter_congr fun a _ => ?_
    cases a <;> simp [Action.isBooking]
  rw [hbook, hbook, h]

/-- Only the book counts. -/
theorem Booked.congr (hp : p.Booked) (h : p'.book = p.book) : p'.Booked := by
  have hsubscribers : p'.subscribers = p.subscribers := congrArg Prod.fst h
  refine ⟨hsubscribers ▸ hp.nodup, fun c => ?_⟩
  rw [bookings_of_book h, hsubscribers]
  exact hp.turns c

theorem mem_register : i ∈ (p.register c).subscribers ↔ i = c ∨ i ∈ p.subscribers := by
  simp only [register, record, List.mem_append, List.mem_filter, List.mem_singleton, bne_iff_ne]
  by_cases hi : i = c <;> simp [hi]

theorem mem_unregister : i ∈ (p.unregister c).subscribers ↔ i ≠ c ∧ i ∈ p.subscribers := by
  simp [unregister, record, List.mem_filter, and_comm]

theorem bookings_register : (p.register c).bookings i =
    p.bookings i ++ if i = c then [.register c] else [] := by
  by_cases hi : i = c
  · simp [bookings, register, record, hi]
  · simp [bookings, register, record, hi, Ne.symm hi]

theorem bookings_unregister : (p.unregister c).bookings i =
    p.bookings i ++ if i = c then [.unregister c] else [] := by
  by_cases hi : i = c
  · simp [bookings, unregister, record, hi]
  · simp [bookings, unregister, record, hi, Ne.symm hi]

/-- Who is not subscribed can be. -/
theorem Booked.register (hp : p.Booked) (hc : c ∉ p.subscribers) : (p.register c).Booked := by
  refine ⟨?_, fun i => ?_⟩
  · refine List.Nodup.append (hp.nodup.filter _) (List.nodup_singleton c) ?_
    simp
  · obtain ⟨n, hturns, hn⟩ := hp.turns i
    rw [bookings_register, mem_register, hturns]
    by_cases hi : i = c
    · subst hi
      have heven : n % 2 = 0 := by
        have := hn.not.1 hc
        omega
      refine ⟨n + 1, ?_, ?_⟩
      · rw [alternating_succ, if_pos rfl, if_pos heven]
      · simp only [true_or, true_iff]
        omega
    · exact ⟨n, by rw [if_neg hi, List.append_nil], by simpa [hi] using hn⟩

/-- Who is subscribed can be unsubscribed. -/
theorem Booked.unregister (hp : p.Booked) (hc : c ∈ p.subscribers) : (p.unregister c).Booked := by
  refine ⟨hp.nodup.filter _, fun i => ?_⟩
  obtain ⟨n, hturns, hn⟩ := hp.turns i
  rw [bookings_unregister, mem_unregister, hturns]
  by_cases hi : i = c
  · subst hi
    have hodd : n % 2 = 1 := hn.1 hc
    refine ⟨n + 1, ?_, ?_⟩
    · rw [alternating_succ, if_pos rfl, if_neg (by omega)]
    · simp only [ne_eq, not_true_eq_false, false_and, false_iff]
      omega
  · exact ⟨n, by rw [if_neg hi, List.append_nil], by simpa [hi] using hn⟩

end Phone

/-! ## All phones -/

theorem getElem?_modifyAt {α : Type} (xs : List α) (i : Option ℕ) (f : α → α) (j : ℕ) :
    (modifyAt xs i f)[j]? = if i = some j then xs[j]?.map f else xs[j]? := by
  rcases i with _ | i
  · rfl
  · unfold modifyAt
    rw [List.getElem?_modify]
    by_cases hij : i = j <;> simp [hij]

theorem place_map {α : Type} (xs : List α) (i : Option ℕ) (f : α → α) :
    World.place xs i ((i.bind (xs[·]?)).map f) = modifyAt xs i f := by
  rcases i with _ | i
  · rfl
  · refine List.ext_getElem? fun j => ?_
    rw [getElem?_modifyAt]
    rcases hx : xs[i]? with _ | x
    · by_cases hij : i = j
      · subst hij
        simp [World.place, hx]
      · simp [World.place, hx, hij]
    · have hlt : i < xs.length := (List.getElem?_eq_some_iff.1 hx).1
      by_cases hij : i = j
      · subst hij
        simp [World.place, hlt]
      · simp [World.place, hx, hij, List.getElem?_set_ne hij]

namespace Table

variable {phones phones' : List Phone} {bound bound' : ConnId → Option PhoneId} {c : ConnId}

theorem congr (h : Table phones bound) (hbooks : phones'.map Phone.book = phones.map Phone.book)
    (hbound : ∀ c, bound' c = bound c) : Table phones' bound' := by
  have hold {p : PhoneId} {phone' : Phone} (hp : phones'[p]? = some phone') :
      ∃ phone, phones[p]? = some phone ∧ phone'.book = phone.book := by
    have hbook := congrArg (·[p]?) hbooks
    simp only [List.getElem?_map, hp, Option.map_some] at hbook
    obtain ⟨phone, hphone, heq⟩ := Option.map_eq_some_iff.1 hbook.symm
    exact ⟨phone, hphone, heq.symm⟩
  refine ⟨fun phone' hmem => ?_, fun p phone' hp c => ?_⟩
  · obtain ⟨p, hp⟩ := List.mem_iff_getElem?.1 hmem
    obtain ⟨phone, hphone, hbook⟩ := hold hp
    exact (h.booked phone (List.mem_of_getElem? hphone)).congr hbook
  · obtain ⟨phone, hphone, hbook⟩ := hold hp
    have hsubscribers : phone'.subscribers = phone.subscribers := congrArg Prod.fst hbook
    rw [hsubscribers, hbound]
    exact h.subscribed p phone hphone c

/-- A connection gives up its subscription. -/
theorem leave (h : Table phones bound) (c : ConnId) :
    Table (modifyAt phones (bound c) (·.unregister c)) (Function.update bound c none) := by
  refine ⟨fun phone' hmem => ?_, fun p phone' hp i => ?_⟩
  · obtain ⟨p, hp⟩ := List.mem_iff_getElem?.1 hmem
    rw [getElem?_modifyAt] at hp
    split_ifs at hp with hc
    · obtain ⟨phone, hphone, rfl⟩ := Option.map_eq_some_iff.1 hp
      have hbooked := h.booked phone (List.mem_of_getElem? hphone)
      exact hbooked.unregister ((h.subscribed p phone hphone c).2 hc)
    · exact h.booked phone' (List.mem_of_getElem? hp)
  · rw [getElem?_modifyAt] at hp
    by_cases hi : i = c
    · subst hi
      rw [Function.update_self]
      split_ifs at hp with hc
      · obtain ⟨phone, -, rfl⟩ := Option.map_eq_some_iff.1 hp
        simp [Phone.mem_unregister]
      · simpa [hc] using h.subscribed p phone' hp i
    · rw [Function.update_of_ne hi]
      split_ifs at hp with hc
      · obtain ⟨phone, hphone, rfl⟩ := Option.map_eq_some_iff.1 hp
        rw [Phone.mem_unregister, h.subscribed p phone hphone i]
        exact and_iff_right hi
      · exact h.subscribed p phone' hp i

/-- A connection that is subscribed nowhere is subscribed where it is bound. -/
theorem join (h : Table phones (Function.update bound c none)) :
    Table (modifyAt phones (bound c) (·.register c)) bound := by
  have hnone {p : PhoneId} {phone : Phone} (hp : phones[p]? = some phone) :
      c ∉ phone.subscribers := by
    rw [h.subscribed p phone hp c, Function.update_self]
    simp
  refine ⟨fun phone' hmem => ?_, fun p phone' hp i => ?_⟩
  · obtain ⟨p, hp⟩ := List.mem_iff_getElem?.1 hmem
    rw [getElem?_modifyAt] at hp
    split_ifs at hp with hc
    · obtain ⟨phone, hphone, rfl⟩ := Option.map_eq_some_iff.1 hp
      exact (h.booked phone (List.mem_of_getElem? hphone)).register (hnone hphone)
    · exact h.booked phone' (List.mem_of_getElem? hp)
  · rw [getElem?_modifyAt] at hp
    by_cases hi : i = c
    · subst hi
      split_ifs at hp with hc
      · obtain ⟨phone, -, rfl⟩ := Option.map_eq_some_iff.1 hp
        simp [Phone.mem_register, hc]
      · simpa [hc] using hnone hp
    · split_ifs at hp with hc
      · obtain ⟨phone, hphone, rfl⟩ := Option.map_eq_some_iff.1 hp
        rw [Phone.mem_register, h.subscribed p phone hphone i, Function.update_of_ne hi]
        exact or_iff_right hi
      · rw [h.subscribed p phone' hp i, Function.update_of_ne hi]

end Table

/-! ## Whatever happens -/

namespace World

open Scene

variable {w : World} {c i : ConnId} {s s' : Scene} {x : Happening} {hs : List Happening}
  {l : LegId} {op : Op}

theorem Within.bind_phones (h : Within w c s) : s.phone = (w.phoneAt c).bind (w.phones[·]?) := by
  rw [h.phone, h.phoneAt]

/-- Nothing but binding and closing writes into the book of a phone. -/
theorem book_happen (hx : x.isBinding = false) (hclose : ∀ c, x ≠ .deed c .close) :
    (w.happen x).phones.map Phone.book = w.phones.map Phone.book := by
  have hdeed (v : World) (c : ConnId) (d : Deed) (hd : (Happening.deed c d).isBinding = false)
      (hclose : d ≠ .close) : (v.onScene c (·.act d)).phones.map Phone.book =
        v.phones.map Phone.book := by
    rcases within_or_le v c with ⟨s, hin⟩ | hle
    · rw [onScene_of_within hin]
      refine map_place_of_eq hin.bind_phones ?_
      rcases (effect_act s d).unmoved_or with
        h | ⟨hd', -⟩ | ⟨mailbox, -, -, hs'⟩ | ⟨rfl, -⟩ | ⟨rfl, -⟩
      · exact h.phone
      · exact absurd hd' hclose
      · rw [hs']
        unfold onLineControl
        rcases (s.putMail mailbox).leg <;> rfl
      · cases hd
      · cases hd
    · rw [onScene_of_none hle]
  cases x with
  | deed c d => exact hdeed w c d hx fun hd => hclose c (by rw [hd])
  | release l =>
    rw [happen, hangUpLeg]
    rcases w.legs[l]? <;> rfl
  | hold p active =>
    exact map_modify_of_eq (fun phone : Phone => { phone with holding := active }) Phone.book
      (fun _ => rfl) w.phones p
  | confirm p =>
    rw [happen]
    rcases hp : w.phones[p]?.bind (·.releaseBurst) with _ | ⟨c, phone⟩
    · rfl
    · obtain ⟨q, hq, hrelease⟩ := Option.bind_eq_some_iff.1 hp
      have hbook : phone.book = q.book := by
        rw [releaseBurst_keeps hrelease]
        rfl
      refine (hdeed _ c (.post .burstConfirmed) rfl (by simp)).trans ?_
      exact map_place_of_eq (i := some p) (a := some phone) hq.symm (congrArg some hbook)
  | expire limit =>
    rw [happen]
    rcases w.clock.next? limit with _ | next
    · rfl
    · exact hdeed { w with clock := next.2 } next.1.target (.post next.1.event) rfl (by simp)
  | _ => rfl

/-- Where a deed changes the phone of a connection. -/
theorem Within.putScene_phones (h : Within w c s) {f : Phone → Phone}
    (hs' : s'.phone = s.phone.map f) :
    (w.putScene c s').phones = modifyAt w.phones (w.phoneAt c) f := by
  show place w.phones (w.phoneAt c) s'.phone = _
  rw [hs', h.bind_phones, place_map]

theorem phoneAt_of_le (h : w.conns.length ≤ c) : w.phoneAt c = none := by
  simp [World.phoneAt, World.legAt, List.getElem?_eq_none_iff.2 h]

/-- What a deed makes of the phone of a connection it makes of no other phone. -/
theorem phones_deed {d : Deed} {f : Phone → Phone}
    (hd : ∀ s : Scene, s.id = c → (s.act d).phone = s.phone.map f) :
    (w.happen (.deed c d)).phones = modifyAt w.phones (w.phoneAt c) f := by
  rcases within_or_le w c with ⟨s, hin⟩ | hle
  · rw [hin.happen_deed]
    exact hin.putScene_phones (hd s hin.id)
  · rw [happen, onScene_of_none hle, phoneAt_of_le hle]
    rfl

/-- The subscriptions are as the bindings are. -/
def Subscribed (w : World) : Prop := Table w.phones w.phoneAt

/-- Closing gives up the subscription together with the leg. -/
theorem Subscribed.close (h : w.Subscribed) (c : ConnId) :
    (w.happen (.deed c .close)).Subscribed := by
  rcases within_or_le w c with ⟨s, hin⟩ | hle
  · by_cases hopen : s.conn.closed = false
    · have hphones : (w.happen (.deed c .close)).phones =
          modifyAt w.phones (w.phoneAt c) (·.unregister c) := by
        rw [hin.happen_deed]
        refine hin.putScene_phones ?_
        show s.close.phone = _
        rw [close_eq s hopen, ← hin.id]
      have hbound : (w.happen (.deed c .close)).phoneAt = Function.update w.phoneAt c none := by
        funext i
        by_cases hi : i = c
        · subst hi
          have hleg : (w.happen (.deed i .close)).legAt i = none := by
            rw [World.legAt, hin.conn_deed]
            show s.close.conn.leg = none
            rw [close_eq s hopen]
          rw [World.phoneAt, hleg, Function.update_self]
          rfl
        · rw [Function.update_of_ne hi]
          exact phoneAt_happen (fun _ => by simp) fun he => hi (Happening.deed.inj he).1.symm
      unfold Subscribed
      rw [hphones, hbound]
      exact Table.leave h c
    · have hsame : w.happen (.deed c .close) = w := by
        have hclosed : s.close = s := by rw [Scene.close, if_pos (by simpa using hopen)]
        rw [hin.happen_deed]
        show w.putScene c s.close = w
        rw [hclosed, hin.putScene_self]
      rwa [hsame]
  · rwa [happen, onScene_of_none hle]

theorem Subscribed.happen (h : w.Subscribed) (hx : x.isBinding = false) :
    (w.happen x).Subscribed := by
  by_cases hclose : ∃ c, x = .deed c .close
  · obtain ⟨c, rfl⟩ := hclose
    exact h.close c
  · refine Table.congr h (book_happen hx fun c hc => hclose ⟨c, hc⟩) fun c => ?_
    refine phoneAt_happen (fun l hl => ?_) fun hc => hclose ⟨c, hc⟩
    rw [hl] at hx
    cases hx

theorem Subscribed.after (h : w.Subscribed) (hhs : ∀ x ∈ hs, x.isBinding = false) :
    (w.after hs).Subscribed := by
  induction hs generalizing w with
  | nil => exact h
  | cons x hs ih =>
    exact ih (h.happen (hhs x (List.mem_cons_self ..))) fun y hy => hhs y (List.mem_cons_of_mem _ hy)

/-- **Binding moves the subscription.** -/
theorem Subscribed.bind (h : w.Subscribed) (c : ConnId) (l : LegId) :
    (w.after (w.bindCourse c l)).Subscribed := by
  unfold bindCourse
  split_ifs
  · rw [after_cons, after_cons, after_cons]
    refine Subscribed.after ?_ (by simp [Happening.isBinding])
    -- In between the connection is subscribed nowhere, whichever leg it is bound to.
    set w₁ := w.happen (.deed c .unregister)
    set w₂ := w₁.happen (.assign c l)
    have hleft : Table w₁.phones (Function.update w₁.phoneAt c none) := by
      have hbound : w₁.phoneAt = w.phoneAt :=
        funext fun i => phoneAt_happen (fun _ => by simp) (by simp)
      have hphones : w₁.phones = modifyAt w.phones (w.phoneAt c) (·.unregister c) :=
        phones_deed fun s hs => by rw [← hs]; rfl
      rw [hphones, hbound]
      exact Table.leave h c
    have hassigned : Table w₂.phones (Function.update w₂.phoneAt c none) := by
      have hbound : Function.update w₂.phoneAt c none = Function.update w₁.phoneAt c none := by
        funext i
        by_cases hi : i = c
        · rw [hi, Function.update_self, Function.update_self]
        · rw [Function.update_of_ne hi, Function.update_of_ne hi]
          exact phoneAt_happen (fun l' hl' => hi (Happening.assign.inj hl').1.symm) (by simp)
      rw [hbound]
      exact hleft
    have hbound : (w₂.happen (.deed c .register)).phoneAt = w₂.phoneAt :=
      funext fun i => phoneAt_happen (fun _ => by simp) (by simp)
    have hphones : (w₂.happen (.deed c .register)).phones =
        modifyAt w₂.phones (w₂.phoneAt c) (·.register c) :=
      phones_deed fun s hs => by rw [← hs]; rfl
    unfold Subscribed
    rw [hbound, hphones]
    exact hassigned.join
  · exact h

theorem Subscribed.build (h : w.Subscribed) (leg : Option LegId) (o : Options) :
    (w.after (w.buildCourse leg o)).Subscribed := by
  have henlist : (w.happen (.enlist o)).Subscribed := h.happen rfl
  unfold buildCourse
  rw [List.cons_append, after_cons, after_append]
  refine Subscribed.after ?_ (by simp [Happening.isBinding])
  rcases leg with _ | l
  · exact henlist
  · exact henlist.bind _ l

theorem Subscribed.perform (h : w.Subscribed) (op : Op) : (w.perform op).2.Subscribed := by
  rw [perform_snd]
  by_cases hfounds : op.founds = true
  · cases op with
    | connect leg o =>
      rw [course, connectCourse, after_append]
      refine Subscribed.after (h.build leg o) fun x hx => ?_
      rcases mem_armCourse hx with rfl | rfl <;> rfl
    | cloneConn c =>
      rw [course]
      rcases w.conns[c]? with _ | k
      · exact h
      · exact h.build k.leg k.options
    | rebind c l =>
      rw [course]
      rcases w.conns[c]? with _ | k
      · exact h
      · dsimp only
        split_ifs
        · exact h
        · exact h.bind c l
    | _ => cases hfounds
  · refine h.after fun x hx => ?_
    rw [Bool.eq_false_iff]
    intro hbinding
    exact hfounds (founds_of_mem hx (Happening.isFounding_of_isBinding hbinding))

theorem Subscribed.run (h : w.Subscribed) (ops : List Op) : (w.run ops).2.Subscribed := by
  induction ops generalizing w with
  | nil => exact h
  | cons op ops ih =>
    refine ih ?_
    show (w.perform op).2.settle.Subscribed
    rw [settle_eq]
    refine (h.perform op).after fun x hx => ?_
    rcases mem_timerCourse hx with ⟨i, rfl⟩ | rfl | rfl <;> rfl

theorem Fresh.subscribed (h : w.Fresh) : w.Subscribed := by
  refine ⟨fun phone hphone => ⟨?_, fun c => ⟨0, ?_, ?_⟩⟩, fun p phone hp c => ?_⟩
  · rw [h.subscribers phone hphone]
    exact List.nodup_nil
  · rw [Phone.bookings, h.actions phone hphone]
    rfl
  · simp [h.subscribers phone hphone]
  · rw [h.subscribers phone (List.mem_of_getElem? hp), phoneAt_of_le (by simp [h.conns])]
    simp

theorem Reachable.subscribed (h : w.Reachable) : w.Subscribed := by
  obtain ⟨start, ops, hfresh, rfl⟩ := h
  exact hfresh.subscribed.run ops

end World

end CdmaCall
