import CdmaCall.Proofs.World.Workload
import Mathlib.Algebra.GroupWithZero.Nat

/-!
# Every outstanding burst has one confirmation

A confirmation is kept by a phone, runs on the clock, or waits in a mailbox. `Balanced w`: for every
open connection of `w` that has a receiver, these confirmations are one in number while its
transmitter counts a burst as outstanding, and none otherwise. It holds at every moment of every
run in which confirmations are not made up.
-/

namespace CdmaCall

namespace Scene

variable {s s' s'' : Scene} {full : Bool}

/-! ## Confirmations in a scene -/

section Scenes

/-- Confirmations for connection `i` that the phone keeps or that run on the clock. -/
def tokens (s : Scene) (i : ConnId) : ℕ :=
  s.heldFor i + s.clock.pending.countP (·.job == ⟨i, .burstConfirmed⟩)

/-- The confirmations of a connection move together with its outstanding burst. -/
structure Even (s s' : Scene) : Prop where
  id : s'.id = s.id
  tokens : s'.tokens s.id + s.conn.tones.pending.toNat =
    s.tokens s.id + s'.conn.tones.pending.toNat

theorem Even.refl (s : Scene) : Even s s := ⟨rfl, rfl⟩

theorem Even.trans (h : Even s s') (h' : Even s' s'') : Even s s'' := by
  have h₁ := h.tokens
  have h₂ := h'.tokens
  rw [h.id] at h₂
  exact ⟨h'.id.trans h.id, by omega⟩

theorem Even.of_eq (hid : s'.id = s.id) (htones : s'.conn.tones.pending = s.conn.tones.pending)
    (htokens : s'.tokens s.id = s.tokens s.id) : Even s s' :=
  ⟨hid, by rw [htones, htokens]⟩

/-- Timers of other connections and what is kept for them stay, so their confirmations do. -/
theorem Onward.tokens (h : Onward s s') {i : ConnId} (hi : i ≠ s.id) :
    s'.tokens i = s.tokens i := by
  have hrunning (ts : List (Timer Delivery)) :
      ts.countP (·.job == ⟨i, .burstConfirmed⟩) =
        (ts.filter (·.job.target != s.id)).countP (·.job == ⟨i, .burstConfirmed⟩) := by
    rw [List.countP_filter]
    refine List.countP_congr fun t _ => ?_
    by_cases hjob : t.job = ⟨i, .burstConfirmed⟩
    · simp [hjob, hi]
    · simp [hjob]
  unfold Scene.tokens
  rw [h.held i hi, hrunning, h.others, ← hrunning]

theorem tokens_disarm (hs : s.Timed) : s.disarm.tokens s.id = s.tokens s.id := by
  unfold disarm Guard.disarm
  cases harm : s.conn.guard.armed with
  | none => rfl
  | some d =>
    have hcount : (s.clock.cancel d.timer).pending.countP (·.job == ⟨s.id, .burstConfirmed⟩) =
        s.clock.pending.countP (·.job == ⟨s.id, .burstConfirmed⟩) := by
      unfold Clock.cancel
      rw [List.countP_filter]
      refine List.countP_congr fun t ht => ?_
      by_cases hid : t.id = d.timer
      · simp [hs.own d harm t ht hid]
      · simp [hid]
    exact congrArg (s.heldFor s.id + ·) hcount

theorem even_bit (hs : s.Timed) (h : Bit full s s') : Even s s' := by
  have htones := congrArg Transmitter.pending (tones_bit h)
  refine Even.of_eq (Anchored.of_bit h).id htones ?_
  cases h with
  | perform =>
    rename_i a h
    rw [perform_eq_of_not_burst s h]
    exact congrArg (· + _) (@heldFor_map s (·.record a) (fun _ => rfl) s.id)
  | disarm => exact tokens_disarm hs
  | hangUp => unfold hangUp; cases s.leg <;> rfl
  | correct => unfold onLineControl; cases s.leg <;> rfl
  | register => exact congrArg (· + _) (@heldFor_map s (·.register s.id) (fun _ => rfl) s.id)
  | unregister => exact congrArg (· + _) (@heldFor_map s (·.unregister s.id) (fun _ => rfl) s.id)
  | _ => rfl

/-- A burst brings one confirmation into being. -/
theorem tokens_burst (s : Scene) (t : Transmitter) (digits : List Char)
    (hphone : s.phone.isSome = true) :
    (s.perform (t.burstOf digits)).tokens s.id = s.tokens s.id + 1 := by
  obtain ⟨p, hp⟩ := Option.isSome_iff_exists.1 hphone
  cases hd : p.confirmDelay with
  | none =>
    rw [perform_burst_kept s t digits hp hd]
    simp [tokens, heldFor, hp]
    omega
  | some delay =>
    rw [perform_burst_delayed s t digits hp hd]
    simp [tokens, heldFor, hp, Clock.start, Phone.record]
    omega

theorem even_send (s : Scene) (digits : List Char) (hphone : s.phone.isSome = true)
    (hidle : s.conn.tones.pending = false) :
    Even s ((s.putTones { s.conn.tones with pending := true }).perform
      (s.conn.tones.burstOf digits)) := by
  have htokens := tokens_burst (s.putTones { s.conn.tones with pending := true }) s.conn.tones
    digits hphone
  refine ⟨(Anchored.perform _ _).id, ?_⟩
  rw [tones_perform, hidle]
  exact htokens

theorem even_keyBit (hs : s.Timed) (h : KeyBit s s') : Even s s' := by
  cases h with
  | quiet h => exact even_bit hs h
  | queue => exact Even.of_eq rfl rfl rfl
  | send digits hphone hidle => exact even_send s digits hphone hidle

theorem even_path (hs : s.Timed) (h : Path full s s') : Even s s' :=
  (Path.keeps (fun _ _ hb (ht : Timed _ ∧ Even s _) =>
    ⟨(onward_bit ht.1 hb).timed, ht.2.trans (even_bit ht.1 hb)⟩) h ⟨hs, Even.refl s⟩).2

theorem even_keyPath (hs : s.Timed) (h : KeyPath s s') : Even s s' :=
  (KeyPath.keeps (fun _ _ hb (ht : Timed _ ∧ Even s _) =>
    ⟨(onward_keyBit ht.1 hb).timed, ht.2.trans (even_keyBit ht.1 hb)⟩) h ⟨hs, Even.refl s⟩).2

/-- **A confirmation is used up**, and another one is made if the queue goes out. -/
theorem tokens_onBurstConfirmed (s : Scene) :
    s.onBurstConfirmed.tokens s.id =
      s.tokens s.id + s.onBurstConfirmed.conn.tones.pending.toNat := by
  rcases onBurstConfirmed_cases s with ⟨-, h⟩ | ⟨-, hphone, h⟩
  · rw [h]
    rfl
  · have hsend := (even_send (s.putTones s.conn.tones.discard.2) s.conn.tones.queue hphone rfl)
    rw [h]
    exact hsend.tokens

/-- The confirmations of a connection, those in its mailbox and `n` more out of its sight included,
match its outstanding burst. -/
def Owes (n : ℕ) (s : Scene) : Prop :=
  n + s.tokens s.id + s.conn.mailbox.waiting.count .burstConfirmed = s.conn.tones.pending.toNat

variable {n : ℕ}

theorem Even.owes (h : Even s s') (hmail : s'.conn.mailbox = s.conn.mailbox) (hs : s.Owes n) :
    s'.Owes n := by
  have htokens := h.tokens
  unfold Owes at *
  rw [h.id, hmail]
  omega

theorem even_arm (hs : s.Timed) : Even s s.arm.2 := by
  have hdis := even_bit hs (Bit.disarm s)
  rw [arm_eq]
  split_ifs
  · refine hdis.trans (Even.of_eq rfl rfl ?_)
    simp [tokens, rearm, Clock.start, putGuard, heldFor]
  · exact hdis.trans (Even.of_eq rfl rfl rfl)

theorem owes_post (h : s.Owes n) {e : Event} (he : e ≠ .burstConfirmed) :
    (s.act (.post e)).Owes n := by
  unfold Owes act Mailbox.post at *
  split_ifs
  · have hcount : (s.conn.mailbox.waiting ++ [e]).count .burstConfirmed =
        s.conn.mailbox.waiting.count .burstConfirmed := by
      simp [List.count_append, he]
    exact (congrArg (n + s.tokens s.id + ·) hcount).trans h
  · exact h

theorem owes_fetch (hs : s.Timed) (hopen : s.conn.closed = false) (h : s.Owes n) :
    s.fetch.Owes n := by
  unfold fetch
  cases hw : s.conn.mailbox.waiting with
  | nil => exact h
  | cons e rest =>
    dsimp only
    set s₁ := s.putMail { s.conn.mailbox with waiting := rest } with hs₁
    have htimed : s₁.Timed := ⟨hs.clock, hs.known, hs.own⟩
    have hun := undisturbed_handle s₁ e
    by_cases he : e = .burstConfirmed
    · subst he
      have hhandle : s₁.handle .burstConfirmed = s₁.onBurstConfirmed := by
        unfold handle
        rw [if_neg (by simp [hs₁, putMail, hopen])]
      have htokens := tokens_onBurstConfirmed s₁
      have hid : s₁.onBurstConfirmed.id = s₁.id := (anchored_onBurstConfirmed s₁).id
      -- the confirmation in hand is the only one there is
      have hone : n + s₁.tokens s₁.id + (rest.count .burstConfirmed + 1) =
          s.conn.tones.pending.toNat := by
        rw [← h, hw, List.count_cons_self]
        rfl
      have hle := Bool.toNat_le s.conn.tones.pending
      have hrest : s₁.onBurstConfirmed.conn.mailbox.waiting = rest := by
        rw [← hhandle, hun.mailbox]
        rfl
      rw [hhandle, Owes, hid, hrest]
      omega
    · refine (even_path htimed (path_handle s₁ he)).owes hun.mailbox ?_
      have hcount : rest.count .burstConfirmed = s.conn.mailbox.waiting.count .burstConfirmed := by
        rw [hw, List.count_cons_of_ne he]
      exact (congrArg (n + s.tokens s.id + ·) hcount).trans h

/-- **Genuine deeds keep the balance.** -/
theorem owes_act (hs : s.Timed) (hopen : s.conn.closed = false) {d : Deed} (hclose : d ≠ .close)
    (hretire : d ≠ .retire) (hhandle : d ≠ .handle .burstConfirmed)
    (hpost : d ≠ .post .burstConfirmed) (h : s.Owes n) : (s.act d).Owes n := by
  have hquiet (he : Even s (s.act d)) (hd : d.touchesMail = false) : (s.act d).Owes n :=
    he.owes (undisturbed_act s hd).mailbox h
  by_cases hbits : d.ofBits = true
  · exact hquiet (even_path hs (path_act s hbits)) (Deed.touchesMail_of_bits hbits)
  cases d with
  | play digit => exact hquiet (even_keyPath hs (keyPath_playTone s digit)) rfl
  | keys digits => exact hquiet (even_keyPath hs (keyPath_pressKeys digits s)) rfl
  | close => exact absurd rfl hclose
  | handle e => exact hquiet (even_path hs (path_handle s fun he => hhandle (he ▸ rfl))) rfl
  | fetch => exact owes_fetch hs hopen h
  | post e => exact owes_post h fun he => hpost (he ▸ rfl)
  | attend => exact h
  | retire => exact absurd rfl hretire
  | arm => exact hquiet (even_arm hs) rfl
  | _ => exact absurd rfl hbits

theorem phone_act (s : Scene) (d : Deed) : (s.act d).phone.isSome = s.phone.isSome := by
  by_cases hclose : d = .close
  · subst hclose
    show s.close.phone.isSome = s.phone.isSome
    unfold close
    split_ifs
    · rfl
    · exact Option.isSome_map
  · exact (anchored_act s hclose).phone

end Scenes

end Scene

namespace World

open Scene

variable {w : World} {c : ConnId} {s s' : Scene}

/-! ## Confirmations in a world -/

section Worlds

/-- How many confirmations for connection `c` phones keep. -/
def heldFor (w : World) (c : ConnId) : ℕ := (w.phones.map (·.held.count c)).sum

/-- How many confirmations for connection `c` run on the clock. -/
def running (w : World) (c : ConnId) : ℕ :=
  w.clock.pending.countP (·.job == ⟨c, .burstConfirmed⟩)

/-- Confirmations and outstanding bursts match, for each open connection with a receiver. -/
def Balanced (w : World) : Prop :=
  ∀ (c : ConnId) (k : Conn), w.conns[c]? = some k → k.closed = false →
    k.mailbox.receiverGone = false →
    w.heldFor c + w.running c + k.mailbox.waiting.count .burstConfirmed =
      if k.tones.pending then 1 else 0

/-- The same, but that the delivery `d` is still to be made. -/
def Owing (w : World) (d : Delivery) : Prop :=
  ∀ (c : ConnId) (k : Conn), w.conns[c]? = some k → k.closed = false →
    k.mailbox.receiverGone = false →
    w.heldFor c + w.running c + k.mailbox.waiting.count .burstConfirmed +
      (if d = ⟨c, .burstConfirmed⟩ then 1 else 0) = if k.tones.pending then 1 else 0

theorem sum_map_set {α : Type} (f : α → ℕ) {a : α} (b : α) :
    ∀ {xs : List α} {i : ℕ}, xs[i]? = some a →
      ((xs.set i b).map f).sum + f a = (xs.map f).sum + f b
  | x :: xs, 0, h => by
    obtain rfl := Option.some.inj h
    simp only [List.set_cons_zero, List.map_cons, List.sum_cons]
    omega
  | x :: xs, i + 1, h => by
    have ih := @sum_map_set _ f a b xs i h
    simp only [List.set_cons_succ, List.map_cons, List.sum_cons]
    omega

/-- What the phone of a scene keeps is all that changes in what phones keep. -/
theorem Within.heldFor (h : Within w c s) (hphone : s'.phone.isSome = s.phone.isSome)
    (i : ConnId) :
    (w.putScene c s').heldFor i + s.heldFor i = w.heldFor i + s'.heldFor i := by
  unfold World.heldFor World.putScene Scene.heldFor
  rw [h.phoneAt]
  have hs := h.phone
  cases hp : s.phone with
  | none =>
    have hp' : s'.phone = none := by simpa [hp] using hphone
    simp [place, hp']
  | some p =>
    obtain ⟨p', hp'⟩ := Option.isSome_iff_exists.1 (hphone.trans (by simp [hp]))
    rw [hp] at hs
    obtain ⟨j, hj, hget⟩ := Option.bind_eq_some_iff.1 hs.symm
    simpa [place, hp', hj] using sum_map_set (·.held.count i) p' hget

theorem Within.tokens (h : Within w c s) (hphone : s'.phone.isSome = s.phone.isSome)
    (i : ConnId) :
    (w.putScene c s').heldFor i + (w.putScene c s').running i + s.tokens i =
      w.heldFor i + w.running i + s'.tokens i := by
  have hheld := h.heldFor hphone i
  have hrun : (w.putScene c s').running i + s.clock.pending.countP (·.job == ⟨i, .burstConfirmed⟩)
      = w.running i + s'.clock.pending.countP (·.job == ⟨i, .burstConfirmed⟩) := by
    unfold running
    rw [putScene_clock, h.clock]
    omega
  unfold Scene.tokens
  omega

theorem Within.tokens_le (h : Within w c s) (i : ConnId) :
    s.tokens i ≤ w.heldFor i + w.running i := by
  set bare : Scene := { s with
    phone := s.phone.map fun p => { p with held := [] }
    clock := { s.clock with pending := [] } }
  have hphone : bare.phone.isSome = s.phone.isSome := Option.isSome_map
  have hnone := h.tokens hphone i
  have hzero : bare.tokens i = 0 := by
    unfold Scene.tokens Scene.heldFor bare
    cases s.phone <;> rfl
  omega

theorem pending_toNat (b : Bool) : (if b then 1 else 0) = b.toNat := by cases b <;> rfl

/-- **Genuine deeds keep the balance.** -/
theorem Balanced.deed (hw : w.Orderly) (hb : w.Balanced) (c : ConnId) {d : Deed}
    (hhandle : d ≠ .handle .burstConfirmed) (hpost : d ≠ .post .burstConfirmed) :
    (w.onScene c (·.act d)).Balanced := by
  rcases within_or_le w c with ⟨s, h⟩ | h
  · have hs := hw.timed h
    have hon := onward_act hs d
    rw [onScene_of_within h]
    intro i k hk hopen hreceiver
    have htokens := h.tokens (phone_act s d) i
    rw [pending_toNat]
    by_cases hi : i = c
    · subst hi
      rw [h.putScene_same] at hk
      obtain rfl := Option.some.inj hk
      have hclose : d ≠ .close := by
        rintro rfl
        exact absurd ((closed_close s).symm.trans hopen) (by decide)
      obtain ⟨hretire, hgone⟩ := receiver_act s hreceiver
      rw [closed_act s hclose] at hopen
      have hold := hb i s.conn h.conn hopen hgone
      have hle := h.tokens_le i
      have howes : s.Owes (w.heldFor i + w.running i - s.tokens i) := by
        unfold Owes
        rw [← pending_toNat, ← hold, h.id]
        omega
      have hact := owes_act hs hopen hclose hretire hhandle hpost howes
      unfold Owes at hact
      rw [hon.id, h.id] at hact
      omega
    · rw [putScene_other hi] at hk
      have hold := hb i k hk hopen hreceiver
      have hsame := hon.tokens (h.id ▸ hi)
      rw [pending_toNat] at hold
      omega
  · rw [onScene_of_none h]
    exact hb

/-- The delivery that was still to be made is made. -/
theorem Owing.hand (hw : w.Orderly) {d : Delivery} (ho : w.Owing d) : (w.hand d).Balanced := by
  rcases within_or_le w d.target with ⟨s, h⟩ | h
  · have hhand : w.hand d = w.putScene d.target (s.act (.post d.event)) := onScene_of_within h _
    rw [hhand]
    intro i k hk hopen hreceiver
    have htokens := h.tokens (phone_act s (.post d.event)) i
    have hsame : (s.act (.post d.event)).tokens i = s.tokens i := rfl
    by_cases hi : i = d.target
    · subst hi
      rw [h.putScene_same] at hk
      obtain rfl := Option.some.inj hk
      have hgone := (receiver_act s hreceiver).2
      have hold := ho d.target s.conn h.conn hopen hgone
      have hacc : s.conn.mailbox.accepts = true := by
        have hshut := hw.shut _ (List.mem_of_getElem? h.conn)
        have hopen' : s.conn.closed = false := hopen
        simp [Mailbox.accepts, hshut, hopen', hgone]
      have hcount : (s.act (.post d.event)).conn.mailbox.waiting.count .burstConfirmed =
          s.conn.mailbox.waiting.count .burstConfirmed +
            (if d = ⟨d.target, .burstConfirmed⟩ then 1 else 0) := by
        have hpost : (s.act (.post d.event)).conn.mailbox.waiting =
            s.conn.mailbox.waiting ++ [d.event] := by rw [act_post s d.event hacc]; rfl
        rw [hpost, List.count_append, List.count_singleton]
        cases d with
        | mk target e => cases e <;> simp
      have hpend : (s.act (.post d.event)).conn.tones.pending = s.conn.tones.pending := rfl
      rw [hcount, hpend, ← hold]
      omega
    · rw [putScene_other hi] at hk
      have hold := ho i k hk hopen hreceiver
      have hne : d ≠ ⟨i, .burstConfirmed⟩ := by
        rintro rfl
        exact hi rfl
      rw [if_neg hne] at hold
      omega
  · have hhand : w.hand d = w := onScene_of_none h _
    rw [hhand]
    intro i k hk hopen hreceiver
    have hold := ho i k hk hopen hreceiver
    have hne : d ≠ ⟨i, .burstConfirmed⟩ := by
      rintro rfl
      have hlt := (List.getElem?_eq_some_iff.1 hk).1
      exact absurd h (by simpa using hlt)
    rwa [if_neg hne] at hold

theorem Balanced.of_eq {w' : World} (hb : w.Balanced) (hconns : w'.conns = w.conns)
    (hheld : ∀ i, w'.heldFor i = w.heldFor i) (hrun : ∀ i, w'.running i = w.running i) :
    w'.Balanced := by
  intro i k hk hopen hreceiver
  rw [hheld, hrun]
  exact hb i k (hconns ▸ hk) hopen hreceiver

/-- A new connection has no confirmations yet. -/
theorem Balanced.enlist (hw : w.Orderly) (hb : w.Balanced) (o : Options) :
    (w.happen (.enlist o)).Balanced := by
  intro i k hk hopen hreceiver
  show w.heldFor i + w.running i + _ = _
  have hk' : (w.conns ++ [Conn.fresh o])[i]? = some k := hk
  by_cases hi : i < w.conns.length
  · rw [List.getElem?_append_left hi] at hk'
    exact hb i k hk' hopen hreceiver
  · rw [List.getElem?_append_right (not_lt.1 hi)] at hk'
    have hfresh : k = Conn.fresh o := List.mem_singleton.1 (List.mem_of_getElem? hk')
    have hheld : w.heldFor i = 0 := by
      refine List.sum_eq_zero_iff_forall_eq_nat.2 fun n hn => ?_
      obtain ⟨p, hp, rfl⟩ := List.mem_map.1 hn
      exact List.count_eq_zero.2 fun hmem => hi (hw.held p hp i hmem)
    have hrun : w.running i = 0 := by
      refine List.countP_eq_zero.2 fun t ht hjob => hi ?_
      have htarget := hw.targets t ht
      rwa [eq_of_beq hjob] at htarget
    rw [hheld, hrun, hfresh]
    rfl

theorem Balanced.assign (hb : w.Balanced) (c : ConnId) (l : LegId) : (w.setLeg c l).Balanced := by
  intro i k hk hopen hreceiver
  rw [setLeg_getElem?] at hk
  split_ifs at hk
  · obtain ⟨k₀, hk₀, rfl⟩ := Option.map_eq_some_iff.1 hk
    exact hb i k₀ hk₀ hopen hreceiver
  · exact hb i k hk hopen hreceiver

/-- A phone that gives away a confirmation keeps one less for the connection that it is for. -/
theorem heldFor_release {p : PhoneId} {c : ConnId} {phone : Phone}
    (hp : w.phones[p]?.bind (·.releaseBurst) = some (c, phone)) (i : ConnId) :
    ({ w with phones := w.phones.set p phone } : World).heldFor i +
      (if (⟨c, .burstConfirmed⟩ : Delivery) = ⟨i, .burstConfirmed⟩ then 1 else 0) =
        w.heldFor i := by
  obtain ⟨q, hq, hrel⟩ := Option.bind_eq_some_iff.1 hp
  have hset : ({ w with phones := w.phones.set p phone } : World).heldFor i + q.held.count i =
      w.heldFor i + phone.held.count i := sum_map_set (·.held.count i) phone hq
  rw [releaseBurst_eq_some hrel, List.count_cons] at hset
  by_cases hi : c = i
  · subst hi
    simp only [beq_self_eq_true, if_true] at hset ⊢
    omega
  · have hne : (⟨c, .burstConfirmed⟩ : Delivery) ≠ ⟨i, .burstConfirmed⟩ := by simpa using hi
    simp only [beq_iff_eq, hi, if_false] at hset
    rw [if_neg hne]
    omega

/-- A confirmation that comes off the clock runs no more. -/
theorem running_next (hw : w.Orderly) {limit : ℕ} {d : Delivery} {clock : Clock Delivery}
    (hn : w.clock.next? limit = some (d, clock)) (i : ConnId) :
    ({ w with clock } : World).running i + (if d = ⟨i, .burstConfirmed⟩ then 1 else 0) =
      w.running i := by
  obtain ⟨t, ht, rfl, -, -, rfl⟩ := Clock.next?_eq_some hn
  have hcount := hw.clock.countP_cancel ht (·.job == ⟨i, .burstConfirmed⟩)
  simp only [beq_iff_eq] at hcount
  exact hcount

/-- A confirmation that a phone kept is to be delivered. -/
theorem Balanced.confirm (hb : w.Balanced) {p : PhoneId} {c : ConnId} {phone : Phone}
    (hp : w.phones[p]?.bind (·.releaseBurst) = some (c, phone)) :
    ({ w with phones := w.phones.set p phone } : World).Owing ⟨c, .burstConfirmed⟩ := by
  intro i k hk hopen hreceiver
  have hold := hb i k hk hopen hreceiver
  have hheld := heldFor_release hp i
  have hrun : ({ w with phones := w.phones.set p phone } : World).running i = w.running i := rfl
  omega

/-- A confirmation that ran on the clock is to be delivered. -/
theorem Balanced.next (hw : w.Orderly) (hb : w.Balanced) {limit : ℕ} {d : Delivery}
    {clock : Clock Delivery} (hn : w.clock.next? limit = some (d, clock)) :
    ({ w with clock } : World).Owing d := by
  intro i k hk hopen hreceiver
  have hold := hb i k hk hopen hreceiver
  have hrun := running_next hw hn i
  have hheld : ({ w with clock } : World).heldFor i = w.heldFor i := rfl
  omega

end Worlds

end World

/-! ## Runs -/

section Runs

/-- Whether a happening does not make up a confirmation. -/
def Happening.Genuine : Happening → Prop
  | .deed _ d => d ≠ .handle .burstConfirmed ∧ d ≠ .post .burstConfirmed
  | _ => True

namespace World

open Scene

variable {w : World}

theorem Balanced.happen (hw : w.Orderly) (hb : w.Balanced) {h : Happening} (hg : h.Genuine) :
    (w.happen h).Balanced := by
  cases h with
  | deed c d => exact hb.deed hw c hg.1 hg.2
  | enlist o => exact hb.enlist hw o
  | assign c l => exact hb.assign c l
  | release l =>
    rw [World.happen, hangUpLeg]
    cases w.legs[l]? with
    | none => exact hb
    | some leg => exact hb.of_eq rfl (fun _ => rfl) fun _ => rfl
  | hold p active =>
    refine hb.of_eq rfl (fun i => congrArg List.sum ?_) fun _ => rfl
    exact map_modify_of_eq ({ · with holding := active }) (·.held.count i) (fun _ => rfl) w.phones p
  | confirm p =>
    rw [World.happen]
    cases hp : w.phones[p]?.bind (·.releaseBurst) with
    | none => exact hb
    | some taken => exact (hb.confirm hp).hand (hw.give hp)
  | expire limit =>
    rw [World.happen]
    cases hn : w.clock.next? limit with
    | none => exact hb
    | some due => exact (hb.next hw hn).hand (hw.next hn)
  | _ => exact hb.of_eq rfl (fun _ => rfl) fun _ => rfl

/-- A run makes up the confirmations that its requests make up, and no other. -/
theorem genuine_history {ops : List Op} (hops : ∀ c, .handle c .burstConfirmed ∉ ops) :
    ∀ h ∈ w.history ops, h.Genuine := by
  intro h hh
  rcases routine_or_mem ops w hh with hr | ⟨op, hop, ha⟩
  · cases h with
    | deed c d => constructor <;> rintro rfl <;> cases hr
    | _ => trivial
  · cases h with
    | deed c d =>
      constructor
      · rintro rfl
        cases op <;> simp [Op.happening?] at ha
        obtain ⟨rfl, rfl⟩ := ha
        exact hops _ hop
      · rintro rfl
        cases op <;> simp [Op.happening?] at ha
    | _ => trivial

theorem Fresh.balanced (hw : w.Fresh) : w.Balanced := by
  intro c k hk
  simp [hw.conns] at hk

/-- **The balance is kept** at every moment of a run without made-up confirmations. -/
theorem Balanced.run (hb : w.Balanced) (hw : w.Orderly) {ops : List Op}
    (hops : ∀ c, .handle c .burstConfirmed ∉ ops) :
    (w.run ops).2.Balanced ∧ ∀ m ∈ w.story ops, m.before.Balanced := by
  rw [run_snd]
  exact keeps (fun w h hord _ hg hb => hb.happen hord hg) hw (fitting_history hw ops)
    (genuine_history hops) hb

/-- **One confirmation for each outstanding burst.** In every run in which nobody hands made-up
confirmations to connections, at the end and at every moment before: for an open connection whose
events are still received, the confirmations that phones keep for it, those that run on the clock
and those in its mailbox are exactly one while its burst is outstanding, and none otherwise. -/
theorem confirmations_balanced (w : World) (hw : w.Fresh) (ops : List Op)
    (hops : ∀ c, .handle c .burstConfirmed ∉ ops) :
    (w.run ops).2.Balanced ∧ ∀ m ∈ w.story ops, m.before.Balanced :=
  hw.balanced.run hw.orderly hops

/-- Two digits on a phone that confirms when asked: the first is out, the second is queued. -/
theorem confirmations_balanced_served :
    let w := served (Leg.outgoing "5550100" (some 0))
    let ops : List Op := [.connect (some 0) {}, .play 0 '1', .play 0 '2']
    w.Fresh ∧ (∀ c, .handle c .burstConfirmed ∉ ops) ∧
      (w.run ops).2.conns.map (·.tones.pending) = [true] ∧ (w.run ops).2.heldFor 0 = 1 ∧
      (w.run ops).2.Balanced ∧ ∀ m ∈ w.story ops, m.before.Balanced := by
  have hops : ∀ c, Op.handle c .burstConfirmed ∉
      ([.connect (some 0) {}, .play 0 '1', .play 0 '2'] : List Op) := by simp
  exact ⟨fresh_served _, hops, by decide +kernel, by decide +kernel,
    confirmations_balanced _ (fresh_served _) _ hops⟩

end World

end Runs

end CdmaCall
