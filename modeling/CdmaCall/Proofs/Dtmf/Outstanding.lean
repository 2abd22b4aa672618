import CdmaCall.Proofs.Session.Attendance

/-!
# Where an outstanding confirmation is, and when it is due

While a burst of an open connection is outstanding, at least one confirmation of it is to come, even
if others were made up (`Reachable.backed`). A phone that confirms by itself keeps none
(`heldFor_happen`): its confirmations run on the clock (`exists_running`), and no longer than the
slowest phone takes (`Reachable.soon`). How long a phone takes never changes (`delays_happen`).
-/

namespace CdmaCall

section Defs

namespace Scene

/-- The phone, if there is one, confirms bursts by itself. -/
def SelfConfirming (s : Scene) : Prop := s.phone.map (·.confirmDelay) ≠ some none

/-- A change that starts confirmations only as the phone does. -/
structure Timely (s s' : Scene) : Prop where
  phone : s'.phone.map (·.confirmDelay) = s.phone.map (·.confirmDelay)
  now : s'.clock.now = s.clock.now
  dated : ∀ t ∈ s'.clock.pending, t.job.event = .burstConfirmed → t ∈ s.clock.pending ∨
    ∃ delay, s.phone.map (·.confirmDelay) = some (some delay) ∧
      t.due = s.clock.now + Clock.bounded delay
  held : s.SelfConfirming → ∀ i, s'.heldFor i = s.heldFor i

/-- An outstanding burst has a confirmation to come, in sight or among `n` others. -/
def Backs (n : ℕ) (s : Scene) : Prop :=
  s.conn.tones.pending.toNat ≤
    n + s.tokens s.id + s.conn.mailbox.waiting.count .burstConfirmed

end Scene

namespace World

/-- Whether a burst of connection `c` is outstanding. -/
def busy (w : World) (c : ConnId) : Bool := (w.conns[c]?.map (·.tones.pending)).getD false

/-- How long each phone takes to confirm a burst, if it does that by itself. -/
def delays (w : World) : List (Option ℕ) := w.phones.map (·.confirmDelay)

/-- The phone that serves connection `c`, if there is one, confirms bursts by itself. -/
def SelfConfirms (w : World) (c : ConnId) : Prop :=
  ∀ p phone, w.phoneAt c = some p → w.phones[p]? = some phone → phone.confirmDelay.isSome = true

/-- No phone that confirms bursts by itself takes longer than `limit`. -/
def ConfirmsWithin (w : World) (limit : ℕ) : Prop := ∀ delay, some delay ∈ w.delays → delay ≤ limit

/-- No confirmation runs for longer than `limit` from now on. -/
def Soon (w : World) (limit : ℕ) : Prop :=
  ∀ t ∈ w.clock.pending, t.job.event = .burstConfirmed → t.due ≤ w.clock.now + limit

/-- An outstanding burst of an open connection whose events somebody receives has a confirmation to
come. -/
def Backed (w : World) : Prop :=
  ∀ (c : ConnId) (k : Conn), w.conns[c]? = some k → k.closed = false →
    k.mailbox.receiverGone = false →
    k.tones.pending.toNat ≤ w.owed c + k.mailbox.waiting.count .burstConfirmed

/-- The same, but that the delivery `d` is still to be made. -/
def BackedBy (w : World) (d : Delivery) : Prop :=
  ∀ (c : ConnId) (k : Conn), w.conns[c]? = some k → k.closed = false →
    k.mailbox.receiverGone = false →
    k.tones.pending.toNat ≤ w.owed c + k.mailbox.waiting.count .burstConfirmed +
      if d = ⟨c, .burstConfirmed⟩ then 1 else 0

end World

end Defs

namespace Scene

variable {s s' s'' : Scene} {d : Deed} {full : Bool} {n : ℕ}

/-! ### Confirmations that are started -/

section Starting

theorem Timely.refl (s : Scene) : Timely s s := ⟨rfl, rfl, fun _ ht _ => .inl ht, fun _ _ => rfl⟩

theorem Timely.trans (h : Timely s s') (h' : Timely s' s'') : Timely s s'' where
  phone := h'.phone.trans h.phone
  now := h'.now.trans h.now
  dated t ht he := by
    rcases h'.dated t ht he with ht | ⟨delay, hdelay, hdue⟩
    · exact h.dated t ht he
    · exact .inr ⟨delay, h.phone ▸ hdelay, h.now ▸ hdue⟩
  held hself i := by
    have hself' : s'.SelfConfirming := by rwa [SelfConfirming, h.phone]
    exact (h'.held hself' i).trans (h.held hself i)

/-- A change that starts no confirmation. -/
theorem Timely.of_phone {f : Phone → Phone} (hphone : s'.phone = s.phone.map f)
    (hdelay : ∀ p, (f p).confirmDelay = p.confirmDelay) (hheld : ∀ p, (f p).held = p.held)
    (hnow : s'.clock.now = s.clock.now)
    (hsub : ∀ t ∈ s'.clock.pending, t.job.event = .burstConfirmed → t ∈ s.clock.pending) :
    Timely s s' where
  phone := by
    rw [hphone, Option.map_map]
    exact congrArg (s.phone.map ·) (funext hdelay)
  now := hnow
  dated t ht he := .inl (hsub t ht he)
  held _ i := by
    unfold heldFor
    rw [hphone]
    cases s.phone <;> simp [hheld]

/-- A change of what is neither phone nor clock. -/
theorem Timely.of_eq (hphone : s'.phone = s.phone) (hclock : s'.clock = s.clock) : Timely s s' :=
  .of_phone (f := fun p => p) (by simp [hphone]) (fun _ => rfl) (fun _ => rfl) (by rw [hclock])
    fun t ht _ => hclock ▸ ht

theorem Timely.of_bit (hs : s.Timed) (h : Bit full s s') : Timely s s' := by
  obtain ⟨f, hf, hdelay, hheld⟩ : ∃ f : Phone → Phone, s'.phone = s.phone.map f ∧
      (∀ p, (f p).confirmDelay = p.confirmDelay) ∧ ∀ p, (f p).held = p.held := by
    have hsame (hphone : s'.phone = s.phone) : ∃ f : Phone → Phone, s'.phone = s.phone.map f ∧
        (∀ p, (f p).confirmDelay = p.confirmDelay) ∧ ∀ p, (f p).held = p.held :=
      ⟨fun p => p, by simp [hphone], fun _ => rfl, fun _ => rfl⟩
    cases h with
    | perform =>
      rename_i a ha
      rw [perform_eq_of_not_burst s ha]
      exact ⟨(·.record a), rfl, fun _ => rfl, fun _ => rfl⟩
    | register => exact ⟨(·.register s.id), rfl, fun _ => rfl, fun _ => rfl⟩
    | unregister => exact ⟨(·.unregister s.id), rfl, fun _ => rfl, fun _ => rfl⟩
    | hangUp => exact hsame (phone_hangUp s)
    | correct => exact hsame (phone_onLineControl s)
    | _ => exact hsame rfl
  exact .of_phone hf hdelay hheld (onward_bit hs h).now fun t ht _ => mem_bit h ht

theorem timely_path (hs : s.Timed) (h : Path full s s') : Timely s s' :=
  (Path.keeps (fun _ _ hb (ht : Timed _ ∧ Timely s _) =>
    ⟨(onward_bit ht.1 hb).timed, ht.2.trans (.of_bit ht.1 hb)⟩) h ⟨hs, .refl s⟩).2

/-- **A burst** starts its confirmation, if the phone confirms by itself. -/
theorem timely_burst (s : Scene) (t : Transmitter) (digits : List Char) :
    Timely s (s.perform (t.burstOf digits)) := by
  cases hp : s.phone with
  | none =>
    rw [perform_none hp]
    exact .refl s
  | some p =>
    cases hd : p.confirmDelay with
    | none =>
      rw [perform_burst_kept s t digits hp hd]
      refine ⟨by simp [hp, Phone.record], rfl, fun _ ht _ => .inl ht, fun hself => ?_⟩
      exact absurd (by rw [hp, Option.map_some, hd]) hself
    | some delay =>
      rw [perform_burst_delayed s t digits hp hd]
      refine ⟨by simp [hp, Phone.record], rfl, fun u hu _ => ?_, fun _ i => ?_⟩
      · rcases List.mem_append.1 hu with hu | hu
        · exact .inl hu
        · refine .inr ⟨delay, by rw [hp, Option.map_some, hd], ?_⟩
          rw [List.mem_singleton.1 hu]
      · simp [heldFor, hp, Phone.record]

theorem timely_keyPath (hs : s.Timed) (h : KeyPath s s') : Timely s s' := by
  refine (KeyPath.keeps (R := fun u => u.Timed ∧ Timely s u) (fun u u' hb hu => ?_) h
    ⟨hs, .refl s⟩).2
  refine ⟨(onward_keyBit hu.1 hb).timed, hu.2.trans ?_⟩
  cases hb with
  | quiet hb => exact .of_bit hu.1 hb
  | queue => exact .of_eq rfl rfl
  | send digits =>
    have htones : Timely u (u.putTones { u.conn.tones with pending := true }) := .of_eq rfl rfl
    exact htones.trans (timely_burst _ _ _)

theorem timely_handle (hs : s.Timed) (e : Event) : Timely s (s.handle e) := by
  by_cases he : e = .burstConfirmed
  · subst he
    have htones (u : Scene) (t : Transmitter) : Timely u (u.putTones t) := .of_eq rfl rfl
    unfold handle
    split_ifs
    · exact .refl s
    · rcases onBurstConfirmed_cases s with ⟨-, h⟩ | ⟨-, -, h⟩
      · rw [h]
        exact htones s _
      · rw [h]
        exact ((htones s _).trans (htones _ _)).trans (timely_burst _ _ _)
  · exact timely_path hs (path_handle s he)

theorem timely_arm (hs : s.Timed) : Timely s s.arm.2 := by
  have hdisarm := Timely.of_bit hs (Bit.disarm s)
  rw [arm_eq]
  split_ifs
  · refine hdisarm.trans (.of_phone (f := fun p => p) (by simp [rearm, putGuard])
      (fun _ => rfl) (fun _ => rfl) rfl fun t ht he => ?_)
    rcases List.mem_append.1 ht with ht | ht
    · exact ht
    · rw [List.mem_singleton.1 ht] at he
      cases he
  · exact hdisarm.trans (.of_eq rfl rfl)

theorem timely_close (hs : s.Timed) : Timely s s.close := by
  by_cases hclosed : s.conn.closed = true
  · rw [close, if_pos hclosed]
    exact .refl s
  · have hdisarm := Timely.of_bit hs (Bit.disarm s)
    rw [close_eq s (by simpa using hclosed)]
    exact hdisarm.trans (.of_phone (f := (·.unregister s.id)) rfl (fun _ => rfl) (fun _ => rfl) rfl
      fun _ ht _ => ht)

/-- **Every deed** starts confirmations only as the phone does. -/
theorem timely_act (hs : s.Timed) (d : Deed) : Timely s (s.act d) := by
  by_cases hbits : d.ofBits = true
  · exact timely_path hs (path_act s hbits)
  cases d with
  | play digit => exact timely_keyPath hs (keyPath_playTone s digit)
  | keys digits => exact timely_keyPath hs (keyPath_pressKeys digits s)
  | close => exact timely_close hs
  | handle e => exact timely_handle hs e
  | fetch =>
    unfold act fetch
    cases s.conn.mailbox.waiting with
    | nil => exact .refl s
    | cons e rest =>
      have hmail : Timely s (s.putMail { s.conn.mailbox with waiting := rest }) := .of_eq rfl rfl
      exact hmail.trans (timely_handle (s := s.putMail { s.conn.mailbox with waiting := rest })
        ⟨hs.clock, hs.known, hs.own⟩ e)
  | post | attend | retire => exact .of_eq rfl rfl
  | arm => exact timely_arm hs
  | _ => exact absurd rfl hbits

end Starting

/-! ### Confirmations that are outstanding -/

section Backing

theorem Even.backs (h : Even s s') (hmail : s'.conn.mailbox = s.conn.mailbox) (hs : s.Backs n) :
    s'.Backs n := by
  have htokens := h.tokens
  unfold Backs at *
  rw [h.id, hmail]
  omega

/-- A confirmation that is handled leaves a burst outstanding only if it brings a new one. -/
theorem backs_onBurstConfirmed (s : Scene) : s.onBurstConfirmed.Backs n := by
  have htokens := tokens_onBurstConfirmed s
  have hid : s.onBurstConfirmed.id = s.id := (anchored_onBurstConfirmed s).id
  unfold Backs
  rw [hid, htokens]
  omega

theorem backs_handle (hs : s.Timed) (hopen : s.conn.closed = false) (e : Event)
    (h : e ≠ .burstConfirmed → s.Backs n) : (s.handle e).Backs n := by
  by_cases he : e = .burstConfirmed
  · subst he
    unfold handle
    rw [if_neg (by simp [hopen])]
    exact backs_onBurstConfirmed s
  · exact (even_path hs (path_handle s he)).backs (undisturbed_handle s e).mailbox (h he)

theorem backs_fetch (hs : s.Timed) (hopen : s.conn.closed = false) (h : s.Backs n) :
    s.fetch.Backs n := by
  unfold fetch
  cases hw : s.conn.mailbox.waiting with
  | nil => exact h
  | cons e rest =>
    refine backs_handle (s := s.putMail { s.conn.mailbox with waiting := rest })
      ⟨hs.clock, hs.known, hs.own⟩ hopen e fun he => ?_
    have hcount : rest.count .burstConfirmed = s.conn.mailbox.waiting.count .burstConfirmed := by
      rw [hw, List.count_cons_of_ne he]
    exact h.trans_eq (congrArg (n + s.tokens s.id + ·) hcount).symm

theorem backs_post (h : s.Backs n) (e : Event) : (s.act (.post e)).Backs n := by
  unfold Backs act Mailbox.post at *
  split_ifs
  · have hcount : s.conn.mailbox.waiting.count .burstConfirmed ≤
        (s.conn.mailbox.waiting ++ [e]).count .burstConfirmed := by
      rw [List.count_append]
      exact Nat.le_add_right _ _
    exact h.trans (Nat.add_le_add_left hcount _)
  · exact h

/-- **Every deed but closing** leaves a confirmation to come for an outstanding burst. -/
theorem backs_act (hs : s.Timed) (hopen : s.conn.closed = false) (hclose : d ≠ .close)
    (hretire : d ≠ .retire) (h : s.Backs n) : (s.act d).Backs n := by
  have hquiet (he : Even s (s.act d)) (hd : d.touchesMail = false) : (s.act d).Backs n :=
    he.backs (undisturbed_act s hd).mailbox h
  by_cases hbits : d.ofBits = true
  · exact hquiet (even_path hs (path_act s hbits)) (Deed.touchesMail_of_bits hbits)
  cases d with
  | play digit => exact hquiet (even_keyPath hs (keyPath_playTone s digit)) rfl
  | keys digits => exact hquiet (even_keyPath hs (keyPath_pressKeys digits s)) rfl
  | close => exact absurd rfl hclose
  | handle e => exact backs_handle hs hopen e fun _ => h
  | fetch => exact backs_fetch hs hopen h
  | post e => exact backs_post h e
  | attend => exact h
  | retire => exact absurd rfl hretire
  | arm => exact hquiet (even_arm hs) rfl
  | _ => exact absurd rfl hbits

end Backing

end Scene

namespace World

open Scene

variable {w : World} {c i : ConnId} {s : Scene} {d : Deed} {x : Happening} {k k' : Conn}
  {limit : ℕ} {t : Timer Delivery}

/-! ### Phones -/

section Phones

/-- **How long a phone takes never changes.** -/
theorem delays_happen (hw : w.Orderly) (x : Happening) : (w.happen x).delays = w.delays := by
  have hdeed (v : World) (hv : v.Orderly) (i : ConnId) (d : Deed) :
      (v.happen (.deed i d)).delays = v.delays := by
    rcases within_or_le v i with ⟨s, hin⟩ | hle
    · rw [hin.happen_deed]
      refine map_place_of_eq ?_ (timely_act (hv.timed hin) d).phone
      rw [hin.phone, hin.phoneAt]
    · rw [happen, onScene_of_none hle]
  cases x with
  | deed i d => exact hdeed w hw i d
  | hold p active =>
    exact map_modify_of_eq ({ · with holding := active }) (·.confirmDelay) (fun _ => rfl) w.phones p
  | release l =>
    rw [happen, hangUpLeg]
    cases w.legs[l]? <;> rfl
  | confirm p =>
    rw [happen]
    cases hp : w.phones[p]?.bind (·.releaseBurst) with
    | none => rfl
    | some taken =>
      obtain ⟨phone, hphone, hrelease⟩ := Option.bind_eq_some_iff.1 hp
      refine (hdeed _ (hw.give hp) taken.1 (.post .burstConfirmed)).trans ?_
      have hsame : taken.2.confirmDelay = phone.confirmDelay := by
        rw [releaseBurst_keeps hrelease]
      exact map_place_of_eq (i := some p) (a := some taken.2) hphone.symm (by simp [hsame])
  | expire limit =>
    rw [happen]
    cases hn : w.clock.next? limit with
    | none => rfl
    | some next => exact hdeed _ (hw.next hn) next.1.target (.post next.1.event)
  | _ => rfl

/-- Where all phones confirm by themselves, every connection has such a phone. -/
theorem selfConfirms_of_delays (h : none ∉ w.delays) (c : ConnId) : w.SelfConfirms c := by
  intro p phone _ hget
  rw [Option.isSome_iff_ne_none]
  intro hnone
  exact h (hnone ▸ List.mem_map_of_mem (List.mem_of_getElem? hget))

theorem Within.selfConfirming (h : Within w c s) (hself : w.SelfConfirms c) :
    s.SelfConfirming := by
  intro hnone
  obtain ⟨phone, hphone, hdelay⟩ := Option.map_eq_some_iff.1 hnone
  rw [h.phone, ← h.phoneAt] at hphone
  obtain ⟨p, hp, hget⟩ := Option.bind_eq_some_iff.1 hphone
  have hsome := hself p phone hp hget
  rw [hdelay] at hsome
  cases hsome

/-- The phone of a scene is one of the phones. -/
theorem Within.mem_delays (h : Within w c s) {delay : Option ℕ}
    (hdelay : s.phone.map (·.confirmDelay) = some delay) : delay ∈ w.delays := by
  obtain ⟨phone, hphone, rfl⟩ := Option.map_eq_some_iff.1 hdelay
  rw [h.phone] at hphone
  obtain ⟨p, -, hget⟩ := Option.bind_eq_some_iff.1 hphone
  exact List.mem_map_of_mem (List.mem_of_getElem? hget)

/-- **A phone that confirms by itself keeps no confirmation** for those that it serves. -/
theorem heldFor_happen (hw : w.Orderly) (hself : w.SelfConfirms c) (x : Happening) :
    (w.happen x).heldFor c ≤ w.heldFor c := by
  have hhand (v : World) (d : Delivery) (hv : v.heldFor c ≤ w.heldFor c) :
      (v.hand d).heldFor c ≤ w.heldFor c := by
    unfold World.heldFor at hv ⊢
    rwa [(hand_eq v d).1]
  cases x with
  | deed i d =>
    rcases within_or_le w i with ⟨s, hin⟩ | hle
    · have hboth := hin.heldFor (phone_act s d) c
      have hsame : (s.act d).heldFor c = s.heldFor c := by
        by_cases hi : i = c
        · subst hi
          exact (timely_act (hw.timed hin) d).held (hin.selfConfirming hself) i
        · exact (onward_act (hw.timed hin) d).held c (hin.id ▸ Ne.symm hi)
      rw [hin.happen_deed]
      omega
    · rw [happen, onScene_of_none hle]
  | hold p active =>
    refine (congrArg List.sum ?_).le
    exact map_modify_of_eq ({ · with holding := active }) (·.held.count c) (fun _ => rfl) w.phones p
  | release l =>
    rw [happen, hangUpLeg]
    cases w.legs[l]? <;> exact le_rfl
  | confirm p =>
    rw [happen]
    cases hp : w.phones[p]?.bind (·.releaseBurst) with
    | none => exact le_rfl
    | some taken =>
      have hrelease := heldFor_release hp c
      exact hhand _ _ (by omega)
  | expire limit =>
    rw [happen]
    cases w.clock.next? limit with
    | none => exact le_rfl
    | some next => exact hhand _ _ le_rfl
  | _ => exact le_rfl

end Phones

/-! ### When confirmations are due -/

section Dates

/-- A confirmation on the clock was there before, or was started by a phone just now. -/
theorem dated_happen (hw : w.Orderly) (ht : t ∈ (w.happen x).clock.pending)
    (he : t.job.event = .burstConfirmed) : t ∈ w.clock.pending ∨
      ∃ delay, some delay ∈ w.delays ∧ t.due = w.clock.now + Clock.bounded delay := by
  cases x with
  | deed i d =>
    rcases within_or_le w i with ⟨s, hin⟩ | hle
    · rw [hin.happen_deed, putScene_clock] at ht
      rcases (timely_act (hw.timed hin) d).dated t ht he with hold | ⟨delay, hdelay, hdue⟩
      · exact .inl (hin.clock ▸ hold)
      · exact .inr ⟨delay, hin.mem_delays hdelay, hin.clock ▸ hdue⟩
    · rw [happen, onScene_of_none hle] at ht
      exact .inl ht
  | release l =>
    rw [happen, hangUpLeg] at ht
    cases hl : w.legs[l]? <;> exact .inl (by simpa [hl] using ht)
  | confirm p =>
    rw [happen] at ht
    cases hp : w.phones[p]?.bind (·.releaseBurst) with
    | none => exact .inl (by simpa [hp] using ht)
    | some taken =>
      simp only [hp] at ht
      rw [(hand_eq _ _).2] at ht
      exact .inl ht
  | expire limit =>
    rcases hn : w.clock.next? limit with _ | ⟨job, clock⟩
    · simp only [happen, hn] at ht
      exact .inl ht
    · obtain ⟨u, -, -, hpending⟩ := clock_expire hn
      rw [hpending] at ht
      exact .inl (Clock.mem_cancel.1 ht).1
  | _ => exact .inl ht

theorem Soon.happen (h : w.Soon limit) (hw : w.Orderly) (hf : x.Fits w)
    (hwithin : w.ConfirmsWithin limit) : (w.happen x).Soon limit := by
  have hnow := now_le_happen hw hf
  intro t ht he
  rcases dated_happen hw ht he with hold | ⟨delay, hdelay, hdue⟩
  · exact (h t hold he).trans (Nat.add_le_add_right hnow limit)
  · have hle : Clock.bounded delay ≤ limit := (Nat.min_le_left _ _).trans (hwithin delay hdelay)
    omega

end Dates

/-! ### Outstanding bursts -/

section Bursts

/-- What an open connection gets is put behind what waits for it, and nothing else changes. -/
theorem conn_hand (hw : w.Orderly) {d : Delivery} (hk' : (w.hand d).conns[c]? = some k')
    (hopen : k'.closed = false) (hreceiver : k'.mailbox.receiverGone = false) :
    ∃ k, w.conns[c]? = some k ∧ k' = { k with mailbox := { k.mailbox with
      waiting := k.mailbox.waiting ++ if d.target = c then [d.event] else [] } } := by
  rcases within_or_le w d.target with ⟨s, hin⟩ | hle
  · have hhand : w.hand d = w.putScene d.target (s.act (.post d.event)) := onScene_of_within hin _
    rw [hhand] at hk'
    by_cases hc : d.target = c
    · subst hc
      rw [hin.putScene_same] at hk'
      obtain rfl := Option.some.inj hk'
      have hshut := (hw.shut _ (List.mem_of_getElem? hin.conn)).trans hopen
      have haccepts : s.conn.mailbox.accepts = true := by
        simp [Mailbox.accepts, hshut, (receiver_act s hreceiver).2]
      rw [act_post s d.event haccepts, if_pos rfl]
      exact ⟨s.conn, hin.conn, rfl⟩
    · rw [putScene_other (Ne.symm hc)] at hk'
      exact ⟨k', hk', by simp [hc]⟩
  · have hhand : w.hand d = w := onScene_of_none hle _
    rw [hhand] at hk'
    have hc : d.target ≠ c := by
      rintro rfl
      exact absurd (List.getElem?_eq_some_iff.1 hk').1 (Nat.not_lt.2 hle)
    exact ⟨k', hk', by simp [hc]⟩

theorem count_singleton_if (d : Delivery) (c : ConnId) :
    (if d.target = c then [d.event] else []).count .burstConfirmed =
      if d = ⟨c, .burstConfirmed⟩ then 1 else 0 := by
  obtain ⟨target, event⟩ := d
  by_cases hc : target = c
  · subst hc
    cases event <;> simp
  · simp [hc]

/-- The delivery that was still to be made is made. -/
theorem BackedBy.hand (hw : w.Orderly) {d : Delivery} (h : w.BackedBy d) : (w.hand d).Backed := by
  intro c k' hk' hopen hreceiver
  obtain ⟨k, hk, rfl⟩ := conn_hand hw hk' hopen hreceiver
  have howed : (w.hand d).owed c = w.owed c := by
    unfold World.owed World.heldFor running
    rw [(hand_eq w d).1, (hand_eq w d).2]
  have hold := h c k hk hopen hreceiver
  have hcount := count_singleton_if d c
  dsimp only at hopen hreceiver ⊢
  rw [howed, List.count_append]
  omega

theorem Backed.deed (h : w.Backed) (hw : w.Orderly) (i : ConnId) (d : Deed) :
    (w.happen (.deed i d)).Backed := by
  rcases within_or_le w i with ⟨s, hin⟩ | hle
  · have hs := hw.timed hin
    have hon := onward_act hs d
    rw [hin.happen_deed]
    intro c k hk hopen hreceiver
    have htokens := hin.tokens (phone_act s d) c
    unfold World.owed
    by_cases hc : c = i
    · subst hc
      rw [hin.putScene_same] at hk
      obtain rfl := Option.some.inj hk
      have hclose : d ≠ .close := by
        rintro rfl
        cases (closed_close s).symm.trans hopen
      obtain ⟨hretire, hgone⟩ := receiver_act s hreceiver
      rw [closed_act s hclose] at hopen
      have hold := h c s.conn hin.conn hopen hgone
      have hle := hin.tokens_le c
      have hbacks : s.Backs (w.heldFor c + w.running c - s.tokens c) := by
        unfold Backs
        unfold World.owed at hold
        rw [hin.id]
        omega
      have hact := backs_act hs hopen hclose hretire hbacks
      unfold Backs at hact
      rw [hon.id, hin.id] at hact
      omega
    · rw [putScene_other hc] at hk
      have hold := h c k hk hopen hreceiver
      have hsame := hon.tokens (hin.id ▸ hc)
      unfold World.owed at hold
      omega
  · rw [happen, onScene_of_none hle]
    exact h

theorem Backed.of_eq {w' : World} (h : w.Backed) (hconns : w'.conns = w.conns)
    (howed : ∀ i, w'.owed i = w.owed i) : w'.Backed := by
  intro c k hk hopen hreceiver
  rw [howed]
  exact h c k (hconns ▸ hk) hopen hreceiver

theorem Backed.enlist (h : w.Backed) (o : Options) : (w.happen (.enlist o)).Backed := by
  intro c k' hk' hopen hreceiver
  rcases hk : w.conns[c]? with _ | k
  · obtain ⟨o', rfl⟩ := fresh_happen hk hk'
    exact Nat.zero_le _
  · have hold : (w.conns ++ [Conn.fresh o])[c]? = some k := by
      rw [List.getElem?_append_left (List.getElem?_eq_some_iff.1 hk).1, hk]
    obtain rfl := Option.some.inj (hold.symm.trans hk')
    exact h c k hk hopen hreceiver

theorem Backed.assign (h : w.Backed) (i : ConnId) (l : LegId) :
    (w.happen (.assign i l)).Backed := by
  intro c k hk hopen hreceiver
  rw [World.happen, setLeg_getElem?] at hk
  split_ifs at hk
  · obtain ⟨k₀, hk₀, rfl⟩ := Option.map_eq_some_iff.1 hk
    exact h c k₀ hk₀ hopen hreceiver
  · exact h c k hk hopen hreceiver

theorem Backed.confirm (h : w.Backed) {p : PhoneId} {phone : Phone} {i : ConnId}
    (hp : w.phones[p]?.bind (·.releaseBurst) = some (i, phone)) :
    ({ w with phones := w.phones.set p phone } : World).BackedBy ⟨i, .burstConfirmed⟩ := by
  intro c k hk hopen hreceiver
  have hold := h c k hk hopen hreceiver
  have hheld := heldFor_release hp c
  have hrun : ({ w with phones := w.phones.set p phone } : World).running c = w.running c := rfl
  unfold World.owed at hold ⊢
  omega

theorem Backed.next (h : w.Backed) (hw : w.Orderly) {d : Delivery} {clock : Clock Delivery}
    (hn : w.clock.next? limit = some (d, clock)) : ({ w with clock } : World).BackedBy d := by
  intro c k hk hopen hreceiver
  have hold := h c k hk hopen hreceiver
  have hrun := running_next hw hn c
  have hheld : ({ w with clock } : World).heldFor c = w.heldFor c := rfl
  unfold World.owed at hold ⊢
  omega

/-- **An outstanding burst has a confirmation to come**, whatever happens. -/
theorem Backed.happen (h : w.Backed) (hw : w.Orderly) (x : Happening) : (w.happen x).Backed := by
  cases x with
  | deed i d => exact h.deed hw i d
  | enlist o => exact h.enlist o
  | assign i l => exact h.assign i l
  | release l =>
    rw [World.happen, hangUpLeg]
    cases w.legs[l]? with
    | none => exact h
    | some leg => exact h.of_eq rfl fun _ => rfl
  | hold p active =>
    refine h.of_eq rfl fun i => congrArg (· + w.running i) (congrArg List.sum ?_)
    exact map_modify_of_eq ({ · with holding := active }) (·.held.count i) (fun _ => rfl) w.phones p
  | confirm p =>
    rw [World.happen]
    cases hp : w.phones[p]?.bind (·.releaseBurst) with
    | none => exact h
    | some taken => exact (h.confirm hp).hand (hw.give hp)
  | expire limit =>
    rw [World.happen]
    cases hn : w.clock.next? limit with
    | none => exact h
    | some next => exact (h.next hw hn).hand (hw.next hn)
  | _ => exact h.of_eq rfl fun _ => rfl

end Bursts

/-! ### Sessions -/

section Sessions

theorem delays_run (hw : w.Orderly) (ops : List Op) :
    (w.run ops).2.delays = w.delays ∧ ∀ m ∈ w.story ops, m.before.delays = w.delays := by
  rw [run_snd]
  exact keeps (R := fun v => v.delays = w.delays) (P := fun _ => True)
    (fun v x hv _ _ h => (delays_happen hv x).trans h) hw (fitting_history hw ops)
    (fun _ _ => trivial) rfl

theorem Reachable.backed (h : w.Reachable) : w.Backed := by
  obtain ⟨start, ops, hfresh, rfl⟩ := h
  have hstart : start.Backed := fun c k hk => by simp [hfresh.conns] at hk
  rw [run_snd]
  exact (keeps (P := fun _ => True) (fun v x hv _ _ h => Backed.happen h hv x) hfresh.orderly
    (fitting_history hfresh.orderly ops) (fun _ _ => trivial) hstart).1

/-- **No confirmation is later than the slowest phone.** -/
theorem Reachable.soon (h : w.Reachable) (hwithin : w.ConfirmsWithin limit) : w.Soon limit := by
  obtain ⟨start, ops, hfresh, rfl⟩ := h
  have hdelays := (delays_run hfresh.orderly ops).1
  have hstart : start.ConfirmsWithin limit ∧ start.Soon limit := by
    refine ⟨fun delay hdelay => hwithin delay (hdelays ▸ hdelay), fun t ht => ?_⟩
    simp [hfresh.pending] at ht
  rw [run_snd]
  refine (keeps (R := fun v => v.ConfirmsWithin limit ∧ v.Soon limit) (P := fun _ => True)
    (fun v x hv hf _ h => ⟨?_, h.2.happen hv hf h.1⟩) hfresh.orderly
    (fitting_history hfresh.orderly ops) (fun _ _ => trivial) hstart).1.2
  exact fun delay hdelay => h.1 delay (delays_happen hv x ▸ hdelay)

/-- Where all phones confirm by themselves none keeps a confirmation. -/
theorem Reachable.heldFor (h : w.Reachable) (hself : none ∉ w.delays) (c : ConnId) :
    w.heldFor c = 0 := by
  obtain ⟨start, ops, hfresh, rfl⟩ := h
  rw [(delays_run hfresh.orderly ops).1] at hself
  have hstart : start.heldFor c = 0 := by
    refine List.sum_eq_zero_iff_forall_eq_nat.2 fun n hn => ?_
    obtain ⟨p, hp, rfl⟩ := List.mem_map.1 hn
    rw [hfresh.held p hp]
    rfl
  rw [run_snd]
  refine (keeps (R := fun v => none ∉ v.delays ∧ v.heldFor c = 0) (P := fun _ => True)
    (fun v x hv _ _ h => ⟨delays_happen hv x ▸ h.1, ?_⟩) hfresh.orderly
    (fitting_history hfresh.orderly ops) (fun _ _ => trivial) ⟨hself, hstart⟩).1.2
  exact Nat.le_zero.1 ((heldFor_happen hv (selfConfirms_of_delays h.1 c) x).trans h.2.le)

/-- **A burst that is outstanding** while nothing waits and no phone keeps a confirmation has its
confirmation on the clock. -/
theorem exists_running (hbacked : w.Backed) (hatt : w.Attended c) (hcaught : w.CaughtUp)
    (hheld : w.heldFor c = 0) (hbusy : w.busy c = true) :
    ∃ t ∈ w.clock.pending, t.job = ⟨c, .burstConfirmed⟩ := by
  obtain ⟨k, hk, hatt⟩ := hatt
  have hpending : k.tones.pending = true := by simpa [busy, hk] using hbusy
  have hcount := hbacked c k hk hatt.opened hatt.received
  rw [hcaught c k hk hatt, hpending, World.owed, hheld, List.count_nil] at hcount
  have hpos : 0 < w.running c := by
    rw [Bool.toNat_true] at hcount
    omega
  obtain ⟨t, ht, hjob⟩ := List.countP_pos_iff.1 hpos
  exact ⟨t, ht, by simpa using hjob⟩

end Sessions

end World

end CdmaCall
