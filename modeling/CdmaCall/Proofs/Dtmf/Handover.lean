import CdmaCall.Proofs.Session.Requests

/-!
# Bursts and the bearer of the leg

Packet voice has no bursts, and a digit that is asked for on a packet voice leg goes out as a
continuous tone. But the mode is chosen when a digit is asked for, and a digit that has to wait
leaves later: a confirmation sends the queue on whatever leg the connection is bound to by then. So
every burst is asked for on a circuit switched leg, or sends digits that were queued on one
(`burst_asked_on_circuit`), and after a handover a burst does go out on a packet voice leg
(`burst_after_handover`).
-/

namespace CdmaCall

section Defs

/-- The digits of connection `c` that wait for a confirmation. -/
def World.queueOf (w : World) (c : ConnId) : List Char := (w.conns[c]?.map (·.tones.queue)).getD []

namespace Moment

/-- Connection `c` is bound to a leg. -/
def Rebinds (c : ConnId) (m : Moment) : Prop := ∃ l, m.what = .assign c l

instance (c : ConnId) (m : Moment) : Decidable (m.Rebinds c) :=
  match h : m.what with
  | .assign i l => decidable_of_iff (i = c) (by simp [Rebinds, h])
  | .deed .. | .enlist _ | .report .. | .refuse .. | .release _ | .hold .. | .prefer _ | .confirm _
  | .expire _ | .pass _ => isFalse (by simp [Rebinds, h])

/-- Connection `c` asks for digits while its leg is circuit switched, and `digits` wait then. -/
structure Queues (c : ConnId) (digits : List Char) (m : Moment) : Prop where
  what : ∃ d, m.what = .deed c d ∧ d.plays = true
  bearer : m.before.bearerAt c = .circuitSwitched
  waits : m.after.queueOf c = digits

/-- Whether connection `c` handles the confirmation of a burst: one that is handed over, or one that
waits first. -/
def confirms (c : ConnId) (m : Moment) : Bool :=
  match m.what with
  | .deed i (.handle e) => i == c && e == .burstConfirmed
  | .deed i .fetch =>
    i == c && (m.before.conns[c]?.bind (·.mailbox.waiting.head?)) == some .burstConfirmed
  | _ => false

end Moment

end Defs

namespace Scene

variable {s : Scene}

/-- Only circuit switched legs have bursts. -/
theorem bearer_of_burst (h : s.toneMode = .burst) : s.bearer = .circuitSwitched := by
  unfold toneMode ToneMode.select at h
  cases hb : s.bearer with
  | circuitSwitched => rfl
  | packetVoice => simp [hb] at h

/-- Closing empties the queue. -/
theorem queue_close (hopen : s.conn.closed = false) : s.close.conn.tones.queue = [] := by
  rw [close_eq s hopen]
  rfl

end Scene

namespace World

open Scene

variable {w start : World} {c : ConnId} {s : Scene} {d : Deed} {p : PhoneId} {x : Happening}
  {ms pre post : List Moment} {m : Moment} {ops : List Op} {digits : List Char} {on off : ℕ}

theorem Within.queueOf (h : Within w c s) : w.queueOf c = s.conn.tones.queue := by
  rw [World.queueOf, h.conn]
  rfl

theorem Within.confirms (h : Within w c s) :
    Moment.confirms c ⟨w, .deed c d⟩ = (s.event? d == some .burstConfirmed) := by
  cases d with
  | handle e => cases e <;> simp [Moment.confirms, event?]
  | fetch => simp [Moment.confirms, event?, h.conn]
  | _ => rfl

/-- What waits changes by deeds of the connection only. -/
theorem queueOf_happen (hx : ∀ d, x ≠ .deed c d) : (w.happen x).queueOf c = w.queueOf c :=
  seen_happen (f := (·.tones.queue)) (fun _ => rfl) (fun _ _ => rfl) (fun _ _ => rfl) hx

/-! ### Where queued digits come from -/

/-- What waits was put together by a request at one of the moments so far, on a circuit switched
leg, and the leg still is circuit switched unless the connection was bound to another since. -/
def Queued (c : ConnId) (ms : List Moment) (w : World) : Prop :=
  w.queueOf c ≠ [] → ∃ first q since, ms = first ++ q :: since ∧ q.Queues c (w.queueOf c) ∧
    (w.bearerAt c = .circuitSwitched ∨ ∃ m ∈ since, m.Rebinds c)

/-- A moment that leaves the queue as it is, and the bearer unless it binds the connection. -/
theorem Queued.keep (h : Queued c ms w) (hqueue : (w.happen x).queueOf c = w.queueOf c)
    (hbearer : (w.happen x).bearerAt c = w.bearerAt c ∨ Moment.Rebinds c ⟨w, x⟩) :
    Queued c (ms ++ [⟨w, x⟩]) (w.happen x) := by
  intro hne
  rw [hqueue] at hne ⊢
  obtain ⟨first, q, since, hms, hq, hleg⟩ := h hne
  refine ⟨first, q, since ++ [⟨w, x⟩], by simp [hms], hq, ?_⟩
  rcases hleg with hcircuit | ⟨m, hm, hrebinds⟩
  · rcases hbearer with hsame | hrebinds
    · exact .inl (hsame.trans hcircuit)
    · exact .inr ⟨_, List.mem_append_right _ (List.mem_singleton_self _), hrebinds⟩
  · exact .inr ⟨m, List.mem_append_left _ hm, hrebinds⟩

theorem Queued.deed (h : Queued c ms w) (hin : Within w c s) (d : Deed) :
    Queued c (ms ++ [⟨w, .deed c d⟩]) (w.happen (.deed c d)) := by
  have hafter : (w.happen (.deed c d)).queueOf c = (s.act d).conn.tones.queue := by
    rw [World.queueOf, hin.conn_deed]
    rfl
  by_cases hclose : d = .close
  · subst hclose
    by_cases hclosed : s.conn.closed = true
    · have hsame : s.act .close = s := by rw [act, close, if_pos hclosed]
      have hworld : w.happen (.deed c .close) = w := by
        rw [hin.happen_deed, hsame, hin.putScene_self]
      exact h.keep (by rw [hworld]) (.inl (by rw [hworld]))
    · exact fun hne => absurd (hafter.trans (queue_close (by simpa using hclosed))) hne
  · have hbearer : (w.happen (.deed c d)).bearerAt c = w.bearerAt c :=
      bearerAt_happen (fun l he => by cases he) fun he => hclose (Happening.deed.inj he).2
    rcases queue_act s d with hsame | hempty | ⟨hplays, hmode⟩
    · exact h.keep (by rw [hafter, hsame, hin.queueOf]) (.inl hbearer)
    · exact fun hne => absurd (hafter.trans hempty) hne
    · have hcircuit : w.bearerAt c = .circuitSwitched := hin.bearerAt.trans (bearer_of_burst hmode)
      exact fun _ => ⟨ms, _, [], rfl, ⟨⟨d, rfl, hplays⟩, hcircuit, rfl⟩,
        .inl (hbearer.trans hcircuit)⟩

/-- **One moment.** -/
theorem Queued.next (h : Queued c ms w) (x : Happening) :
    Queued c (ms ++ [⟨w, x⟩]) (w.happen x) := by
  by_cases hx : ∃ d, x = .deed c d
  · obtain ⟨d, rfl⟩ := hx
    rcases within_or_le w c with ⟨s, hin⟩ | hle
    · exact h.deed hin d
    · have hworld : w.happen (.deed c d) = w := onScene_of_none hle _
      exact h.keep (by rw [hworld]) (.inl (by rw [hworld]))
  · have hdeed : ∀ d, x ≠ .deed c d := fun d he => hx ⟨d, he⟩
    refine h.keep (queueOf_happen hdeed) ?_
    by_cases hassign : ∃ l, x = .assign c l
    · exact .inr hassign
    · exact .inl (bearerAt_happen (fun l he => hassign ⟨l, he⟩) (hdeed .close))

/-- **At every moment of a session.** -/
theorem queued_story (hstart : start.Fresh) (hstory : start.story ops = pre ++ m :: post) :
    Queued c pre m.before := by
  obtain ⟨hs, -, -, hpre, hbefore⟩ := moments_split hstory
  have hempty : Queued c [] start := by
    intro hne
    simp [World.queueOf, hstart.conns] at hne
  have hkept := kept_along hs (fun ms w x (h : Queued c ms w) => h.next x) hempty
  rw [hpre, hbefore]
  exact hkept

/-! ### Bursts -/

/-- **Every burst is asked for on a circuit switched leg.** Whenever a connection sends a burst, it
is to the phone that serves its leg. Either it asks for digits, its leg is circuit switched and the
mode is that of bursts; or it handles a confirmation, and sends all the digits that wait, which it
asked for at an earlier moment on a circuit switched leg: the leg still is, unless since that moment
the connection was bound to a leg. -/
theorem burst_asked_on_circuit (hstart : start.Fresh)
    (hstory : start.story ops = pre ++ m :: post) (hburst : m.Asks c p (.burst digits on off)) :
    m.before.phoneAt c = some p ∧
      (m.before.bearerAt c = .circuitSwitched ∧ m.before.toneModeAt c = .burst ∨
        m.confirms c = true ∧ m.before.queueOf c = digits ∧ ∃ first q since,
          pre = first ++ q :: since ∧ q.Queues c digits ∧
          (m.before.bearerAt c = .circuitSwitched ∨ ∃ m' ∈ since, m'.Rebinds c)) := by
  have hm : m ∈ start.story ops := hstory ▸ List.mem_append_right _ (List.mem_cons_self ..)
  obtain ⟨s, d, hin, hwhat, hphone, hpermits⟩ := asks_story hstart hm hburst
  refine ⟨hphone, ?_⟩
  cases hpermits with
  | burst _ _ _ _ hmode =>
    exact .inl ⟨hin.bearerAt.trans (bearer_of_burst hmode), hin.toneModeAt.trans hmode⟩
  | flush _ _ he hqueue =>
    have hconfirms : m.confirms c = true := by
      obtain ⟨w, x⟩ := m
      obtain rfl : x = .deed c d := hwhat
      rw [hin.confirms, he]
      rfl
    have hwaits := queued_story (c := c) hstart hstory
    rw [Queued, hin.queueOf] at hwaits
    exact .inr ⟨hconfirms, hin.queueOf, hwaits hqueue⟩
  | plain ha => cases ha

/-- A leg carried by packet voice. -/
def packetLeg : Leg := { Leg.outgoing "5550101" (some 0) with bearer := .packetVoice }

/-- A phone with a circuit switched leg and one that packet voice carries. -/
def servedMixed : World :=
  { phones := [{ id := 0 }], legs := [Leg.outgoing "5550100" (some 0), packetLeg] }

theorem fresh_servedMixed : servedMixed.Fresh :=
  ⟨rfl, rfl, by simp [servedMixed], by simp [servedMixed], by simp [servedMixed]⟩

/-- A digit that waits is sent after the connection was bound to a packet voice leg. -/
theorem burst_asked_on_circuit_servedMixed :
    let ops : List Op := [.connect (some 0) {}, .play 0 '1', .play 0 '2', .rebind 0 1, .drive 0,
      .confirm 0]
    ∃ pre m post, servedMixed.story ops = pre ++ m :: post ∧ m.Asks 0 0 (.burst ['2'] 0 0) ∧
      m.before.bearerAt 0 = .packetVoice ∧ m.confirms 0 = true ∧ ∃ first q since,
        pre = first ++ q :: since ∧ q.Queues 0 ['2'] ∧ ∃ m' ∈ since, m'.Rebinds 0 := by
  intro ops
  have hsent : ∃ m ∈ servedMixed.story ops, m.Asks 0 0 (.burst ['2'] 0 0) ∧
      m.before.bearerAt 0 = .packetVoice := by decide +kernel
  obtain ⟨m, hm, hburst, hpacket⟩ := hsent
  obtain ⟨pre, post, hstory⟩ := List.append_of_mem hm
  refine ⟨pre, m, post, hstory, hburst, hpacket, ?_⟩
  obtain ⟨-, ⟨hcircuit, -⟩ | ⟨hconfirms, -, first, q, since, hpre, hq, hleg⟩⟩ :=
    burst_asked_on_circuit fresh_servedMixed hstory hburst
  · cases hpacket.symm.trans hcircuit
  · rcases hleg with hcircuit | hrebinds
    · cases hpacket.symm.trans hcircuit
    · exact ⟨hconfirms, first, q, since, hpre, hq, hrebinds⟩

/-- **A burst goes out on packet voice.** A digit waits, the connection is bound to a packet voice
leg, and the confirmation of the burst before sends the digit there as a burst. -/
theorem burst_after_handover :
    let ops : List Op := [.connect (some 0) {}, .play 0 '1', .play 0 '2', .rebind 0 1, .drive 0,
      .confirm 0]
    servedMixed.Fresh ∧
      (¬∀ m ∈ servedMixed.story ops, ∀ digits on off, m.Asks 0 0 (.burst digits on off) →
        m.before.bearerAt 0 = .circuitSwitched) ∧
      (servedMixed.run ops).2.phones.map (·.bursts) = [[['1'], ['2']]] ∧
      (servedMixed.run ops).2.conns.map (·.leg) = [some 1] := by
  intro ops
  have hsent : ∃ m ∈ servedMixed.story ops, m.Asks 0 0 (.burst ['2'] 0 0) ∧
      m.before.bearerAt 0 = .packetVoice := by decide +kernel
  refine ⟨fresh_servedMixed, fun hall => ?_, by decide +kernel, by decide +kernel⟩
  obtain ⟨m, hm, hburst, hpacket⟩ := hsent
  cases hpacket.symm.trans (hall m hm _ _ _ hburst)

end World

end CdmaCall
