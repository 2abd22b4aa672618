import CdmaCall.Proofs.Lifecycle.Standing
import CdmaCall.Proofs.Session.Setup
import CdmaCall.Proofs.World.Network
import CdmaCall.Proofs.World.Workload

/-!
# The emergency cue

All connections share one player. Who begins to dial an emergency number starts it, and whoever
enters another phase or is closed stops it, whether it was started for them or not. So the cue
never outlives the dialing that started it (`cue_has_dialer`), but a call that goes on dialing loses
it to any other call, and a call that becomes an emergency by being bound to another leg does not
get it (`cue_lost_to_others`). It plays for an emergency call that dials unless one of these two
things came about since it began to dial (`cue_plays_unless_lost`).
-/

namespace CdmaCall

/-! ## Definitions -/

section Defs

/-- Whether a connection that stands there is open and dials. -/
def Standing.dials (t : Standing) : Bool := !t.closed && t.phase == .dialing

/-- Where the life of connection `c` stands. One that is not made yet stands where it will begin. -/
def World.standing (w : World) (c : ConnId) : Standing := (w.conns[c]?.map (·.standing)).getD {}

/-- Whether the call of connection `c` is an emergency call. -/
def World.urgent (w : World) (c : ConnId) : Bool := (w.scene? c).any (·.isEmergency)

/-- The cue plays for every emergency call that dials. -/
def World.CuePlays (w : World) : Prop :=
  ∀ player, w.player = some player → ∀ c k, w.conns[c]? = some k → k.closed = false →
    k.phase = .dialing → w.urgent c = true → player.playing = true

namespace Moment

/-- Connection `c` starts the cue. -/
def StartsCue (c : ConnId) (m : Moment) : Prop :=
  m.what.subject? = some c ∧
    ∃ player, m.before.player = some player ∧ m.after.player = some player.start

/-- Connection `c` stops the cue, which may not be playing. -/
def StopsCue (c : ConnId) (m : Moment) : Prop :=
  m.what.subject? = some c ∧
    ∃ player, m.before.player = some player ∧ m.after.player = some player.stop

/-- Connection `c` enters `Phase.dialing`, and tells it. -/
def Dials (c : ConnId) (m : Moment) : Prop :=
  (m.after.standing c).notices = (m.before.standing c).notices ++ [⟨c, .entered .dialing⟩]

instance (c : ConnId) (m : Moment) : Decidable (m.Dials c) := inferInstanceAs (Decidable (_ = _))

end Moment

/-- The latest of the moments `ms` with the property `Q` is `m`, and `post` is what came after. -/
structure Latest (Q : Moment → Prop) (ms : List Moment) (m : Moment) (post : List Moment) :
    Prop where
  split : ∃ pre, ms = pre ++ m :: post
  holds : Q m
  later : ∀ m' ∈ post, ¬Q m'

end Defs

namespace Latest

variable {Q : Moment → Prop} {ms post : List Moment} {m m' : Moment}

theorem mem (h : Latest Q ms m post) : m ∈ ms := by
  obtain ⟨pre, rfl⟩ := h.split
  simp

theorem now (h : Q m) : Latest Q (ms ++ [m]) m [] := ⟨⟨ms, rfl⟩, h, by simp⟩

theorem next (h : Latest Q ms m post) (hm' : ¬Q m') :
    Latest Q (ms ++ [m']) m (post ++ [m']) := by
  obtain ⟨⟨pre, hsplit⟩, hm, hpost⟩ := h
  refine ⟨⟨pre, by simp [hsplit]⟩, hm, fun m₁ hm₁ => ?_⟩
  rcases List.mem_append.1 hm₁ with hm₁ | hm₁
  · exact hpost m₁ hm₁
  · rwa [List.mem_singleton.1 hm₁]

end Latest

/-! ## The cue under one deed -/

namespace Scene

variable {s s' u : Scene}

/-- What a deed makes of the cue and of who dials: nothing, the connection begins to dial, or it
stops the cue and does not dial. -/
inductive Cueing (s s' : Scene) : Prop
  | quiet (hplayer : s'.player = s.player) (hstanding : s'.conn.standing = s.conn.standing)
  | dial (hdials : s'.conn.standing.dials = true)
      (hnotices : s'.conn.notices = s.conn.notices ++ [⟨s.id, .entered .dialing⟩])
      (hplayer : s'.player = if s.isEmergency then s.player.map CuePlayer.start else s.player)
  | leave (hdials : s'.conn.standing.dials = false)
      (hplayer : s'.player = s.player.map CuePlayer.stop)

theorem cueing_enter (h : Aside s u) (hlive : s.conn.isLive = true) (p : Phase) :
    Cueing s (u.enter p) := by
  have hlive' : u.conn.isLive = true := h.isLive.trans hlive
  have hplayer : (u.enter p).player = s.player.map fun player =>
      if p = .dialing then (if s.isEmergency then player.start else player) else player.stop := by
    rw [enter_eq u p hlive', ← h.player, ← h.isEmergency]
    exact cue_player _ p
  have hopen : (u.enter p).conn.closed = false := by
    rw [enter_eq u p hlive']
    show u.conn.closed = false
    exact open_of_isLive hlive'
  have hphase : (u.enter p).conn.phase = p := by rw [enter_eq u p hlive']
  by_cases hp : p = .dialing
  · subst hp
    refine .dial ?_ ?_ ?_
    · simp [Standing.dials, Conn.standing, hopen, hphase]
    · rw [enter_eq u .dialing hlive', ← h.notices, ← h.anchored.id]
    · rw [hplayer]
      rcases s.isEmergency <;> simp
  · refine .leave ?_ ?_
    · simp [Standing.dials, Conn.standing, hphase, hp]
    · simp only [hplayer, if_neg hp]

/-- **The cue under any deed.** -/
theorem cueing_act (s : Scene) (d : Deed) : Cueing s (s.act d) := by
  rcases effect_act s d with h | ⟨u, p, h, hlive, -, hs'⟩ | ⟨u, cause, h, hlive, hs'⟩ |
    ⟨-, hopen, hs'⟩ | ⟨mailbox, -, -, hs'⟩ | ⟨-, hs'⟩ | ⟨-, hs'⟩
  · exact .quiet h.player h.standing
  · rw [hs']
    exact cueing_enter h hlive p
  · have hlive' : u.conn.isLive = true := h.isLive.trans hlive
    rw [hs', disconnect_eq u cause (open_of_isLive hlive') (going_of_isLive hlive')]
    refine .leave (by simp [Standing.dials, Conn.standing]) ?_
    show ((_ : Scene).cue .disconnected).player = _
    rw [cue_player, ← h.player]
    rfl
  · rw [hs', close_eq s hopen]
    exact .leave rfl rfl
  · rw [hs']
    unfold onLineControl
    rcases (s.putMail mailbox).leg with _ | leg
    · exact .quiet rfl rfl
    · exact .quiet rfl rfl
  · rw [hs']
    exact .quiet rfl rfl
  · rw [hs']
    exact .quiet rfl rfl

end Scene

/-! ## The cue in a world -/

namespace World

open Scene

variable {w start : World} {c i : ConnId} {s : Scene} {d : Deed} {x : Happening}
  {ms : List Moment} {player : CuePlayer}

theorem Within.standing (h : Within w c s) : w.standing c = s.conn.standing := by
  simp [World.standing, h.conn]

theorem Within.urgent (h : Within w c s) : w.urgent c = s.isEmergency := by
  simp [World.urgent, scene?_eq_some_iff.2 h]

theorem exists_of_dials (h : (w.standing c).dials = true) :
    ∃ s, Within w c s ∧ s.conn.closed = false ∧ s.conn.phase = .dialing := by
  rcases within_or_le w c with ⟨s, hin⟩ | hle
  · rw [hin.standing] at h
    obtain ⟨hopen, hphase⟩ := Bool.and_eq_true_iff.1 h
    exact ⟨s, hin, by simpa [Conn.standing] using hopen, by simpa [Conn.standing] using hphase⟩
  · rw [World.standing, List.getElem?_eq_none_iff.2 hle] at h
    cases h

/-- Only its own deeds lead a connection on. -/
theorem standing_happen (hx : ∀ d, x ≠ .deed c d) :
    (w.happen x).standing c = w.standing c :=
  seen_happen (fun _ => rfl) (fun _ _ => rfl) (fun _ _ => rfl) hx

/-- What something that happens makes of the cue and of who dials: nothing, a connection begins to
dial, or one stops the cue and does not dial. -/
inductive CueStep (w : World) (x : Happening) : Prop
  | quiet (hplayer : (w.happen x).player = w.player)
      (hsame : ∀ c, (w.happen x).standing c = w.standing c)
  | dial (c : ConnId) (d : Deed) (hx : x = .deed c d)
      (hothers : ∀ i, i ≠ c → (w.happen x).standing i = w.standing i)
      (hdials : ((w.happen x).standing c).dials = true)
      (hnotices : Moment.Dials c ⟨w, x⟩)
      (hplayer : (w.happen x).player =
        if w.urgent c then w.player.map CuePlayer.start else w.player)
  | leave (c : ConnId) (d : Deed) (hx : x = .deed c d)
      (hothers : ∀ i, i ≠ c → (w.happen x).standing i = w.standing i)
      (hdials : ((w.happen x).standing c).dials = false)
      (hplayer : (w.happen x).player = w.player.map CuePlayer.stop)

theorem cueStep_deed (w : World) (c : ConnId) (d : Deed) : CueStep w (.deed c d) := by
  have hothers (i : ConnId) (hi : i ≠ c) : (w.happen (.deed c d)).standing i = w.standing i :=
    standing_happen fun d' hd' => hi (Happening.deed.inj hd').1.symm
  rcases within_or_le w c with ⟨s, hin⟩ | hle
  · have hplayer : (w.happen (.deed c d)).player = (s.act d).player := by rw [hin.happen_deed]; rfl
    have hown : (w.happen (.deed c d)).standing c = (s.act d).conn.standing := by
      rw [World.standing, hin.conn_deed]
      rfl
    rcases cueing_act s d with ⟨hp, hstanding⟩ | ⟨hdials, hnotices, hp⟩ | ⟨hdials, hp⟩
    · refine .quiet (by rw [hplayer, hp, hin.player]) fun i => ?_
      by_cases hi : i = c
      · rw [hi, hown, hstanding, hin.standing]
      · exact hothers i hi
    · refine .dial c d rfl hothers (by rwa [hown]) ?_ (by rw [hplayer, hp, hin.player, hin.urgent])
      show ((w.happen (.deed c d)).standing c).notices = (w.standing c).notices ++ _
      rw [hown, hin.standing, ← hin.id]
      exact hnotices
    · exact .leave c d rfl hothers (by rwa [hown]) (by rw [hplayer, hp, hin.player])
  · have hsame : w.happen (.deed c d) = w := onScene_of_none hle _
    exact .quiet (by rw [hsame]) fun _ => by rw [hsame]

/-- **The cue whatever happens.** -/
theorem cueStep (w : World) (x : Happening) : CueStep w x := by
  have hhand (v : World) (d : Delivery) : (v.hand d).player = v.player := by
    rcases within_or_le v d.target with ⟨s, hin⟩ | hle
    · rw [hand, onScene_of_within hin]
      exact hin.player
    · rw [hand, onScene_of_none hle]
  by_cases hx : ∃ c d, x = .deed c d
  · obtain ⟨c, d, rfl⟩ := hx
    exact cueStep_deed w c d
  · refine .quiet ?_ fun c => standing_happen fun d hd => hx ⟨c, d, hd⟩
    cases x with
    | deed c d => exact absurd ⟨c, d, rfl⟩ hx
    | release l =>
      rw [happen, hangUpLeg]
      rcases w.legs[l]? <;> rfl
    | confirm p =>
      rw [happen]
      rcases w.phones[p]?.bind (·.releaseBurst) with _ | taken
      · rfl
      · exact hhand _ _
    | expire limit =>
      rw [happen]
      rcases w.clock.next? limit with _ | next
      · rfl
      · exact hhand _ _
    | _ => rfl

/-! ### The cue has a dialer -/

/-- The cue is silent, or somebody dials who was the last to start it, for an emergency call. -/
def HasDialer (ms : List Moment) (w : World) : Prop :=
  ∀ player, w.player = some player → player.playing = true → ∃ c m post,
    (w.standing c).dials = true ∧ Latest (fun m => ∃ i, m.StartsCue i) ms m post ∧
      m.StartsCue c ∧ m.before.urgent c = true

theorem not_startsCue (h : (w.happen x).player = w.player) : ¬Moment.StartsCue i ⟨w, x⟩ := by
  rintro ⟨-, player, hbefore, hafter⟩
  have hsame : some player.start = some player := hafter.symm.trans (h.trans hbefore)
  have hstarts := congrArg CuePlayer.starts (Option.some.inj hsame)
  exact Nat.succ_ne_self _ hstarts

/-- Who dialed still dials, and the player is as before. -/
theorem HasDialer.next (h : HasDialer ms w) (hplayer : (w.happen x).player = w.player)
    (hdials : ∀ c, (w.standing c).dials = true → ((w.happen x).standing c).dials = true) :
    HasDialer (ms ++ [⟨w, x⟩]) (w.happen x) := by
  intro player hp hplaying
  obtain ⟨c, m, post, hc, hlatest, hstarts, hurgent⟩ := h player (hplayer ▸ hp) hplaying
  refine ⟨c, m, post ++ [⟨w, x⟩], hdials c hc, hlatest.next ?_, hstarts, hurgent⟩
  rintro ⟨i, hi⟩
  exact not_startsCue hplayer hi

theorem HasDialer.happen (h : HasDialer ms w) (x : Happening) :
    HasDialer (ms ++ [⟨w, x⟩]) (w.happen x) := by
  rcases cueStep w x with ⟨hplayer, hsame⟩ | ⟨c, d, hx, hothers, hdials, -, hplayer⟩ |
    ⟨c, d, hx, hothers, hdials, hplayer⟩
  · exact h.next hplayer fun c hc => by rwa [hsame c]
  · by_cases hurgent : w.urgent c = true
    · -- Now this connection is the last that started the cue.
      rw [if_pos hurgent] at hplayer
      intro player hp _
      rw [hplayer] at hp
      obtain ⟨old, hold, -⟩ := Option.map_eq_some_iff.1 hp
      have hstarts : Moment.StartsCue c ⟨w, x⟩ := by
        refine ⟨by rw [hx]; rfl, old, hold, ?_⟩
        show (w.happen x).player = _
        rw [hplayer, hold]
        rfl
      exact ⟨c, ⟨w, x⟩, [], hdials, .now ⟨c, hstarts⟩, hstarts, hurgent⟩
    · rw [if_neg hurgent] at hplayer
      refine h.next hplayer fun i hi => ?_
      by_cases hic : i = c
      · rwa [hic]
      · rwa [hothers i hic]
  · intro player hp hplaying
    rw [hplayer] at hp
    obtain ⟨old, -, rfl⟩ := Option.map_eq_some_iff.1 hp
    cases hplaying

/-- **The cue never outlives the dialing.** Whenever the player plays, there is an open connection
that dials and that was the last to start the cue: when it did so, it was bound to a leg that has a
phone and an emergency number as its address. So the player is silent once every connection is in
another phase or closed. -/
theorem cue_has_dialer
    (hsilent : ∀ player, start.player = some player → player.playing = false) (ops : List Op)
    (n : ℕ) (hplayer : (start.during ops n).player = some player) :
    (player.playing = true → ∃ c k m post, (start.during ops n).conns[c]? = some k ∧
      k.closed = false ∧ k.phase = .dialing ∧
      Latest (fun m => ∃ i, m.StartsCue i) ((start.story ops).take n) m post ∧
      m.StartsCue c ∧ m.before.urgent c = true) ∧
    ((∀ k ∈ (start.during ops n).conns, k.closed = true ∨ k.phase ≠ .dialing) →
      player.playing = false) := by
  have hdialer : HasDialer ((start.story ops).take n) (start.during ops n) := by
    refine kept_during start ops n (fun ms w x h => h.happen x) fun player hp hplaying => ?_
    cases (hsilent player hp).symm.trans hplaying
  have hplays : player.playing = true → ∃ c k m post, (start.during ops n).conns[c]? = some k ∧
      k.closed = false ∧ k.phase = .dialing ∧
      Latest (fun m => ∃ i, m.StartsCue i) ((start.story ops).take n) m post ∧
      m.StartsCue c ∧ m.before.urgent c = true := by
    intro hplaying
    obtain ⟨c, m, post, hdials, hlatest⟩ := hdialer player hplayer hplaying
    obtain ⟨s, hin, hopen, hphase⟩ := exists_of_dials hdials
    exact ⟨c, s.conn, m, post, hin.conn, hopen, hphase, hlatest⟩
  refine ⟨hplays, fun hnone => ?_⟩
  rw [Bool.eq_false_iff]
  intro hplaying
  obtain ⟨c, k, m, post, hk, hopen, hphase, -⟩ := hplays hplaying
  rcases hnone k (List.mem_of_getElem? hk) with hclosed | hother
  · cases hopen.symm.trans hclosed
  · exact hother hphase

/-- An emergency call dials, and gets through. -/
theorem cue_has_dialer_served :
    let w := served (Leg.outgoing "911" (some 0))
    let ops : List Op := [.connect (some 0) {}, .legState 0 .active, .update 0]
    w.Fresh ∧ (w.during ops 7).player = some { playing := true, starts := 1, stops := 0 } ∧
      (∃ c k m post, (w.during ops 7).conns[c]? = some k ∧ k.closed = false ∧
        k.phase = .dialing ∧ Latest (fun m => ∃ i, m.StartsCue i) ((w.story ops).take 7) m post ∧
        m.StartsCue c ∧ m.before.urgent c = true) ∧
      (∀ k ∈ (w.during ops 10).conns, k.closed = true ∨ k.phase ≠ .dialing) ∧
      ∃ player, (w.during ops 10).player = some player ∧ player.playing = false := by
  intro w ops
  have hsilent : ∀ player, w.player = some player → player.playing = false := by decide
  have hplays : (w.during ops 7).player = some { playing := true, starts := 1, stops := 0 } := by
    decide +kernel
  have hnone : ∀ k ∈ (w.during ops 10).conns, k.closed = true ∨ k.phase ≠ .dialing := by
    decide +kernel
  have hstopped : (w.during ops 10).player = some { playing := false, starts := 1, stops := 1 } := by
    decide +kernel
  exact ⟨fresh_served _, hplays,
    (cue_has_dialer hsilent ops 7 hplays).1 rfl, hnone, _, hstopped,
    (cue_has_dialer hsilent ops 10 hstopped).2 hnone⟩

/-! ### How an emergency call loses the cue -/

/-- Only another leg makes an emergency of a call that dials, or none. -/
theorem urgent_happen (hdials : ((w.happen x).standing c).dials = true)
    (hassign : ∀ l, x ≠ .assign c l) : (w.happen x).urgent c = w.urgent c := by
  obtain ⟨s', hin', hopen, hphase⟩ := exists_of_dials hdials
  rcases within_or_le w c with ⟨s, hin⟩ | hle
  · obtain ⟨k', hk', hchange⟩ := change_happen hin.conn x
    obtain rfl := hin'.conn_eq hk'
    have hclose : x ≠ .deed c .close := by
      rintro rfl
      have hs' := Option.some.inj ((hin.conn_deed .close).symm.trans hk')
      have hclosed : s'.conn.closed = true := hs' ▸ closed_close s
      cases hopen.symm.trans hclosed
    rw [hin'.urgent, hin.urgent]
    exact (sameNetwork_happen w x).isEmergency hin hin' (hchange.leg_eq hassign hclose)
  · obtain ⟨o, ho⟩ := fresh_happen (List.getElem?_eq_none_iff.2 hle) hin'.conn
    rw [ho] at hphase
    cases hphase

/-- What became of the cue of connection `c` since it entered `Phase.dialing`. -/
structure CueFate (c : ConnId) (m : Moment) (post : List Moment) (w : World) : Prop where
  plays : m.before.urgent c = true → (∀ player, w.player = some player → player.playing = true) ∨
    ∃ m' ∈ post, ∃ i, i ≠ c ∧ m'.StopsCue i
  urgent : m.before.urgent c = w.urgent c ∨ ∃ m' ∈ post, ∃ l, m'.what = .assign c l

theorem not_dials (h : (w.happen x).standing c = w.standing c) : ¬Moment.Dials c ⟨w, x⟩ := by
  intro hdials
  have hnotices : ((w.happen x).standing c).notices = (w.standing c).notices ++ _ := hdials
  rw [h] at hnotices
  simp at hnotices

/-- The cue is kept, or somebody else stops it. -/
theorem CueFate.next {m : Moment} {post : List Moment} (h : CueFate c m post w)
    (hdials : ((w.happen x).standing c).dials = true)
    (hcue : (∀ player, (w.happen x).player = some player → player.playing = true) ∨
      (w.happen x).player = w.player ∨ ∃ i, i ≠ c ∧ Moment.StopsCue i ⟨w, x⟩) :
    CueFate c m (post ++ [⟨w, x⟩]) (w.happen x) where
  plays hurgent := by
    rcases hcue with hplays | hsame | ⟨i, hi, hstops⟩
    · exact .inl hplays
    · rcases h.plays hurgent with hplays | ⟨m', hm', hlost⟩
      · exact .inl (hsame ▸ hplays)
      · exact .inr ⟨m', List.mem_append_left _ hm', hlost⟩
    · exact .inr ⟨⟨w, x⟩, by simp, i, hi, hstops⟩
  urgent := by
    by_cases hassign : ∃ l, x = .assign c l
    · obtain ⟨l, hl⟩ := hassign
      exact .inr ⟨⟨w, x⟩, by simp, l, hl⟩
    · have hsame := urgent_happen hdials fun l hl => hassign ⟨l, hl⟩
      rcases h.urgent with hurgent | ⟨m', hm', hl⟩
      · exact .inl (hurgent.trans hsame.symm)
      · exact .inr ⟨m', List.mem_append_left _ hm', hl⟩

theorem cueFate_happen (h : (w.standing c).dials = true →
      ∃ m post, Latest (·.Dials c) ms m post ∧ CueFate c m post w) (x : Happening)
    (hdials : ((w.happen x).standing c).dials = true) :
    ∃ m post, Latest (·.Dials c) (ms ++ [⟨w, x⟩]) m post ∧ CueFate c m post (w.happen x) := by
  -- A connection that stands where it stood goes on to dial.
  have hstays (hsame : (w.happen x).standing c = w.standing c)
      (hcue : (∀ player, (w.happen x).player = some player → player.playing = true) ∨
        (w.happen x).player = w.player ∨ ∃ i, i ≠ c ∧ Moment.StopsCue i ⟨w, x⟩) :
      ∃ m post, Latest (·.Dials c) (ms ++ [⟨w, x⟩]) m post ∧ CueFate c m post (w.happen x) := by
    obtain ⟨m, post, hlatest, hfate⟩ := h (hsame ▸ hdials)
    exact ⟨m, post ++ [⟨w, x⟩], hlatest.next (not_dials hsame), hfate.next hdials hcue⟩
  rcases cueStep w x with ⟨hplayer, hsame⟩ | ⟨i, d, hx, hothers, -, hnotices, hplayer⟩ |
    ⟨i, d, hx, hothers, hstopped, hplayer⟩
  · exact hstays (hsame c) (.inr (.inl hplayer))
  · have hstarts (hurgent : w.urgent i = true) :
        ∀ player, (w.happen x).player = some player → player.playing = true := by
      intro player hp
      rw [hplayer, if_pos hurgent] at hp
      obtain ⟨old, -, rfl⟩ := Option.map_eq_some_iff.1 hp
      rfl
    by_cases hi : c = i
    · subst hi
      refine ⟨⟨w, x⟩, [], .now hnotices, fun hurgent => .inl (hstarts hurgent), .inl ?_⟩
      exact (urgent_happen hdials fun l hl => by cases hx.symm.trans hl).symm
    · refine hstays (hothers c hi) ?_
      by_cases hurgent : w.urgent i = true
      · exact .inl (hstarts hurgent)
      · exact .inr (.inl (by rw [hplayer, if_neg hurgent]))
  · have hi : c ≠ i := by
      rintro rfl
      cases hstopped.symm.trans hdials
    refine hstays (hothers c hi) ?_
    rcases hp : w.player with _ | player
    · exact .inr (.inl (by rw [hplayer, hp]; rfl))
    · refine .inr (.inr ⟨i, Ne.symm hi, by rw [hx]; rfl, player, hp, ?_⟩)
      show (w.happen x).player = _
      rw [hplayer, hp]
      rfl

/-- **The cue plays for an emergency call that dials, unless it is lost.** An open connection that
dials entered `Phase.dialing` at some moment, and not again since then. If its call is an emergency
now, the cue plays, or since that moment another connection has stopped it, or the call was none
at that moment and the connection has been bound to a leg since then. -/
theorem cue_plays_unless_lost (hstart : start.Fresh) (ops : List Op) (n : ℕ) {k : Conn}
    (hplayer : (start.during ops n).player = some player)
    (hk : (start.during ops n).conns[c]? = some k) (hopen : k.closed = false)
    (hphase : k.phase = .dialing) (hurgent : (start.during ops n).urgent c = true) :
    ∃ m post, Latest (·.Dials c) ((start.story ops).take n) m post ∧
      (player.playing = true ∨ (∃ m' ∈ post, ∃ i, i ≠ c ∧ m'.StopsCue i) ∨
        m.before.urgent c = false ∧ ∃ m' ∈ post, ∃ l, m'.what = .assign c l) := by
  have hdials : ((start.during ops n).standing c).dials = true := by
    simp [World.standing, hk, Conn.standing, Standing.dials, hopen, hphase]
  have hfate : ((start.during ops n).standing c).dials = true → ∃ m post,
      Latest (·.Dials c) ((start.story ops).take n) m post ∧
        CueFate c m post (start.during ops n) := by
    refine kept_during (P := fun ms w => (w.standing c).dials = true → ∃ m post,
      Latest (·.Dials c) ms m post ∧ CueFate c m post w) start ops n
      (fun ms w x h => cueFate_happen h x) fun hnone => ?_
    rw [World.standing, hstart.conns] at hnone
    cases hnone
  obtain ⟨m, post, hlatest, hplays, hsame⟩ := hfate hdials
  refine ⟨m, post, hlatest, ?_⟩
  by_cases hm : m.before.urgent c = true
  · rcases hplays hm with hplaying | hlost
    · exact .inl (hplaying player hplayer)
    · exact .inr (.inl hlost)
  · rcases hsame with hsame | hassigned
    · exact absurd (hsame.trans hurgent) hm
    · exact .inr (.inr ⟨by simpa using hm, hassigned⟩)

/-- A phone, and two legs that it serves. -/
def servedTwo (leg other : Leg) : World := { phones := [{ id := 0 }], legs := [leg, other] }

theorem fresh_servedTwo (leg other : Leg) : (servedTwo leg other).Fresh :=
  ⟨rfl, rfl, by simp [servedTwo], by simp [servedTwo], by simp [servedTwo]⟩

/-- An emergency call dials while another call comes in: the other connection stops the cue. -/
theorem cue_plays_unless_lost_servedTwo :
    let w := servedTwo (Leg.outgoing "911" (some 0)) (Leg.ringing "5550100" (some 0))
    let ops : List Op := [.connect (some 0) {}, .connect (some 1) { direction := .incoming }]
    w.Fresh ∧ (w.during ops 14).urgent 0 = true ∧ ∃ m post,
      Latest (·.Dials 0) ((w.story ops).take 14) m post ∧
        ∃ m' ∈ post, ∃ i, i ≠ 0 ∧ m'.StopsCue i := by
  intro w ops
  have hdials : (w.during ops 14).conns[0]?.map (fun k => (k.closed, k.phase)) =
      some (false, .dialing) := by decide +kernel
  have hurgent : (w.during ops 14).urgent 0 = true := by decide +kernel
  have hsilent : (w.during ops 14).player = some { playing := false, starts := 1, stops := 1 } := by
    decide +kernel
  have hbegins : ∀ m ∈ w.story ops, m.Dials 0 → m.before.urgent 0 = true := by decide +kernel
  obtain ⟨k, hk, hstands⟩ := Option.map_eq_some_iff.1 hdials
  obtain ⟨hopen, hphase⟩ := Prod.mk.inj hstands
  obtain ⟨m, post, hlatest, hplays | hlost | ⟨hcalm, -⟩⟩ :=
    cue_plays_unless_lost (fresh_servedTwo _ _) ops 14 hsilent hk hopen hphase hurgent
  · cases hplays
  · exact ⟨fresh_servedTwo _ _, hurgent, m, post, hlatest, hlost⟩
  · cases (hbegins m (List.mem_of_mem_take hlatest.mem) hlatest.holds).symm.trans hcalm

theorem not_cuePlays (hsilent : w.player.map (·.playing) = some false)
    (hstands : w.conns[c]?.map (fun k => (k.closed, k.phase)) = some (false, .dialing))
    (hurgent : w.urgent c = true) : ¬w.CuePlays := by
  intro hplays
  obtain ⟨player, hplayer, hp⟩ := Option.map_eq_some_iff.1 hsilent
  obtain ⟨k, hk, hk'⟩ := Option.map_eq_some_iff.1 hstands
  obtain ⟨hopen, hphase⟩ := Prod.mk.inj hk'
  cases hp.symm.trans (hplays player hplayer c k hk hopen hphase hurgent)

/-- **A call that dials loses the cue to another call**, and a call that becomes an emergency while
it dials does not get it. -/
theorem cue_lost_to_others :
    (let w := servedTwo (Leg.outgoing "911" (some 0)) (Leg.ringing "5550100" (some 0))
     w.Fresh ∧
       ¬(w.run [.connect (some 0) {}, .connect (some 1) { direction := .incoming }]).2.CuePlays) ∧
    (let w := servedTwo (Leg.outgoing "5550100" (some 0)) (Leg.outgoing "911" (some 0))
     w.Fresh ∧ ¬(w.run [.connect (some 0) {}, .rebind 0 1]).2.CuePlays) := by
  refine ⟨⟨fresh_servedTwo _ _, ?_⟩, fresh_servedTwo _ _, ?_⟩
  · exact not_cuePlays (c := 0) (by decide +kernel) (by decide +kernel) (by decide +kernel)
  · exact not_cuePlays (c := 0) (by decide +kernel) (by decide +kernel) (by decide +kernel)

end World

end CdmaCall
