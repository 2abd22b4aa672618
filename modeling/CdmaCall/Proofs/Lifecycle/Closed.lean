import CdmaCall.Proofs.Lifecycle.Notices
import CdmaCall.Proofs.Session.Setup

/-!
# Closed connections

Closing leaves a connection `Shut`: without a leg, a tone, a deadline or a correction, and with a
mailbox that takes nothing in. What is done to a connection that is shut changes nothing but who
reads its mailbox and what still waits there, and so it stays shut, shows the same and tells no
more, and whatever is asked of it leaves phones, legs, cue player and clock alone (`closed_inert`).
-/

namespace CdmaCall

/-- Nothing is left in a connection that could have an effect. -/
structure Conn.Shut (k : Conn) : Prop where
  closed : k.closed = true
  leg : k.leg = none
  queue : k.tones.queue = []
  pending : k.tones.pending = false
  armed : k.guard.armed = none
  made : k.correction.made = false
  shutDown : k.mailbox.shutDown = true

theorem Conn.Shut.deaf {k : Conn} (h : k.Shut) : ¬k.mailbox.accepts = true := by
  simp [Mailbox.accepts, h.shutDown]

/-- A connection but for its mailbox and who reads it. -/
def Conn.bare (k : Conn) : Conn := { k with mailbox := {}, driven := false }

/-- Whether a deed is a request, or an event that is handed over. -/
def Deed.isRequest : Deed → Bool
  | .play _ | .keys _ | .stop | .reject | .answer | .update | .close | .enter _ | .forceDialing _
  | .conference | .handle _ => true
  | _ => false

/-- Whose request something is. -/
def Op.addressee? : Op → Option ConnId
  | .play c _ | .keys c _ | .stop c | .reject c | .answer c | .update c | .close c | .enter c _
  | .forceDialing c _ | .rebind c _ | .handle c _ | .cloneConn c | .conference c _ | .drain c
  | .drive c => some c
  | _ => none

/-! ### Scenes -/

namespace Scene

variable {s : Scene} {d : Deed}

theorem shut_close (hopen : s.conn.closed = false) : s.close.conn.Shut := by
  rw [close_eq s hopen]
  exact ⟨rfl, rfl, rfl, rfl, disarm_armed s, rfl, rfl⟩

theorem pressKeys_closed (hclosed : s.conn.closed = true) (digits : List Char) :
    s.pressKeys digits = (.ok (), s) := by
  induction digits with
  | nil => rfl
  | cons digit digits ih =>
    have hplay : s.playTone digit = (.ok (), s) := by rw [playTone, if_pos hclosed]
    have hstop : s.stopTone = s := by rw [stopTone, if_pos hclosed]
    rw [pressKeys, hplay]
    dsimp only
    rw [hstop, ih]

/-- **Every request looks first whether the connection is closed.** -/
theorem act_of_closed (hclosed : s.conn.closed = true) (hd : d.isRequest = true) :
    s.act d = s := by
  have hlive : s.conn.isLive = false := by simp [Conn.isLive, hclosed]
  have hupdate : s.update = s := by simp [update, hlive]
  have henter (p : Phase) : s.enter p = s := by simp [enter, hlive]
  cases d with
  | play digit => simp [act, playTone, hclosed]
  | keys digits => rw [act, pressKeys_closed hclosed]
  | stop => simp [act, stopTone, hclosed]
  | reject => simp [act, reject, hlive]
  | answer => simp [act, answer, hlive]
  | update => exact hupdate
  | close => simp [act, close, hclosed]
  | enter p => exact henter p
  | forceDialing dialing =>
    cases dialing with
    | true => simp [act, forceDialing, setPhase, henter]
    | false => exact hupdate
  | conference => simp [act, conference, hclosed]
  | handle e => simp [act, handle, hclosed]
  | _ => cases hd

/-- A deed changes at most the mailbox of a connection that is shut, and who reads it. -/
theorem act_shut (hshut : s.conn.Shut) (hphone : s.phone = none) (hd : d.isSetup = false) :
    ∃ mailbox driven, mailbox.shutDown = true ∧
      s.act d = { s with conn := { s.conn with mailbox, driven } } := by
  have hsame (h : s.act d = s) : ∃ mailbox driven, mailbox.shutDown = true ∧
      s.act d = { s with conn := { s.conn with mailbox, driven } } :=
    ⟨s.conn.mailbox, s.conn.driven, hshut.shutDown, h⟩
  have hphones (f : Phone → Phone) : ({ s with phone := s.phone.map f } : Scene) = s := by
    rw [hphone, Option.map_none, ← hphone]
  by_cases hrequest : d.isRequest = true
  · exact hsame (act_of_closed hshut.closed hrequest)
  cases d with
  | fetch =>
    unfold act fetch
    cases s.conn.mailbox.waiting with
    | nil => exact ⟨s.conn.mailbox, s.conn.driven, hshut.shutDown, rfl⟩
    | cons e rest =>
      have hhandle := act_of_closed
        (s := s.putMail { s.conn.mailbox with waiting := rest }) (d := .handle e) hshut.closed rfl
      exact ⟨{ s.conn.mailbox with waiting := rest }, s.conn.driven, hshut.shutDown, hhandle⟩
  | post e => exact hsame (act_post_of_not s e hshut.deaf)
  | attend => exact ⟨s.conn.mailbox, true, hshut.shutDown, rfl⟩
  | retire => exact ⟨s.conn.mailbox.dropReceiver, s.conn.driven, hshut.shutDown, rfl⟩
  | register => exact hsame (hphones _)
  | unregister => exact hsame (hphones _)
  | mark | arm => cases hd
  | _ => exact absurd rfl hrequest

/-- What is shown of connections that are shut and differ in their mailboxes only. -/
theorem snapshot_eq_of_bare {s' : Scene} (hleg : s.leg = none) (hleg' : s'.leg = none)
    (h : s'.conn.bare = s.conn.bare) : s'.snapshot = s.snapshot := by
  have hbare (t : Scene) (ht : t.leg = none) :
      t.snapshot = ({ t with conn := t.conn.bare, leg := none } : Scene).snapshot := by
    rw [← ht]
    rfl
  rw [hbare s hleg, hbare s' hleg', h]
  rfl

end Scene

/-! ### Worlds -/

namespace World

open Scene

variable {w u start : World} {c i : ConnId} {k k' : Conn} {s : Scene} {d : Deed} {x : Happening}
  {hs : List Happening} {ops : List Op} {n : ℕ}

theorem Within.nowhere (h : Within w c s) (hleg : s.conn.leg = none) :
    s.leg = none ∧ s.phone = none := by
  have hs : s.leg = none := by simp [h.leg, hleg]
  refine ⟨hs, ?_⟩
  simp [h.phone, hs]

/-- What changes nothing but the connection of a scene changes nothing else in the world. -/
theorem Within.putScene_conn (h : Within w c s) (k : Conn) :
    w.putScene c { s with conn := k } = { w with conns := w.conns.set c k } := by
  show ({ w.putScene c s with conns := w.conns.set c k } : World) = _
  rw [h.putScene_self]

/-- A deed of a connection that is shut. -/
theorem happen_shut (hk : w.conns[c]? = some k) (hshut : k.Shut) (hd : d.isSetup = false) :
    ∃ k', k'.Shut ∧ k'.bare = k.bare ∧
      w.happen (.deed c d) = { w with conns := w.conns.set c k' } := by
  obtain ⟨s, hin, rfl⟩ := exists_within hk
  obtain ⟨mailbox, driven, hmail, hact⟩ := act_shut hshut (hin.nowhere hshut.leg).2 hd
  refine ⟨{ s.conn with mailbox, driven }, { hshut with shutDown := hmail }, rfl, ?_⟩
  rw [happen, onScene_of_within hin, hact, hin.putScene_conn]

theorem after_shut (hk : w.conns[c]? = some k) (hshut : k.Shut)
    (hhs : ∀ h ∈ hs, ∃ d, d.isSetup = false ∧ h = .deed c d) :
    ∃ conns, w.after hs = { w with conns } := by
  induction hs generalizing w k with
  | nil => exact ⟨w.conns, rfl⟩
  | cons h hs ih =>
    obtain ⟨d, hd, rfl⟩ := hhs h (List.mem_cons_self ..)
    obtain ⟨k', hshut', -, hhappen⟩ := happen_shut hk hshut hd
    have hlt : c < w.conns.length := (List.getElem?_eq_some_iff.1 hk).1
    have hk' : (w.happen (.deed c d)).conns[c]? = some k' := by
      rw [hhappen]
      exact List.getElem?_set_self hlt
    obtain ⟨conns, hafter⟩ := ih hk' hshut' fun h hh => hhs h (List.mem_cons_of_mem _ hh)
    exact ⟨conns, by rw [after_cons, hafter, hhappen]⟩

/-- Marking a call as waiting concerns nobody else. -/
theorem happen_mark (w : World) (i : ConnId) :
    ∃ conns, w.happen (.deed i .mark) = { w with conns } := by
  rcases within_or_le w i with ⟨s, hin⟩ | hle
  · refine ⟨w.conns.set i (s.mark s.legWaits).conn, ?_⟩
    rw [happen, onScene_of_within hin]
    exact hin.putScene_conn _
  · exact ⟨w.conns, onScene_of_none hle _⟩

theorem deliver_shut (hk : w.conns[c]? = some k) (hshut : k.Shut) (e : Event) :
    w.deliver ⟨c, e⟩ = (false, w) := by
  obtain ⟨s, hin, rfl⟩ := exists_within hk
  have hdeaf : s.receive e = (false, s) := by rw [receive, if_neg hshut.deaf]
  rw [deliver, inScene, scene?_eq_some_iff.2 hin]
  simp only [hdeaf, hin.putScene_self]

/-- What a connection that is shut is asked for consists of its own deeds, or makes another
connection. -/
theorem perform_shut (hk : w.conns[c]? = some k) (hshut : k.Shut) {op : Op}
    (hop : op.addressee? = some c) : ∃ conns, (w.perform op).2 = { w with conns } := by
  rw [perform_snd]
  have hfetches : ∀ h ∈ List.replicate k.mailbox.waiting.length (Happening.deed c .fetch),
      ∃ d, d.isSetup = false ∧ h = .deed c d :=
    fun h hh => ⟨.fetch, rfl, List.eq_of_mem_replicate hh⟩
  cases op <;> simp only [Op.addressee?, Option.some.injEq, reduceCtorEq] at hop
  case rebind i l =>
    subst hop
    rw [course, hk]
    dsimp only
    rw [if_pos hshut.closed]
    exact ⟨w.conns, rfl⟩
  case cloneConn i =>
    subst hop
    rw [course, hk]
    simp only [buildCourse, hshut.leg]
    obtain ⟨conns, hmark⟩ := happen_mark (w.happen (.enlist k.options)) w.conns.length
    exact ⟨conns, hmark⟩
  case drain i =>
    subst hop
    rw [course, drainCourse, hk]
    exact after_shut hk hshut hfetches
  case drive i =>
    subst hop
    rw [course, driveCourse, hk]
    dsimp only
    rw [if_pos hshut.shutDown]
    split_ifs with hdriven
    · exact ⟨w.conns, rfl⟩
    · refine after_shut hk hshut fun h hh => ?_
      rcases List.mem_cons.1 hh with rfl | hh
      · exact ⟨.attend, rfl, rfl⟩
      · exact ⟨.retire, rfl, List.mem_singleton.1 hh⟩
  all_goals
    subst hop
    exact after_shut hk hshut fun h hh => ⟨_, rfl, List.mem_singleton.1 hh⟩

/-! ### Being inert -/

/-- Connection `c` is shut for good in the world `u`: it shows `v` and has told `told`, no event
reaches it, what was on its way to it is lost, and nothing that is asked of it has an effect on
anything but the list of connections. -/
structure Inert (u : World) (c : ConnId) (v : Snapshot) (told : List Notification) : Prop where
  scene : ∃ s, u.scene? c = some s ∧ s.snapshot = v ∧ s.conn.notices = told ∧
    s.conn.mailbox.shutDown = true
  deaf : ∀ e, u.deliver ⟨c, e⟩ = (false, u)
  confirm : ∀ p phone, u.phones[p]?.bind (·.releaseBurst) = some (c, phone) →
    (u.confirmBurst p).2 = { u with phones := u.phones.set p phone }
  expire : ∀ limit e clock, u.clock.next? limit = some (⟨c, e⟩, clock) →
    u.happen (.expire limit) = { u with clock }
  perform : ∀ op : Op, op.addressee? = some c → ∃ conns, (u.perform op).2 = { u with conns }
  play : ∀ digit, (u.perform (.play c digit)).1 = .done
  keys : ∀ digits, (u.perform (.keys c digits)).1 = .done
  conference : ∀ other, (u.perform (.conference c other)).1 = .flag false

/-- A connection that is shut is inert. -/
theorem inert_of_shut (hin : Within u c s) (hshut : s.conn.Shut) :
    u.Inert c s.snapshot s.conn.notices where
  scene := ⟨s, scene?_eq_some_iff.2 hin, rfl, rfl, hshut.shutDown⟩
  deaf := deliver_shut hin.conn hshut
  confirm p phone htaken := by
    rw [confirmBurst, htaken]
    exact congrArg Prod.snd (deliver_shut (w := { u with phones := u.phones.set p phone }) hin.conn
      hshut .burstConfirmed)
  expire limit e clock hnext := by
    obtain ⟨s', hin', hconn'⟩ := exists_within (w := { u with clock }) hin.conn
    have hdeaf : ¬s'.conn.mailbox.accepts = true := hconn' ▸ hshut.deaf
    rw [happen, hnext]
    show ({ u with clock } : World).onScene c (·.act (.post e)) = _
    rw [onScene_of_within hin', act_post_of_not s' e hdeaf, hin'.putScene_self]
  perform op hop := perform_shut hin.conn hshut hop
  play digit := by
    have hplay : s.playTone digit = (.ok (), s) := by rw [playTone, if_pos hshut.closed]
    simp [World.perform, inScene, scene?_eq_some_iff.2 hin, hplay, Reply.ofResult]
  keys digits := by
    have hkeys := pressKeys_closed hshut.closed digits
    simp [World.perform, inScene, scene?_eq_some_iff.2 hin, hkeys, Reply.ofResult]
  conference other := by
    have hconference : s.conference = (false, s) := by simp [Scene.conference, hshut.closed]
    simp [World.perform, inScene, scene?_eq_some_iff.2 hin, hconference]

/-! ### Staying shut -/

/-- What is shut stays shut, and the same but for its mailbox, unless it is revived. -/
theorem Change.shut (h : Change w c x k k') (hk : w.conns[c]? = some k) (hshut : k.Shut) :
    k'.Shut ∧ k'.bare = k.bare ∨ Moment.Revives c ⟨w, x⟩ := by
  cases h with
  | none h =>
    subst h
    exact .inl ⟨hshut, rfl⟩
  | deed s d hin hs hx h =>
    subst hs h
    by_cases hd : d.isSetup = true
    · exact .inr ⟨hx ▸ hd, by rw [hx]; rfl, s.conn, hk, hshut.closed⟩
    · obtain ⟨mailbox, driven, hmail, hact⟩ :=
        act_shut hshut (hin.nowhere hshut.leg).2 (by simpa using hd)
      rw [hact]
      exact .inl ⟨{ hshut with shutDown := hmail }, rfl⟩
  | mail e h =>
    subst h
    refine .inl ⟨{ hshut with shutDown := ?_ }, rfl⟩
    rw [Mailbox.post, if_neg hshut.deaf]
    exact hshut.shutDown
  | leg l hx h => exact .inr ⟨by rw [hx]; rfl, by rw [hx]; rfl, k, hk, hshut.closed⟩

/-- What becomes closed is shut. -/
theorem Change.shut_of_open (h : Change w c x k k') (hopen : k.closed = false)
    (hclosed : k'.closed = true) : k'.Shut := by
  by_cases hx : x = .deed c .close
  · subst hx
    cases h with
    | none h =>
      subst h
      cases hopen.symm.trans hclosed
    | deed s d _ hs hx h =>
      obtain ⟨-, rfl⟩ := Happening.deed.inj hx
      subst hs h
      exact shut_close hopen
    | mail e h =>
      subst h
      cases hopen.symm.trans hclosed
    | leg l hx => cases hx
  · cases hopen.symm.trans ((h.closed hx).symm.trans hclosed)

/-- **Whatever is closed is shut**, at every moment of a run. -/
theorem shut_during (hstart : start.Fresh) (hk : (start.during ops n).conns[c]? = some k)
    (hclosed : k.closed = true) : k.Shut := by
  -- Only a revival, which a run does not have, could undo what closing leaves.
  have hkept : k.closed = true →
      k.Shut ∨ ∃ m ∈ start.moments ((start.history ops).take n), m.Revives c := by
    refine kept_from_start (P := fun ms k => k.closed = true → k.Shut ∨ ∃ m ∈ ms, m.Revives c)
      ?_ ?_ _ hstart.conns hk
    · intro _ o hclosed
      cases hclosed
    · intro ms w x k k' hk hchange ih hclosed'
      cases hclosed : k.closed with
      | false => exact .inl (hchange.shut_of_open hclosed hclosed')
      | true =>
        rcases ih hclosed with hshut | ⟨m, hm, hrevives⟩
        · rcases hchange.shut hk hshut with ⟨hshut', -⟩ | hrevives
          · exact .inl hshut'
          · exact .inr ⟨_, List.mem_append_right _ (List.mem_singleton_self _), hrevives⟩
        · exact .inr ⟨m, List.mem_append_left _ hm, hrevives⟩
  rcases hkept hclosed with hshut | ⟨m, hm, hrevives⟩
  · exact hshut
  · rw [moments_take] at hm
    exact absurd hrevives (calm_story ops start m (List.mem_of_mem_take hm))

/-- What is shut is the same ever after, but for its mailbox. -/
theorem bare_during {i : ℕ} (hk : (start.during ops n).conns[c]? = some k) (hshut : k.Shut)
    (hi : n ≤ i) : ∃ k', (start.during ops i).conns[c]? = some k' ∧ k'.Shut ∧ k'.bare = k.bare := by
  have hkept := kept_after (P := fun ms k' => k'.Shut ∧ k'.bare = k.bare ∨ ∃ m ∈ ms, m.Revives c)
    [] ?_ (((start.history ops).take i).drop n) hk (.inl ⟨hshut, rfl⟩)
  · obtain ⟨k', hk', hstays⟩ := hkept
    rw [← during_of_le start ops hi] at hk'
    rcases hstays with hsame | ⟨m, hm, hrevives⟩
    · exact ⟨k', hk', hsame⟩
    · exact absurd hrevives (calm_story ops start m (mem_story_of_between hm))
  · intro ms w x k₁ k₂ hk₁ hchange ih
    rcases ih with ⟨hshut₁, hbare₁⟩ | ⟨m, hm, hrevives⟩
    · rcases hchange.shut hk₁ hshut₁ with ⟨hshut₂, hbare₂⟩ | hrevives
      · exact .inl ⟨hshut₂, hbare₂.trans hbare₁⟩
      · exact .inr ⟨_, List.mem_append_right _ (List.mem_singleton_self _), hrevives⟩
    · exact .inr ⟨m, List.mem_append_left _ hm, hrevives⟩

/-- **A closed connection is inert.** From the moment at which a connection is closed, in whatever
state and in whatever run, it shows one and the same: no queued tone, no outstanding confirmation,
no deadline and no correction. Its last notice is the one of its closing, events do not reach it,
and nothing asked of it has an effect on phones, legs, cue player or clock. -/
theorem closed_inert (hstart : start.Fresh) (ops : List Op)
    (hclose : (start.history ops)[n]? = some (.deed c .close))
    (hc : c < (start.during ops n).conns.length) :
    ∃ v told, v.closed = true ∧ v.queued = 0 ∧ v.confirmationPending = false ∧
      v.timerArmed = false ∧ v.timeCorrected = false ∧ told.getLast? = some ⟨c, .closed⟩ ∧
      ∀ i, n < i → (start.during ops i).Inert c v told := by
  -- What is shown and told right after the closing is what is shown and told from then on.
  have hclosed : ∃ k, (start.during ops (n + 1)).conns[c]? = some k ∧ k.closed = true := by
    obtain ⟨s, hin, -⟩ := exists_within (List.getElem?_eq_getElem hc)
    refine ⟨s.close.conn, ?_, closed_close s⟩
    rw [during_succ start ops hclose, happen, onScene_of_within hin]
    exact hin.putScene_same _
  obtain ⟨k, hk, hclosed⟩ := hclosed
  have hshut := shut_during hstart hk hclosed
  obtain ⟨s, hin, rfl⟩ := exists_within hk
  obtain ⟨l, hl⟩ := exists_life _ hstart.conns hk
  have hlast : s.conn.notices.getLast? = some ⟨c, .closed⟩ := by
    have hnotices : s.conn.notices = l.notices c := congrArg Standing.notices hl
    have hlclosed : l.closed = true := (congrArg Standing.closed hl).symm.trans hclosed
    simp [hnotices, Life.notices, hlclosed]
  refine ⟨s.snapshot, s.conn.notices, hclosed, ?_, hshut.pending, ?_, hshut.made, hlast,
    fun i hi => ?_⟩
  · exact congrArg List.length hshut.queue
  · exact congrArg Option.isSome hshut.armed
  · obtain ⟨k', hk', hshut', hbare⟩ := bare_during hk hshut hi
    obtain ⟨s', hin', rfl⟩ := exists_within hk'
    have hsnapshot : s'.snapshot = s.snapshot :=
      snapshot_eq_of_bare (hin.nowhere hshut.leg).1 (hin'.nowhere hshut'.leg).1 hbare
    have hnotices : s'.conn.notices = s.conn.notices := by
      show s'.conn.bare.notices = s.conn.bare.notices
      rw [hbare]
    exact hsnapshot ▸ hnotices ▸ inert_of_shut hin' hshut'

/-- A call is closed while a burst waits for its confirmation and a digit for the burst. -/
theorem closed_inert_served :
    let w := served (Leg.outgoing "5550100" (some 0))
    let ops : List Op := [.connect (some 0) {}, .play 0 '1', .play 0 '2', .close 0, .confirm 0,
      .play 0 'x', .rebind 0 0]
    w.Fresh ∧ (w.during ops 11).conns.map (fun k => (k.tones.queue, k.tones.pending)) =
        [(['2'], true)] ∧
      (w.history ops)[11]? = some (.deed 0 .close) ∧
      ∃ v told, v.queued = 0 ∧ v.confirmationPending = false ∧
        ∀ i, 11 < i → (w.during ops i).Inert 0 v told := by
  intro w ops
  have hclose : (w.history ops)[11]? = some (.deed 0 .close) := by decide +kernel
  have hlt : 0 < (w.during ops 11).conns.length := by decide +kernel
  have hqueued : (w.during ops 11).conns.map (fun k => (k.tones.queue, k.tones.pending)) =
      [(['2'], true)] := by decide +kernel
  obtain ⟨v, told, -, hv, hpending, -, -, -, hinert⟩ :=
    closed_inert (fresh_served _) ops hclose hlt
  exact ⟨fresh_served _, hqueued, hclose, v, told, hv, hpending, hinert⟩

end World

end CdmaCall
