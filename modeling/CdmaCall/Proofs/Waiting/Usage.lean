import CdmaCall.Proofs.Dispatch.Delivery
import CdmaCall.Waiting.Guard
import Mathlib.Data.List.DropRight

/-!
# A guard in use

A guard is armed and disarmed, its clock moves, and deadlines that its timers have delivered are
offered to it, possibly late. `Tracks` tells the state of the guard from the requests that were made
of it: the generation of the latest deadline is how often it was armed, the one timer that can wait
is that of this deadline, and what was delivered or accepted is of no later generation. One request
more keeps that (`Settled.request`).
-/

namespace CdmaCall

namespace GuardBench

section Defs

/-- By how much a request moves the clock on. -/
def Op.wait : Op → ℕ
  | .advance ms => ms
  | _ => 0

/-- The time after these requests. -/
def elapsed (ops : List Op) : ℕ := (ops.map Op.wait).sum

/-- How often the guard was armed, which is the generation of the latest deadline. -/
def arms (ops : List Op) : ℕ := ops.count .arm

/-- When the guard was armed last. -/
def armedAt (ops : List Op) : ℕ := elapsed (ops.rdropWhile (· != .arm))

/-- Whether a request sets a deadline or calls it off. -/
def Op.decides : Op → Bool
  | .arm | .disarm => true
  | _ => false

/-- A deadline was set, and was not called off since. -/
def Wanted (ops : List Op) : Prop := (ops.filter Op.decides).getLast? = some .arm

/-- When the latest deadline comes due. -/
def due (T : ℕ) (ops : List Op) : ℕ := armedAt ops + Clock.bounded T

/-- A guard in use: the events taken from its mailbox, and the generations that were offered to it,
each with its answer. -/
structure Service where
  bench : GuardBench
  taken : List Event := []
  offers : List (ℕ × Bool) := []
  deriving DecidableEq, Repr

/-- What a request takes from the mailbox. -/
def Op.takes (b : GuardBench) : Op → List Event
  | .receive => b.mailbox.waiting
  | _ => []

/-- What a request offers to the guard and what the guard answers, according to the reply. -/
def Op.offers : Op → Reply → List (ℕ × Bool)
  | .expire g, .flag yes => [(g, yes)]
  | .receive, .delivered answers => answers
  | _, _ => []

/-- A request without the passing of time that follows it. -/
def Service.instant (s : Service) (op : Op) : Service where
  bench := (s.bench.perform op).2
  taken := s.taken ++ op.takes s.bench
  offers := s.offers ++ op.offers (s.bench.perform op).1

/-- Move the clock of the guard. -/
def Service.advanceTo (s : Service) (limit : ℕ) : Service :=
  { s with bench := s.bench.advanceTo limit }

/-- One request. -/
def Service.request (s : Service) (op : Op) : Service where
  bench := (s.bench.step op).2
  taken := s.taken ++ op.takes s.bench
  offers := s.offers ++ op.offers (s.bench.step op).1

/-- A new guard with timeout `T` after these requests. -/
def served (T : ℕ) (ops : List Op) : Service :=
  ops.foldl Service.request { bench := { guard := { timeout := T } } }

/-- The events that timers have delivered. -/
def Service.delivered (s : Service) : List Event := s.taken ++ s.bench.mailbox.waiting

/-- The generations that the guard accepted. -/
def Service.accepted (s : Service) : List ℕ := (s.offers.filter (·.2)).map (·.1)

/-- The generations of the deadlines among events. -/
def generations (es : List Event) : List ℕ := es.filterMap fun | .missed g => some g | _ => none

/-- A deadline that is offered directly was delivered by its timer before. -/
def Op.Genuine (s : Service) : Op → Prop
  | .expire g => .missed g ∈ s.delivered
  | _ => True

instance (s : Service) : (op : Op) → Decidable (op.Genuine s)
  | .expire g => inferInstanceAs (Decidable (.missed g ∈ s.delivered))
  | .arm | .disarm | .advance _ | .shutdown | .receive => .isTrue trivial

/-- Every deadline that these requests offer directly was delivered before. -/
def Genuine (T : ℕ) (ops : List Op) : Prop :=
  ∀ i, ∀ h : i < ops.length, ops[i].Genuine (served T (ops.take i))

instance (T : ℕ) (ops : List Op) : Decidable (Genuine T ops) :=
  inferInstanceAs (Decidable (∀ i, ∀ h : i < ops.length, ops[i].Genuine (served T (ops.take i))))

/-- What a guard knows of its deadlines after these requests, and which were delivered and accepted:
only the latest is in force, until it is accepted, and none is delivered or accepted twice. -/
structure Keeps (ops : List Op) (guard : Guard) (delivered : List Event) (accepted : List ℕ) :
    Prop where
  generation : guard.generation = arms ops
  latest : ∀ d, guard.armed = some d → d.generation = arms ops
  armed : guard.isArmed = true ↔ Wanted ops ∧ arms ops ∉ accepted
  young : ∀ e ∈ delivered, ∃ g ≤ arms ops, e = .missed g
  nodup : delivered.Nodup
  sound : ∀ g ∈ accepted, .missed g ∈ delivered
  once : accepted.Nodup

/-- The timer of the latest deadline waits. -/
structure Pends (T : ℕ) (ops : List Op) (s : Service) (d : Deadline) : Prop where
  armed : s.bench.guard.armed = some d
  pending : s.bench.clock.pending = [⟨d.timer, due T ops, .missed (arms ops)⟩]
  undelivered : .missed (arms ops) ∉ s.delivered
  ahead : s.bench.clock.now ≤ due T ops

/-- No timer waits: if there is a deadline it is due, and was delivered unless the dispatcher was
shut down. -/
structure Rests (T : ℕ) (ops : List Op) (s : Service) : Prop where
  pending : s.bench.clock.pending = []
  due : s.bench.guard.isArmed = true → due T ops ≤ s.bench.clock.now
  delivered : s.bench.guard.isArmed = true → .shutdown ∉ ops → .missed (arms ops) ∈ s.delivered

/-- The state of a guard in use, told from the requests that were made of it. -/
structure Tracks (T : ℕ) (ops : List Op) (s : Service) : Prop where
  keeps : Keeps ops s.bench.guard s.delivered s.accepted
  timeout : s.bench.guard.timeout = T
  running : s.bench.clock.running = true
  shut : s.bench.mailbox.shutDown = true ↔ .shutdown ∈ ops
  receiver : s.bench.mailbox.receiverGone = false
  prompt : .missed (arms ops) ∈ s.delivered → due T ops ≤ s.bench.clock.now
  timer : (∃ d, Pends T ops s d) ∨ Rests T ops s

end Defs

variable {T limit : ℕ} {ops : List Op} {op : Op} {s : Service} {b : GuardBench} {g : ℕ}

/-! ### Reading requests -/

theorem elapsed_snoc : elapsed (ops ++ [op]) = elapsed ops + op.wait := by simp [elapsed]

theorem arms_snoc : arms (ops ++ [op]) = arms ops + if op = .arm then 1 else 0 := by
  unfold arms
  by_cases hop : op = .arm
  · simp [hop]
  · simp [hop, List.count_eq_zero.2, Ne.symm hop]

theorem due_snoc : due T (ops ++ [op]) =
    if op = .arm then elapsed ops + Clock.bounded T else due T ops := by
  unfold due armedAt
  rw [List.rdropWhile_concat]
  by_cases hop : op = .arm
  · subst hop
    simp [elapsed_snoc, Op.wait]
  · simp [hop]

/-- The latest deadline stays the latest until the guard is armed again. -/
theorem latest_snoc (T : ℕ) (ops : List Op) (hop : op ≠ .arm) :
    arms (ops ++ [op]) = arms ops ∧ due T (ops ++ [op]) = due T ops := by
  simp [arms_snoc, due_snoc, hop]

theorem wanted_snoc : Wanted (ops ++ [op]) ↔ op = .arm ∨ op ≠ .disarm ∧ Wanted ops := by
  unfold Wanted
  rw [List.filter_append]
  cases op <;> simp [Op.decides]

/-! ### One request at work -/

theorem advanceTo_nil (h : b.clock.pending = []) (limit : ℕ) :
    b.advanceTo limit = { b with clock := { b.clock with now := limit } } := by
  simp [advanceTo, Clock.takeDue, Clock.takeDue.go, h]

theorem advanceTo_one {t : Timer Event} (h : b.clock.pending = [t]) (limit : ℕ) :
    b.advanceTo limit = if t.due ≤ limit then
      { b with clock := { b.clock with now := limit, pending := [] }
               mailbox := (b.mailbox.post t.job).2 }
    else { b with clock := { b.clock with now := limit } } := by
  split_ifs with hdue <;>
    simp [advanceTo, Clock.takeDue, Clock.takeDue.go, Clock.next?, Clock.earliest?, Clock.cancel, h,
      hdue]

theorem request_eq (s : Service) (op : Op) :
    s.request op = (s.instant op).advanceTo (s.instant op).bench.clock.now := rfl

@[simp] theorem mem_generations {es : List Event} : g ∈ generations es ↔ .missed g ∈ es := by
  unfold generations
  rw [List.mem_filterMap]
  constructor
  · rintro ⟨e, he, heq⟩
    cases e with
    | missed g' => exact Option.some.inj heq ▸ he
    | _ => cases heq
  · exact fun h => ⟨_, h, rfl⟩

@[simp] theorem generations_missed (g : ℕ) (es : List Event) :
    generations (.missed g :: es) = g :: generations es := rfl

theorem offer_unarmed {guard : Guard} (h : guard.armed = none) (es : List Event) :
    offer guard es = ((generations es).map fun g => (g, false), guard) := by
  induction es with
  | nil => rfl
  | cons e es ih =>
    cases e with
    | missed g =>
      have hexpire : guard.expire g = (false, guard) := by rw [Guard.expire, h]
      simp only [offer, hexpire, ih, generations_missed, List.map_cons]
    | _ => exact ih

/-- Of deadlines that are offered one after the other the one that is set counts, and no other. -/
theorem offer_armed {guard : Guard} {d : Deadline} (h : guard.armed = some d) {es : List Event}
    (hes : es.Nodup) : offer guard es =
      ((generations es).map fun g => (g, g == d.generation),
        if .missed d.generation ∈ es then { guard with armed := none } else guard) := by
  induction es with
  | nil => rfl
  | cons e es ih =>
    obtain ⟨he, hrest⟩ := List.nodup_cons.1 hes
    cases e with
    | missed g =>
      by_cases hg : g = d.generation
      · -- This is the deadline that is set, and it is offered once.
        subst hg
        have hexpire : guard.expire d.generation = (true, { guard with armed := none }) := by
          simp [Guard.expire, h]
        have hothers : ∀ g ∈ generations es, (g, false) = (g, g == d.generation) := by
          intro g hg
          have hne : g ≠ d.generation := fun heq => he (heq ▸ mem_generations.1 hg)
          rw [beq_eq_false_iff_ne.2 hne]
        simp only [offer, hexpire, offer_unarmed, generations_missed, List.map_cons,
          beq_self_eq_true, List.mem_cons_self, if_true, List.map_congr_left hothers]
      · have hexpire : guard.expire g = (false, guard) := by
          simp [Guard.expire, h, Ne.symm hg]
        have hmem : Event.missed d.generation ∈ .missed g :: es ↔ .missed d.generation ∈ es := by
          simp [Ne.symm hg]
        simp only [offer, hexpire, ih hrest, generations_missed, List.map_cons, hmem,
          beq_eq_false_iff_ne.2 hg]
    | _ =>
      simp only [offer, ih hrest]
      simp [generations]

/-! ### What the guard knows -/

section Knowledge

variable {guard guard' : Guard} {delivered : List Event} {accepted : List ℕ}

/-- A request that sets nothing and calls nothing off. -/
theorem Keeps.other (h : Keeps ops guard delivered accepted) (hop : op.decides = false) :
    Keeps (ops ++ [op]) guard delivered accepted := by
  have harm : op ≠ .arm := fun heq => by simp [heq, Op.decides] at hop
  have hdisarm : op ≠ .disarm := fun heq => by simp [heq, Op.decides] at hop
  have harms : arms (ops ++ [op]) = arms ops := by simp [arms_snoc, harm]
  have hwanted : Wanted (ops ++ [op]) ↔ Wanted ops := by simp [wanted_snoc, harm, hdisarm]
  exact ⟨harms ▸ h.generation, harms ▸ h.latest, by rw [hwanted, harms]; exact h.armed,
    harms ▸ h.young, h.nodup, h.sound, h.once⟩

/-- A timer delivers the latest deadline. -/
theorem Keeps.deliver (h : Keeps ops guard delivered accepted)
    (hnew : .missed (arms ops) ∉ delivered) :
    Keeps ops guard (delivered ++ [.missed (arms ops)]) accepted where
  generation := h.generation
  latest := h.latest
  armed := h.armed
  young e he := by
    rcases List.mem_append.1 he with he | he
    · exact h.young e he
    · exact ⟨_, le_rfl, List.mem_singleton.1 he⟩
  nodup := h.nodup.append (List.nodup_singleton _) (by simpa using hnew)
  sound g hg := List.mem_append_left _ (h.sound g hg)
  once := h.once

/-- The deadline that is in force is accepted. -/
theorem Keeps.accept (h : Keeps ops guard delivered accepted) (harmed : guard.isArmed = true)
    (hdelivered : .missed (arms ops) ∈ delivered) :
    Keeps ops { guard with armed := none } delivered (accepted ++ [arms ops]) where
  generation := h.generation
  latest := by simp
  armed := by simp [Guard.isArmed]
  young := h.young
  nodup := h.nodup
  sound g hg := by
    rcases List.mem_append.1 hg with hg | hg
    · exact h.sound g hg
    · rwa [List.mem_singleton.1 hg]
  once := h.once.append (List.nodup_singleton _) (by simpa using (h.armed.1 harmed).2)

/-- A deadline is set: it is the next one. -/
theorem Keeps.arm (h : Keeps ops guard delivered accepted) (timer : ℕ) :
    Keeps (ops ++ [.arm]) { guard with
      generation := guard.generation + 1
      armed := some ⟨guard.generation + 1, timer⟩ } delivered accepted := by
  have harms : arms (ops ++ [.arm]) = arms ops + 1 := by simp [arms_snoc]
  refine ⟨?_, ?_, ?_, fun e he => ?_, h.nodup, h.sound, h.once⟩
  · simp [harms, h.generation]
  · simp [harms, h.generation]
  · have hnew : arms ops + 1 ∉ accepted := fun hmem => by
      obtain ⟨g, hg, heq⟩ := h.young _ (h.sound _ hmem)
      cases heq
      omega
    simp [Guard.isArmed, wanted_snoc, harms, hnew]
  · obtain ⟨g, hg, rfl⟩ := h.young e he
    exact ⟨g, by omega, rfl⟩

/-- A deadline is called off. -/
theorem Keeps.disarm (h : Keeps ops guard delivered accepted) :
    Keeps (ops ++ [.disarm]) { guard with armed := none } delivered accepted := by
  have harms : arms (ops ++ [.disarm]) = arms ops := by simp [arms_snoc]
  refine ⟨harms ▸ h.generation, by simp, ?_, harms ▸ h.young, h.nodup, h.sound, h.once⟩
  simp [Guard.isArmed, wanted_snoc]

/-- **Only the latest deadline counts**, while it is in force. -/
theorem Keeps.expire (h : Keeps ops guard delivered accepted) (g : ℕ) :
    guard.expire g = if guard.isArmed && g == arms ops then (true, { guard with armed := none })
      else (false, guard) := by
  unfold Guard.expire
  cases harmed : guard.armed with
  | none => simp [Guard.isArmed, harmed]
  | some d =>
    have hd := h.latest d harmed
    by_cases hg : g = arms ops
    · simp [Guard.isArmed, harmed, hd, hg]
    · simp [Guard.isArmed, harmed, hd, hg, Ne.symm hg]

/-- The same for deadlines that are offered one after the other. -/
theorem Keeps.offer (h : Keeps ops guard delivered accepted) {es : List Event} (hes : es.Nodup) :
    offer guard es = ((generations es).map fun g => (g, guard.isArmed && g == arms ops),
      if guard.isArmed = true ∧ .missed (arms ops) ∈ es then { guard with armed := none }
      else guard) := by
  cases harmed : guard.armed with
  | none => simp [offer_unarmed harmed, Guard.isArmed, harmed]
  | some d =>
    have hd := h.latest d harmed
    simp [offer_armed harmed hes, Guard.isArmed, harmed, hd]

end Knowledge

/-! ### The clock moves -/

theorem Tracks.accepts (h : Tracks T ops s) :
    s.bench.mailbox.accepts = true ↔ .shutdown ∉ ops := by
  rw [← h.shut]
  simp [Mailbox.accepts, h.receiver]

/-- Time passes, and no timer comes due. -/
theorem Tracks.pass (h : Tracks T ops s) (hle : s.bench.clock.now ≤ limit)
    (hearly : ∀ d, Pends T ops s d → limit < due T ops) :
    Tracks T ops (s.advanceTo limit) ∧ (s.advanceTo limit).bench.clock.now = limit ∧
      (s.advanceTo limit).bench.clock.pending = s.bench.clock.pending := by
  have hadvance : s.advanceTo limit =
      { s with bench := { s.bench with clock := { s.bench.clock with now := limit } } } := by
    unfold Service.advanceTo
    rcases h.timer with ⟨d, hpends⟩ | hrests
    · rw [advanceTo_one hpends.pending, if_neg (Nat.not_le_of_lt (hearly d hpends))]
    · rw [advanceTo_nil hrests.pending]
  rw [hadvance]
  refine ⟨⟨h.keeps, h.timeout, h.running, h.shut, h.receiver, fun hmem => (h.prompt hmem).trans hle,
    ?_⟩, rfl, rfl⟩
  rcases h.timer with ⟨d, hpends⟩ | hrests
  · exact .inl ⟨d, hpends.armed, hpends.pending, hpends.undelivered, (hearly d hpends).le⟩
  · exact .inr ⟨hrests.pending, fun harmed => (hrests.due harmed).trans hle, hrests.delivered⟩

/-- A timer that comes due delivers its deadline, unless the dispatcher was shut down. -/
theorem Tracks.fire (h : Tracks T ops s) {d : Deadline} (hpends : Pends T ops s d)
    (hdue : due T ops ≤ limit) :
    Tracks T ops (s.advanceTo limit) ∧ (s.advanceTo limit).bench.clock.now = limit ∧
      (s.advanceTo limit).bench.clock.pending = [] := by
  have hadvance : s.advanceTo limit = { s with bench := { s.bench with
      clock := { s.bench.clock with now := limit, pending := [] }
      mailbox := (s.bench.mailbox.post (.missed (arms ops))).2 } } := by
    rw [Service.advanceTo, advanceTo_one hpends.pending, if_pos hdue]
  rw [hadvance]
  by_cases hopen : .shutdown ∈ ops
  · rw [Mailbox.post, if_neg fun haccepts => h.accepts.1 haccepts hopen]
    exact ⟨⟨h.keeps, h.timeout, h.running, h.shut, h.receiver, fun _ => hdue,
      .inr ⟨rfl, fun _ => hdue, fun _ hnot => absurd hopen hnot⟩⟩, rfl, rfl⟩
  · rw [Mailbox.post, if_pos (h.accepts.2 hopen)]
    have hkeeps := h.keeps.deliver hpends.undelivered
    rw [Service.delivered, List.append_assoc] at hkeeps
    exact ⟨⟨hkeeps, h.timeout, h.running, h.shut, h.receiver, fun _ => hdue,
      .inr ⟨rfl, fun _ => hdue, fun _ _ => by simp [Service.delivered]⟩⟩, rfl, rfl⟩

/-- **The clock moves**, and no timer is left that is due. -/
theorem Tracks.advance (h : Tracks T ops s) (hle : s.bench.clock.now ≤ limit) :
    Tracks T ops (s.advanceTo limit) ∧ (s.advanceTo limit).bench.clock.now = limit ∧
      ∀ t ∈ (s.advanceTo limit).bench.clock.pending, limit < t.due := by
  rcases h.timer with ⟨d, hpends⟩ | hrests
  · by_cases hdue : due T ops ≤ limit
    · obtain ⟨htracks, hnow, hnone⟩ := h.fire hpends hdue
      exact ⟨htracks, hnow, by simp [hnone]⟩
    · obtain ⟨htracks, hnow, hsame⟩ := h.pass hle fun _ _ => Nat.lt_of_not_le hdue
      exact ⟨htracks, hnow, by simpa [hsame, hpends.pending] using hdue⟩
  · have hnone (d : Deadline) : ¬Pends T ops s d := fun hpends => by
      have hpending := hpends.pending
      rw [hrests.pending] at hpending
      cases hpending
    obtain ⟨htracks, hnow, hsame⟩ := h.pass hle fun d hpends => absurd hpends (hnone d)
    exact ⟨htracks, hnow, by simp [hsame, hrests.pending]⟩

/-! ### One request more -/

/-- Where no timer waits nothing is undelivered that will be delivered. -/
theorem Tracks.rests_of_delivered (h : Tracks T ops s) (hmem : .missed (arms ops) ∈ s.delivered) :
    Rests T ops s := by
  rcases h.timer with ⟨d, hpends⟩ | hrests
  · exact absurd hmem hpends.undelivered
  · exact hrests

/-- Calling the deadline off leaves no timer. -/
theorem Tracks.disarm_eq (h : Tracks T ops s) : s.bench.guard.disarm s.bench.clock =
    (s.bench.guard.isArmed, { s.bench.guard with armed := none },
      { s.bench.clock with pending := [] }) := by
  unfold Guard.disarm Guard.isArmed
  rcases h.timer with ⟨d, hpends⟩ | hrests
  · simp [hpends.armed, hpends.pending, Clock.cancel]
  · cases harmed : s.bench.guard.armed with
    | none =>
      have hguard : ({ s.bench.guard with armed := none } : Guard) = s.bench.guard := by
        rw [← harmed]
      have hclock : ({ s.bench.clock with pending := [] } : Clock Event) = s.bench.clock := by
        rw [← hrests.pending]
      simp [hguard, hclock]
    | some d => simp [hrests.pending, Clock.cancel]

/-- Setting a deadline leaves its timer and no other. -/
theorem Tracks.arm_eq (h : Tracks T ops s) :
    s.bench.guard.arm s.bench.clock .missed = (.ok (),
      { s.bench.guard with
        generation := arms ops + 1
        armed := some ⟨arms ops + 1, s.bench.clock.nextId⟩ },
      { s.bench.clock with
        nextId := s.bench.clock.nextId + 1
        pending := [⟨s.bench.clock.nextId, s.bench.clock.now + Clock.bounded T,
          .missed (arms ops + 1)⟩] }) := by
  unfold Guard.arm
  rw [h.disarm_eq]
  simp [h.running, h.keeps.generation, h.timeout, Clock.start]

theorem Tracks.arm (h : Tracks T ops s) (hnow : s.bench.clock.now = elapsed ops) :
    Tracks T (ops ++ [.arm]) (s.instant .arm) := by
  have harms : arms (ops ++ [.arm]) = arms ops + 1 := by simp [arms_snoc]
  have hdue : due T (ops ++ [.arm]) = elapsed ops + Clock.bounded T := by simp [due_snoc]
  have hinstant : s.instant .arm = { s with bench := { s.bench with
      guard := { s.bench.guard with
        generation := arms ops + 1
        armed := some ⟨arms ops + 1, s.bench.clock.nextId⟩ }
      clock := { s.bench.clock with
        nextId := s.bench.clock.nextId + 1
        pending := [⟨s.bench.clock.nextId, s.bench.clock.now + Clock.bounded T,
          .missed (arms ops + 1)⟩] } } } := by
    simp [Service.instant, perform, h.arm_eq, Op.takes, Op.offers]
  have hnew : .missed (arms ops + 1) ∉ s.delivered := fun hmem => by
    obtain ⟨g, hg, heq⟩ := h.keeps.young _ hmem
    cases heq
    omega
  have hkeeps := h.keeps.arm s.bench.clock.nextId
  rw [h.keeps.generation] at hkeeps
  rw [hinstant]
  refine ⟨hkeeps, h.timeout, h.running, by simpa using h.shut, h.receiver, ?_, .inl ⟨_, rfl, ?_, ?_, ?_⟩⟩
  · rw [harms]
    exact fun hmem => absurd hmem hnew
  · simp [harms, hdue, hnow]
  · rw [harms]
    exact hnew
  · simp [hdue, hnow]

theorem Tracks.disarm (h : Tracks T ops s) : Tracks T (ops ++ [.disarm]) (s.instant .disarm) := by
  obtain ⟨harms, hdue⟩ := latest_snoc T ops (show Op.disarm ≠ .arm by simp)
  have hinstant : s.instant .disarm = { s with bench := { s.bench with
      guard := { s.bench.guard with armed := none }
      clock := { s.bench.clock with pending := [] } } } := by
    simp [Service.instant, perform, h.disarm_eq, Op.takes, Op.offers]
  rw [hinstant]
  refine ⟨h.keeps.disarm, h.timeout, h.running, by simpa using h.shut, h.receiver, ?_,
    .inr ⟨rfl, by simp [Guard.isArmed], by simp [Guard.isArmed]⟩⟩
  rw [harms, hdue]
  exact h.prompt

/-- Nothing changes but what was offered and taken. -/
theorem Tracks.other (h : Tracks T ops s) (hop : op.decides = false) (hshut : op ≠ .shutdown)
    {taken waiting : List Event} {offers : List (ℕ × Bool)}
    (htaken : taken ++ waiting = s.delivered)
    (hoffers : (offers.filter (·.2)).map (·.1) = s.accepted) :
    Tracks T (ops ++ [op])
      { bench := { s.bench with mailbox := { s.bench.mailbox with waiting } }, taken, offers } := by
  have harm : op ≠ .arm := fun heq => by simp [heq, Op.decides] at hop
  obtain ⟨harms, hdue⟩ := latest_snoc T ops harm
  have hopen : .shutdown ∈ ops ++ [op] ↔ .shutdown ∈ ops := by simp [Ne.symm hshut]
  refine ⟨?_, h.timeout, h.running, h.shut.trans hopen.symm, h.receiver, ?_, ?_⟩
  · have hkeeps := h.keeps.other hop
    rwa [← htaken, ← hoffers] at hkeeps
  · rw [harms, hdue, Service.delivered, htaken]
    exact h.prompt
  · rcases h.timer with ⟨d, hpends⟩ | hrests
    · refine .inl ⟨d, hpends.armed, ?_, ?_, hdue ▸ hpends.ahead⟩
      · rw [harms, hdue]
        exact hpends.pending
      · rw [harms, Service.delivered, htaken]
        exact hpends.undelivered
    · refine .inr ⟨hrests.pending, hdue ▸ hrests.due, ?_⟩
      rw [harms, Service.delivered, htaken, hopen]
      exact hrests.delivered

/-- The deadline that is in force is offered and accepted. -/
theorem Tracks.accept (h : Tracks T ops s) (hop : op.decides = false) (hshut : op ≠ .shutdown)
    (harmed : s.bench.guard.isArmed = true) (hdelivered : .missed (arms ops) ∈ s.delivered)
    {taken waiting : List Event} {offers : List (ℕ × Bool)}
    (htaken : taken ++ waiting = s.delivered)
    (hoffers : (offers.filter (·.2)).map (·.1) = s.accepted ++ [arms ops]) :
    Tracks T (ops ++ [op])
      { bench := { s.bench with
          guard := { s.bench.guard with armed := none }
          mailbox := { s.bench.mailbox with waiting } }, taken, offers } := by
  have harm : op ≠ .arm := fun heq => by simp [heq, Op.decides] at hop
  obtain ⟨harms, hdue⟩ := latest_snoc T ops harm
  have hopen : .shutdown ∈ ops ++ [op] ↔ .shutdown ∈ ops := by simp [Ne.symm hshut]
  refine ⟨?_, h.timeout, h.running, h.shut.trans hopen.symm, h.receiver, ?_,
    .inr ⟨(h.rests_of_delivered hdelivered).pending, by simp [Guard.isArmed],
      by simp [Guard.isArmed]⟩⟩
  · have hkeeps := (h.keeps.accept harmed hdelivered).other hop
    rwa [← htaken, ← hoffers] at hkeeps
  · rw [harms, hdue, Service.delivered, htaken]
    exact h.prompt

theorem Tracks.expire (h : Tracks T ops s) (hdelivered : .missed g ∈ s.delivered) :
    Tracks T (ops ++ [.expire g]) (s.instant (.expire g)) := by
  have hexpire := h.keeps.expire g
  by_cases hg : (s.bench.guard.isArmed && g == arms ops) = true
  · rw [if_pos hg] at hexpire
    obtain ⟨harmed, rfl⟩ : s.bench.guard.isArmed = true ∧ g = arms ops := by simpa using hg
    have hinstant : s.instant (.expire (arms ops)) = {
        bench := { s.bench with guard := { s.bench.guard with armed := none } }
        taken := s.taken
        offers := s.offers ++ [(arms ops, true)] } := by
      simp [Service.instant, perform, hexpire, Op.takes, Op.offers]
    rw [hinstant]
    exact h.accept rfl (by simp) harmed hdelivered rfl (by simp [Service.accepted])
  · rw [if_neg hg] at hexpire
    have hinstant : s.instant (.expire g) = {
        bench := s.bench, taken := s.taken, offers := s.offers ++ [(g, false)] } := by
      simp [Service.instant, perform, hexpire, Op.takes, Op.offers]
    rw [hinstant]
    exact h.other rfl (by simp) rfl (by simp [Service.accepted])

theorem nodup_generations {es : List Event} (hes : es.Nodup) : (generations es).Nodup := by
  refine hes.filterMap fun e e' g hg hg' => ?_
  cases e <;> cases e' <;> simp_all

/-- Which of the deadlines that wait is accepted. -/
theorem accepted_offers {es : List Event} (hes : es.Nodup) (armed : Bool) (n : ℕ) :
    (((generations es).map fun g => (g, armed && g == n)).filter (·.2)).map (·.1) =
      if armed = true ∧ .missed n ∈ es then [n] else [] := by
  have hfilter : (((generations es).map fun g => (g, armed && g == n)).filter (·.2)).map (·.1) =
      (generations es).filter fun g => armed && g == n := by
    simp [List.filter_map, Function.comp_def]
  rw [hfilter]
  cases armed with
  | false => simp
  | true =>
    by_cases hn : .missed n ∈ es
    · have hcount : (generations es).count n = 1 :=
        List.count_eq_one_of_mem (nodup_generations hes) (mem_generations.2 hn)
      simp [hn, List.filter_beq, hcount]
    · have hnone : ∀ g ∈ generations es, ¬g = n := fun g hg heq =>
        hn (heq ▸ mem_generations.1 hg)
      simpa [hn] using hnone

theorem Tracks.receive (h : Tracks T ops s) : Tracks T (ops ++ [.receive]) (s.instant .receive) := by
  have hwaiting : s.bench.mailbox.waiting.Nodup := (List.nodup_append.1 h.keeps.nodup).2.1
  have hoffer := h.keeps.offer hwaiting
  have haccepted := accepted_offers hwaiting s.bench.guard.isArmed (arms ops)
  have htaken : (s.taken ++ s.bench.mailbox.waiting) ++ [] = s.delivered := List.append_nil _
  by_cases hhere : s.bench.guard.isArmed = true ∧ .missed (arms ops) ∈ s.bench.mailbox.waiting
  · rw [if_pos hhere] at hoffer haccepted
    have hinstant : s.instant .receive = {
        bench := { s.bench with
          guard := { s.bench.guard with armed := none }
          mailbox := { s.bench.mailbox with waiting := [] } }
        taken := s.taken ++ s.bench.mailbox.waiting
        offers := s.offers ++ (generations s.bench.mailbox.waiting).map fun g =>
          (g, s.bench.guard.isArmed && g == arms ops) } := by
      simp [Service.instant, perform, Mailbox.take, hoffer, Op.takes, Op.offers]
    rw [hinstant]
    refine h.accept rfl (by simp) hhere.1 (List.mem_append_right _ hhere.2) htaken ?_
    rw [List.filter_append, List.map_append, haccepted]
    rfl
  · rw [if_neg hhere] at hoffer haccepted
    have hinstant : s.instant .receive = {
        bench := { s.bench with mailbox := { s.bench.mailbox with waiting := [] } }
        taken := s.taken ++ s.bench.mailbox.waiting
        offers := s.offers ++ (generations s.bench.mailbox.waiting).map fun g =>
          (g, s.bench.guard.isArmed && g == arms ops) } := by
      simp [Service.instant, perform, Mailbox.take, hoffer, Op.takes, Op.offers]
    rw [hinstant]
    refine h.other rfl (by simp) htaken ?_
    rw [List.filter_append, List.map_append, haccepted, List.append_nil]
    rfl

theorem Tracks.shutdown (h : Tracks T ops s) :
    Tracks T (ops ++ [.shutdown]) (s.instant .shutdown) := by
  obtain ⟨harms, hdue⟩ := latest_snoc T ops (show Op.shutdown ≠ .arm by simp)
  have hinstant : s.instant .shutdown =
      { s with bench := { s.bench with mailbox := s.bench.mailbox.shutdown } } := by
    simp [Service.instant, perform, Op.takes, Op.offers]
  rw [hinstant]
  refine ⟨h.keeps.other rfl, h.timeout, h.running, by simp [Mailbox.shutdown], h.receiver, ?_, ?_⟩
  · rw [harms, hdue]
    exact h.prompt
  · rcases h.timer with ⟨d, hpends⟩ | hrests
    · refine .inl ⟨d, hpends.armed, ?_, harms ▸ hpends.undelivered, hdue ▸ hpends.ahead⟩
      rw [harms, hdue]
      exact hpends.pending
    · exact .inr ⟨hrests.pending, hdue ▸ hrests.due, fun _ hnot => absurd (by simp) hnot⟩

/-- **One request more**, before the clock moves for the timers that come due at once. -/
theorem Tracks.instant (h : Tracks T ops s) (hnow : s.bench.clock.now = elapsed ops)
    (hgenuine : op.Genuine s) : Tracks T (ops ++ [op]) (s.instant op) ∧
      (s.instant op).bench.clock.now = elapsed (ops ++ [op]) := by
  rw [elapsed_snoc, ← hnow]
  cases op with
  | arm => exact ⟨h.arm hnow, by simp [Service.instant, perform, h.arm_eq, Op.wait]⟩
  | disarm => exact ⟨h.disarm, by simp [Service.instant, perform, h.disarm_eq, Op.wait]⟩
  | expire g => exact ⟨h.expire hgenuine, rfl⟩
  | advance ms =>
    have hinstant : s.instant (.advance ms) = s.advanceTo (s.bench.clock.now + ms) := by
      simp [Service.instant, Service.advanceTo, perform, Op.takes, Op.offers]
    obtain ⟨hadvanced, hlimit, -⟩ := h.advance (Nat.le_add_right s.bench.clock.now ms)
    rw [hinstant]
    exact ⟨hadvanced.other rfl (by simp) rfl rfl, hlimit⟩
  | shutdown => exact ⟨h.shutdown, rfl⟩
  | receive => exact ⟨h.receive, rfl⟩

/-- A guard in use between two requests: no timer is due. -/
structure Settled (T : ℕ) (ops : List Op) (s : Service) : Prop extends Tracks T ops s where
  now : s.bench.clock.now = elapsed ops
  ahead : ∀ t ∈ s.bench.clock.pending, elapsed ops < t.due

theorem Settled.request (h : Settled T ops s) (hgenuine : op.Genuine s) :
    Settled T (ops ++ [op]) (s.request op) := by
  obtain ⟨htracks, hnow⟩ := h.toTracks.instant h.now hgenuine
  obtain ⟨hadvanced, hlimit, hahead⟩ := htracks.advance (le_refl (s.instant op).bench.clock.now)
  rw [request_eq]
  exact ⟨hadvanced, hlimit.trans hnow, hnow ▸ hahead⟩

end GuardBench

end CdmaCall
