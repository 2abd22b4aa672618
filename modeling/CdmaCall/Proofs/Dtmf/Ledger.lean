import CdmaCall.Dtmf.Bench
import Mathlib.Data.List.Basic

/-!
# The ledger of burst digits

`ledger b ops` lists, in the order in which it happens, what leaves the transmitter of a bench while
requests are made of it: the bursts that its phone receives, the batches that are dropped, and
before them a mark for each confirmation and each discard.

* `payloads_ledger_append_queue`: what left the transmitter, followed by what is still queued, is
  what was queued at the start followed by what was requested.
* `mem_of_ledger_eq`: two bursts never follow each other without a mark between them.
* `run_direct`: requests through clones do what they do through the transmitter itself.

Both rest on one invariant, `Awaiting`: digits are queued only while a confirmation is pending.
-/

namespace CdmaCall

namespace ToneBench

/-! ## Definitions -/

section Defs

/-- What a ledger keeps. -/
inductive Entry where
  /-- A confirmation was handled, or a discard made. -/
  | settled
  /-- A burst reached the phone. -/
  | burst (digits : List Char)
  /-- Queued digits were given up. -/
  | dropped (digits : List Char)
  deriving DecidableEq, Repr

/-- Whether a request settles the outstanding burst. -/
def Op.settles : Op → Bool
  | .confirmed .. | .discard .. => true
  | _ => false

/-- Whether a request gives the queue up. -/
def Op.drops : Op → Bool
  | .confirmed withPhone _ => !withPhone
  | .discard _ => true
  | _ => false

/-- Whether a request leaves the queue and the pending confirmation alone. -/
def Op.isQuiet : Op → Bool
  | .play _ .burst _ | .confirmed .. | .discard _ => false
  | _ => true

/-- The same request, made of the transmitter itself. -/
def Op.direct : Op → Op
  | .play digit mode _ => .play digit mode .original
  | .stop mode _ => .stop mode .original
  | .confirmed withPhone _ => .confirmed withPhone .original
  | .discard _ => .discard .original
  | .clone _ => .clone .original
  | op => op

/-- The digit that a request adds to the bursts: the hold digit while the phone holds. -/
def asked (b : ToneBench) : Op → List Char
  | .play digit .burst _ => [if b.phone.holding then Keypad.holdDigit else digit]
  | _ => []

/-- The bursts that the phone receives from one request. -/
def sent (b : ToneBench) (op : Op) : List (List Char) :=
  (b.step op).2.phone.bursts.drop b.phone.bursts.length

/-- What the ledger keeps of one request. -/
def entries (b : ToneBench) (op : Op) : List Entry :=
  (if op.settles then [.settled] else []) ++ (b.sent op).map .burst ++
    (if op.drops then [.dropped b.tones.queue] else [])

/-- The bench after requests, one after the other, with what they returned. -/
def run (b : ToneBench) : List Op → List Reply × ToneBench
  | [] => ([], b)
  | op :: ops => ((b.step op).1 :: ((b.step op).2.run ops).1, ((b.step op).2.run ops).2)

/-- The ledger of requests made one after the other. -/
def ledger (b : ToneBench) : List Op → List Entry
  | [] => []
  | op :: ops => b.entries op ++ (b.step op).2.ledger ops

/-- The burst digits requested, each as it stood at the moment of its request. -/
def requested (b : ToneBench) : List Op → List Char
  | [] => []
  | op :: ops => b.asked op ++ (b.step op).2.requested ops

/-- The digits of an entry that is a burst. -/
def Entry.burst? : Entry → Option (List Char)
  | .burst ds => some ds
  | _ => none

/-- The digits of an entry. -/
def Entry.digits : Entry → List Char
  | .settled => []
  | .burst ds => ds
  | .dropped ds => ds

/-- The digits of a ledger, in order. -/
def payloads (es : List Entry) : List Char := es.flatMap Entry.digits

/-- Digits are queued only behind a burst whose confirmation is pending. -/
def Awaiting (b : ToneBench) : Prop := b.tones.queue ≠ [] → b.tones.pending = true

/-- Clones carry the lengths of the transmitter. -/
def Uniform (b : ToneBench) : Prop :=
  ∀ lengths ∈ b.clones, lengths = (b.tones.onLength, b.tones.offLength)

/-- A transmitter that was just made, with any phone. -/
def fresh (onLength offLength : ℕ) (phone : Phone) : ToneBench :=
  { tones := { onLength, offLength }, phone }

end Defs

/-! ## What the parts of a step do -/

section Parts

variable (b : ToneBench) (t : Transmitter) (via : Handle) (a : Option Action)

@[simp] theorem through_queue : (b.through via).queue = b.tones.queue := by
  cases via with
  | original => rfl
  | clone n => simp only [through]; cases b.clones[n]? <;> rfl

@[simp] theorem through_pending : (b.through via).pending = b.tones.pending := by
  cases via with
  | original => rfl
  | clone n => simp only [through]; cases b.clones[n]? <;> rfl

@[simp] theorem share_queue : (b.share t).tones.queue = t.queue := rfl

@[simp] theorem share_pending : (b.share t).tones.pending = t.pending := rfl

@[simp] theorem share_phone : (b.share t).phone = b.phone := rfl

@[simp] theorem perform_tones : (b.perform a).tones = b.tones := by cases a <;> rfl

@[simp] theorem perform_clones : (b.perform a).clones = b.clones := by cases a <;> rfl

@[simp] theorem perform_none : b.perform none = b := rfl

theorem bursts_record (p : Phone) (a : Action) :
    (p.record a).bursts = p.bursts ++ (match a with | .burst ds _ _ => [ds] | _ => []) := by
  unfold Phone.bursts Phone.record
  rw [List.filterMap_append]
  cases a <;> rfl

theorem bursts_perform (a : Action) :
    (b.perform (some a)).phone.bursts =
      b.phone.bursts ++ (match a with | .burst ds _ _ => [ds] | _ => []) := by
  rw [← bursts_record]
  cases a with
  | burst ds on off =>
    cases h : b.phone.confirmDelay <;> simp [perform, Phone.perform, h, Phone.bursts]
  | _ => rfl

end Parts

/-! ## One step -/

section Step

/-- The requests that concern the queue, and all others. -/
@[elab_as_elim]
theorem Op.kinds {motive : Op → Prop} (op : Op)
    (burst : ∀ digit via, motive (.play digit .burst via))
    (confirmed : ∀ withPhone via, motive (.confirmed withPhone via))
    (discard : ∀ via, motive (.discard via))
    (quiet : ∀ op : Op, op.isQuiet = true → motive op) : motive op := by
  cases op with
  | play digit mode via =>
    cases mode with
    | burst => exact burst digit via
    | continuous => exact quiet _ rfl
  | confirmed withPhone via => exact confirmed withPhone via
  | discard via => exact discard via
  | _ => exact quiet _ rfl

variable {b : ToneBench} {op : Op}

/-- What a step adds to the bursts of the phone. -/
theorem sent_of_bursts {new : List (List Char)}
    (h : (b.step op).2.phone.bursts = b.phone.bursts ++ new) : b.sent op = new := by
  rw [sent, h, List.drop_left]

/-- A burst digit goes out at once, or waits for a confirmation. -/
theorem bursts_play_burst (digit : Char) (via : Handle) :
    (b.step (.play digit .burst via)).2.phone.bursts = b.phone.bursts ++
      if b.tones.pending then [] else [b.asked (.play digit .burst via)] := by
  by_cases hp : b.tones.pending = true
  · simp [step, Transmitter.play, hp]
  · simp only [step, Transmitter.play, through_pending, if_neg hp, bursts_perform]
    simp [Transmitter.burstOf, asked]

/-- A confirmation flushes the whole queue as one burst, if it has a phone and something to
flush. -/
theorem bursts_confirmed (withPhone : Bool) (via : Handle) :
    (b.step (.confirmed withPhone via)).2.phone.bursts = b.phone.bursts ++
      if withPhone = true ∧ b.tones.queue ≠ [] then [b.tones.queue] else [] := by
  by_cases hq : b.tones.queue = []
  · simp [step, Transmitter.confirmed, hq]
  · cases withPhone with
    | false => simp [step, Transmitter.confirmed, hq]
    | true =>
      simp only [step, Transmitter.confirmed, through_queue, List.isEmpty_iff, if_neg hq,
        if_true, bursts_perform]
      simp [Transmitter.burstOf, hq]

theorem bursts_discard (via : Handle) :
    (b.step (.discard via)).2.phone.bursts = b.phone.bursts ++ [] := by simp [step]

/-- A quiet request sends no burst and changes neither the queue nor the pending confirmation. -/
theorem step_of_isQuiet (h : op.isQuiet = true) :
    (b.step op).2.phone.bursts = b.phone.bursts ++ [] ∧ (b.step op).2.tones = b.tones := by
  cases op with
  | play digit mode via =>
    cases mode with
    | burst => simp [Op.isQuiet] at h
    | continuous =>
      have ht : b.share (b.through via) = b := by simp [share]
      simp [step, Transmitter.play, bursts_perform, ht]
  | stop mode via => cases mode <;> simp [step, Transmitter.stop, bursts_perform]
  | confirmed withPhone via => simp [Op.isQuiet] at h
  | discard via => simp [Op.isQuiet] at h
  | release =>
    cases hh : b.phone.held with
    | nil => simp [step, Phone.releaseBurst, hh]
    | cons c rest => simp [step, Phone.releaseBurst, hh, Phone.bursts]
  | hold active => simp [step, Phone.bursts]
  | shutdown | clone via => simp [step]

theorem sent_play_burst (digit : Char) (via : Handle) : b.sent (.play digit .burst via) =
    if b.tones.pending then [] else [b.asked (.play digit .burst via)] :=
  sent_of_bursts (bursts_play_burst digit via)

theorem sent_confirmed (withPhone : Bool) (via : Handle) : b.sent (.confirmed withPhone via) =
    if withPhone = true ∧ b.tones.queue ≠ [] then [b.tones.queue] else [] :=
  sent_of_bursts (bursts_confirmed withPhone via)

theorem sent_discard (via : Handle) : b.sent (.discard via) = [] :=
  sent_of_bursts (bursts_discard via)

theorem sent_of_isQuiet (h : op.isQuiet = true) : b.sent op = [] :=
  sent_of_bursts (step_of_isQuiet h).1

/-- The phone keeps the bursts that it had. -/
theorem bursts_step (b : ToneBench) (op : Op) :
    (b.step op).2.phone.bursts = b.phone.bursts ++ b.sent op := by
  cases op using Op.kinds with
  | burst digit via => rw [bursts_play_burst, sent_play_burst]
  | confirmed withPhone via => rw [bursts_confirmed, sent_confirmed]
  | discard via => rw [bursts_discard, sent_discard]
  | quiet op h => rw [(step_of_isQuiet h).1, sent_of_isQuiet h]

/-- Whatever a confirmation finds in the queue is gone afterwards. -/
theorem queue_confirmed (withPhone : Bool) (via : Handle) :
    (b.step (.confirmed withPhone via)).2.tones.queue = [] := by
  by_cases hq : b.tones.queue = [] <;> cases withPhone <;> simp [step, Transmitter.confirmed, hq]

/-- A quiet request has no entries and asks for no burst digit. -/
theorem entries_of_isQuiet (h : op.isQuiet = true) : b.entries op = [] ∧ b.asked op = [] := by
  have hs : op.settles = false ∧ op.drops = false ∧ b.asked op = [] := by
    cases op with
    | play digit mode via => cases mode <;> simp_all [Op.isQuiet, Op.settles, Op.drops, asked]
    | _ => simp_all [Op.isQuiet, Op.settles, Op.drops, asked]
  exact ⟨by simp [entries, hs.1, hs.2.1, sent_of_isQuiet h], hs.2.2⟩

theorem sent_ne_nil {ds : List Char} (hds : ds ∈ b.sent op) : ds ≠ [] := by
  cases op using Op.kinds with
  | burst digit via => rw [sent_play_burst] at hds; split_ifs at hds <;> simp_all [asked]
  | confirmed withPhone via => rw [sent_confirmed] at hds; split_ifs at hds <;> simp_all
  | discard via => simp [sent_discard] at hds
  | quiet op h => simp [sent_of_isQuiet h] at hds

/-- A step that sends a burst sends one, drops nothing, and leaves its confirmation pending. -/
theorem sent_cases (b : ToneBench) (op : Op) : b.sent op = [] ∨ ∃ ds, b.sent op = [ds] ∧
    op.drops = false ∧ (b.step op).2.tones.pending = true := by
  cases op using Op.kinds with
  | burst digit via =>
    rw [sent_play_burst]
    split_ifs with hp
    · exact Or.inl rfl
    · exact Or.inr ⟨_, rfl, rfl, by simp [step, Transmitter.play, hp]⟩
  | confirmed withPhone via =>
    rw [sent_confirmed]
    split_ifs with h
    · exact Or.inr ⟨_, rfl, by simp [Op.drops, h.1],
        by simp [step, Transmitter.confirmed, h.1, h.2]⟩
    · exact Or.inl rfl
  | discard via => exact Or.inl (sent_discard via)
  | quiet op h => exact Or.inl (sent_of_isQuiet h)

/-- While a confirmation is pending, a request that does not settle it sends nothing and leaves it
pending. -/
theorem entries_of_pending (hp : b.tones.pending = true) (hs : op.settles = false) :
    b.entries op = [] ∧ (b.step op).2.tones.pending = true := by
  cases op using Op.kinds with
  | burst digit via =>
    refine ⟨?_, by simp [step, Transmitter.play, hp]⟩
    rw [entries, sent_play_burst, if_pos hp, hs]
    rfl
  | confirmed withPhone via => simp [Op.settles] at hs
  | discard via => simp [Op.settles] at hs
  | quiet op h => exact ⟨(entries_of_isQuiet h).1, by rw [(step_of_isQuiet h).2, hp]⟩

/-- **One step.** What leaves the transmitter, followed by what stays queued, is what was queued
followed by what was asked for. -/
theorem payloads_entries_append_queue (h : b.Awaiting) :
    payloads (b.entries op) ++ (b.step op).2.tones.queue = b.tones.queue ++ b.asked op := by
  cases op using Op.kinds with
  | burst digit via =>
    unfold entries
    rw [sent_play_burst]
    by_cases hp : b.tones.pending = true
    · simp [hp, payloads, Op.settles, Op.drops, asked, step, Transmitter.play]
    · -- nothing can be queued, so the digit that goes out at once overtakes none
      have hq : b.tones.queue = [] := by_contra fun hq => hp (h hq)
      simp [hp, hq, payloads, Entry.digits, Op.settles, Op.drops, asked, step, Transmitter.play]
  | confirmed withPhone via =>
    unfold entries
    rw [queue_confirmed, sent_confirmed]
    by_cases hq : b.tones.queue = [] <;> cases withPhone <;>
      simp [hq, payloads, Entry.digits, Op.settles, Op.drops, asked]
  | discard via =>
    unfold entries
    rw [sent_discard]
    simp [payloads, Entry.digits, Op.settles, Op.drops, asked, step, Transmitter.discard]
  | quiet op hquiet =>
    rw [(entries_of_isQuiet hquiet).1, (entries_of_isQuiet hquiet).2, (step_of_isQuiet hquiet).2]
    simp [payloads]

theorem Awaiting.step (h : b.Awaiting) (op : Op) : (b.step op).2.Awaiting := by
  cases op using Op.kinds with
  | burst digit via =>
    intro _
    by_cases hp : b.tones.pending = true <;> simp [ToneBench.step, Transmitter.play, hp]
  | confirmed withPhone via => exact fun hq => absurd (queue_confirmed withPhone via) hq
  | discard via =>
    intro hq
    simp [ToneBench.step, Transmitter.discard] at hq
  | quiet op hquiet =>
    unfold Awaiting
    rw [(step_of_isQuiet hquiet).2]
    exact h

end Step

/-! ## Clones -/

section Clones

variable {b : ToneBench}

theorem through_of_uniform (h : b.Uniform) (via : Handle) : b.through via = b.tones := by
  cases via with
  | original => rfl
  | clone n =>
    simp only [through]
    cases hn : b.clones[n]? with
    | none => rfl
    | some lengths =>
      have := h lengths (List.mem_of_getElem? hn)
      subst this
      rfl

theorem Uniform.step (h : b.Uniform) (op : Op) : (b.step op).2.Uniform := by
  cases op with
  | clone via =>
    intro lengths hl
    rcases List.mem_append.mp hl with hl | hl
    · exact h lengths hl
    · rw [List.mem_singleton] at hl
      rw [hl, through_of_uniform h via]
      rfl
  | release =>
    simp only [ToneBench.step]
    cases b.phone.releaseBurst <;> exact h
  | _ =>
    intro lengths hl
    simpa [ToneBench.step, share] using h lengths (by simpa [ToneBench.step, share] using hl)

theorem step_direct (h : b.Uniform) (op : Op) : b.step op = b.step op.direct := by
  cases op <;> simp [ToneBench.step, Op.direct, through_of_uniform h]

/-- Requests through clones do what they do through the transmitter itself. -/
theorem run_direct (h : b.Uniform) (ops : List Op) : b.run ops = b.run (ops.map Op.direct) := by
  induction ops generalizing b with
  | nil => rfl
  | cons op ops ih =>
    have hs := h.step op
    rw [List.map_cons, run, run, ← step_direct h op, ih hs]

end Clones

/-! ## Runs -/

section Runs

variable {b : ToneBench}

theorem payloads_append (es es' : List Entry) :
    payloads (es ++ es') = payloads es ++ payloads es' := List.flatMap_append

/-- **Conservation.** No digit is lost, doubled or overtaken. -/
theorem payloads_ledger_append_queue (h : b.Awaiting) (ops : List Op) :
    payloads (b.ledger ops) ++ (b.run ops).2.tones.queue = b.tones.queue ++ b.requested ops := by
  induction ops generalizing b with
  | nil => simp [ledger, run, requested, payloads]
  | cons op ops ih =>
    calc payloads (b.ledger (op :: ops)) ++ (b.run (op :: ops)).2.tones.queue
        = payloads (b.entries op) ++ (payloads ((b.step op).2.ledger ops) ++
            ((b.step op).2.run ops).2.tones.queue) := by
          rw [ledger, payloads_append, List.append_assoc]; rfl
      _ = payloads (b.entries op) ++ (b.step op).2.tones.queue ++
            (b.step op).2.requested ops := by rw [ih (h.step op), List.append_assoc]
      _ = b.tones.queue ++ b.requested (op :: ops) := by
          rw [payloads_entries_append_queue h, List.append_assoc]; rfl

theorem burst_mem_entries {ds : List Char} {op : Op} (h : .burst ds ∈ b.entries op) :
    ds ∈ b.sent op := by
  unfold entries at h
  cases op.settles <;> cases op.drops <;> simpa using h

theorem filterMap_entries (b : ToneBench) (op : Op) :
    (b.entries op).filterMap Entry.burst? = b.sent op := by
  have hmap : ∀ dss : List (List Char), (dss.map Entry.burst).filterMap Entry.burst? = dss := by
    intro dss
    rw [List.filterMap_map]
    exact List.filterMap_some
  unfold entries
  cases op.settles <;> cases op.drops <;> simp [hmap, Entry.burst?, List.filterMap_cons]

/-- The bursts of the ledger are those that the phone records. -/
theorem bursts_run (b : ToneBench) (ops : List Op) :
    (b.run ops).2.phone.bursts = b.phone.bursts ++ (b.ledger ops).filterMap Entry.burst? := by
  induction ops generalizing b with
  | nil => simp [run, ledger]
  | cons op ops ih =>
    rw [run, ledger, List.filterMap_append, filterMap_entries, ih, bursts_step, List.append_assoc]

/-- No burst is empty. -/
theorem ne_nil_of_burst_mem {ds : List Char} {ops : List Op} (h : .burst ds ∈ b.ledger ops) :
    ds ≠ [] := by
  induction ops generalizing b with
  | nil => simp [ledger] at h
  | cons op ops ih =>
    rcases List.mem_append.mp h with h | h
    · exact sent_ne_nil (burst_mem_entries h)
    · exact ih h

/-- While a confirmation is pending no burst is sent before a settlement. -/
theorem mem_of_pending {ops : List Op} {es es' : List Entry} {ds : List Char}
    (hp : b.tones.pending = true) (h : b.ledger ops = es ++ .burst ds :: es') :
    .settled ∈ es := by
  induction ops generalizing b with
  | nil => simp [ledger] at h
  | cons op ops ih =>
    by_cases hs : op.settles = true
    · cases es with
      | nil => simp [ledger, entries, hs] at h
      | cons e es =>
        simp only [ledger, entries, hs, if_true, List.cons_append, List.cons.injEq] at h
        simp [← h.1]
    · obtain ⟨he, hp'⟩ := entries_of_pending hp (by simpa using hs)
      rw [ledger, he, List.nil_append] at h
      exact ih hp' h

/-- Between two bursts there is a settlement. -/
theorem mem_of_ledger_eq {ops : List Op} {es es' es'' : List Entry} {ds ds' : List Char}
    (h : b.ledger ops = es ++ .burst ds :: (es' ++ .burst ds' :: es'')) : .settled ∈ es' := by
  induction ops generalizing b es with
  | nil => simp [ledger] at h
  | cons op ops ih =>
    rw [ledger] at h
    rcases List.append_eq_append_iff.mp h with ⟨t, -, ht⟩ | ⟨t, he, ht⟩
    · exact ih ht
    · -- the first of the two may be the last entry of this step
      cases t with
      | nil => exact @ih _ [] ht.symm
      | cons e t =>
        rw [List.cons_append, List.cons.injEq] at ht
        obtain ⟨rfl, ht⟩ := ht
        have hsent : ds ∈ b.sent op := burst_mem_entries (by rw [he]; simp)
        rcases sent_cases b op with hnil | ⟨ds₁, hone, hdrops, hp⟩
        · simp [hnil] at hsent
        · have htnil : t = [] := by
            cases hset : op.settles <;> simp [entries, hone, hdrops, hset] at he
            · cases es <;> simp_all
            · cases es with
              | nil => simp at he
              | cons e es => cases es <;> simp_all
          rw [htnil, List.nil_append] at ht
          exact mem_of_pending hp ht.symm

theorem fresh_awaiting (onLength offLength : ℕ) (phone : Phone) :
    (fresh onLength offLength phone).Awaiting := fun h => absurd rfl h

theorem fresh_uniform (onLength offLength : ℕ) (phone : Phone) :
    (fresh onLength offLength phone).Uniform := fun _ h => absurd h List.not_mem_nil

/-- **Digits leave once, in order.** For a new transmitter and any requests: the bursts of the
ledger are those that the phone received; they and what was dropped, in the order in which that
happened, and then the queue, are the burst digits requested, each replaced by the hold digit if the
phone held at that moment. No burst is empty; a confirmation with a phone sends nothing, the queue
being empty, or the whole queue as one burst; between two bursts there is a confirmation or a
discard; and it makes no difference which requests go through clones. -/
theorem digits_leave_once_in_order (onLength offLength : ℕ) (phone : Phone) (ops : List Op) :
    let b := fresh onLength offLength phone
    (b.run ops).2.phone.bursts = phone.bursts ++ (b.ledger ops).filterMap Entry.burst? ∧
    payloads (b.ledger ops) ++ (b.run ops).2.tones.queue = b.requested ops ∧
    (∀ ds, .burst ds ∈ b.ledger ops → ds ≠ []) ∧
    (∀ via, let s := (b.run ops).2
      s.sent (.confirmed true via) = (if s.tones.queue = [] then [] else [s.tones.queue]) ∧
      (s.step (.confirmed true via)).2.tones.queue = []) ∧
    (∀ es es' es'' ds ds', b.ledger ops = es ++ .burst ds :: (es' ++ .burst ds' :: es'') →
      .settled ∈ es') ∧
    b.run ops = b.run (ops.map Op.direct) := by
  intro b
  have hb : b.Awaiting := fresh_awaiting onLength offLength phone
  refine ⟨bursts_run b ops, payloads_ledger_append_queue hb ops, fun ds => ne_nil_of_burst_mem,
    fun via => ?_, fun es es' es'' ds ds' => mem_of_ledger_eq, run_direct (fresh_uniform _ _ _) ops⟩
  intro s
  refine ⟨?_, queue_confirmed true via⟩
  rw [sent_confirmed]
  by_cases hq : s.tones.queue = [] <;> simp [hq]

end Runs

end ToneBench

end CdmaCall
