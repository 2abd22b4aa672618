import CdmaCall.Proofs.Dtmf.Ledger
import Mathlib.Data.List.Induction

/-!
# The local hold and digits that wait

A digit is replaced by the hold digit when it is requested, not when it is sent. What a request
leaves in the queue is one equation (`queue_step`), and from it follows where a digit that waits
came from: a request behind an outstanding burst after which nothing was settled
(`mem_queue_iff`). A burst that goes out under the local hold can therefore show other digits than
the hold digit, and shows exactly those that were requested before the hold and waited since
(`held_burst_masked`). The smallest such burst is the one of `hold_spares_queue`.
-/

namespace CdmaCall

namespace ToneBench

section Defs

/-- Digit `d` was asked for behind an outstanding burst, and nothing was settled since. -/
def AskedSince (b : ToneBench) (ops : List Op) (d : Char) : Prop :=
  ∃ before request since, ops = before ++ request :: since ∧
    (b.run before).2.tones.pending = true ∧ d ∈ (b.run before).2.asked request ∧
    ∀ op ∈ request :: since, op.settles = false

/-- Digit `d` was requested behind an outstanding burst while the phone did not hold, and nothing
was settled since. -/
def WaitsUnmasked (b : ToneBench) (ops : List Op) (d : Char) : Prop :=
  ∃ before via since, ops = before ++ .play d .burst via :: since ∧
    (b.run before).2.tones.pending = true ∧ (b.run before).2.phone.holding = false ∧
    ∀ op ∈ since, op.settles = false

end Defs

variable {b : ToneBench} {op : Op} {ops : List Op} {ds : List Char} {d : Char}

/-! ### One request -/

/-- A request empties the queue, or adds what it asks for behind an outstanding burst. -/
theorem queue_step (b : ToneBench) (op : Op) : (b.step op).2.tones.queue =
    if op.settles then [] else b.tones.queue ++ if b.tones.pending then b.asked op else [] := by
  cases op using Op.kinds with
  | burst digit via =>
    by_cases hp : b.tones.pending = true <;> simp [step, Transmitter.play, hp, Op.settles, asked]
  | confirmed withPhone via => exact queue_confirmed withPhone via
  | discard via => rfl
  | quiet op h =>
    have hnone : op.settles = false ∧ b.asked op = [] := by
      refine ⟨?_, (entries_of_isQuiet h).2⟩
      cases op <;> first | rfl | cases h
    rw [(step_of_isQuiet h).2, hnone.1, hnone.2]
    simp

theorem mem_asked_iff : d ∈ b.asked op ↔ ∃ digit via, op = .play digit .burst via ∧
    d = if b.phone.holding then Keypad.holdDigit else digit := by
  cases op with
  | play digit mode via => cases mode <;> simp [asked]
  | _ => simp [asked]

/-- Under the local hold nothing but the hold digit is asked for. -/
theorem eq_holdDigit_of_mem_asked (hhold : b.phone.holding = true) (hd : d ∈ b.asked op) :
    d = Keypad.holdDigit := by
  obtain ⟨digit, via, -, hd⟩ := mem_asked_iff.1 hd
  rwa [if_pos hhold] at hd

/-- A request that settles nothing sends what it asks for. -/
theorem sent_of_not_settles (hs : op.settles = false) (hds : ds ∈ b.sent op) :
    ds = b.asked op ∧ ds.length = 1 := by
  cases op using Op.kinds with
  | burst digit via =>
    rw [sent_play_burst] at hds
    split_ifs at hds
    · cases hds
    · obtain rfl := List.mem_singleton.1 hds
      exact ⟨rfl, rfl⟩
  | confirmed withPhone via => cases hs
  | discard via => cases hs
  | quiet op h =>
    rw [sent_of_isQuiet h] at hds
    cases hds

/-- A request that settles something sends the queue. -/
theorem sent_of_settles (hs : op.settles = true) (hds : ds ∈ b.sent op) : ds = b.tones.queue := by
  cases op with
  | confirmed withPhone via =>
    rw [sent_confirmed] at hds
    split_ifs at hds
    · exact List.mem_singleton.1 hds
    · cases hds
  | discard via =>
    rw [sent_discard] at hds
    cases hds
  | _ => cases hs

/-! ### Where digits that wait came from -/

theorem run_concat (b : ToneBench) (ops : List Op) (op : Op) :
    (b.run (ops ++ [op])).2 = ((b.run ops).2.step op).2 := by
  induction ops generalizing b with
  | nil => rfl
  | cons first ops ih => exact ih _

theorem askedSince_concat : b.AskedSince (ops ++ [op]) d ↔ op.settles = false ∧
    (b.AskedSince ops d ∨ (b.run ops).2.tones.pending = true ∧ d ∈ (b.run ops).2.asked op) := by
  constructor
  · rintro ⟨before, request, since, heq, hbusy, hasked, hopen⟩
    rcases List.eq_nil_or_concat' since with rfl | ⟨rest, last, rfl⟩
    · obtain ⟨rfl, rfl⟩ := List.append_singleton_inj.1 heq
      exact ⟨hopen _ (List.mem_cons_self ..), .inr ⟨hbusy, hasked⟩⟩
    · rw [← List.cons_append, ← List.append_assoc, List.append_singleton_inj] at heq
      obtain ⟨rfl, rfl⟩ := heq
      rw [← List.cons_append, List.forall_mem_append] at hopen
      exact ⟨hopen.2 _ (List.mem_singleton_self _), .inl ⟨_, _, _, rfl, hbusy, hasked, hopen.1⟩⟩
  · rintro ⟨hop, ⟨before, request, since, rfl, hbusy, hasked, hopen⟩ | ⟨hbusy, hasked⟩⟩
    · refine ⟨before, request, since ++ [op], by simp, hbusy, hasked, ?_⟩
      rw [← List.cons_append, List.forall_mem_append]
      exact ⟨hopen, List.forall_mem_singleton.2 hop⟩
    · exact ⟨ops, op, [], rfl, hbusy, hasked, List.forall_mem_singleton.2 hop⟩

/-- **What waits** is what was asked for behind an outstanding burst since something was settled
last. -/
theorem mem_queue_iff (hb : b.tones.queue = []) (ops : List Op) (d : Char) :
    d ∈ (b.run ops).2.tones.queue ↔ b.AskedSince ops d := by
  induction ops using List.reverseRecOn with
  | nil => simp [run, hb, AskedSince]
  | append_singleton ops op ih =>
    rw [run_concat, queue_step, askedSince_concat, ← ih]
    cases op.settles <;> cases (b.run ops).2.tones.pending <;> simp

/-- A digit that is not the hold digit was asked for as it is, while the phone did not hold. -/
theorem askedSince_iff_of_ne (hd : d ≠ Keypad.holdDigit) :
    b.AskedSince ops d ↔ b.WaitsUnmasked ops d := by
  constructor
  · rintro ⟨before, request, since, heq, hbusy, hasked, hopen⟩
    obtain ⟨digit, via, rfl, hdigit⟩ := mem_asked_iff.1 hasked
    have hholds : (b.run before).2.phone.holding = false := by
      by_contra hholds
      exact hd (eq_holdDigit_of_mem_asked (by simpa using hholds) hasked)
    rw [hholds, if_neg Bool.false_ne_true] at hdigit
    exact ⟨before, via, since, hdigit ▸ heq, hbusy, hholds, (List.forall_mem_cons.1 hopen).2⟩
  · rintro ⟨before, via, since, heq, hbusy, hholds, hopen⟩
    refine ⟨before, _, since, heq, hbusy, mem_asked_iff.2 ⟨d, via, rfl, ?_⟩,
      List.forall_mem_cons.2 ⟨rfl, hopen⟩⟩
    rw [hholds, if_neg Bool.false_ne_true]

/-! ### Bursts under the local hold -/

/-- **The local hold masks what is requested under it.** A new transmitter and its clones serve any
requests, and then one of them sends a burst while the phone holds. If the burst is a digit that is
sent as it is requested, it is the hold digit. Otherwise it is the queue, flushed by a confirmation,
and the digits in it other than the hold digit are exactly those that were requested before the hold
became active, behind a burst whose confirmation is only handled now. -/
theorem held_burst_masked (onLength offLength : ℕ) (phone : Phone) (before : List Op)
    (hhold : ((fresh onLength offLength phone).run before).2.phone.holding = true)
    (hds : ds ∈ ((fresh onLength offLength phone).run before).2.sent op) :
    (op.settles = false → ds = [Keypad.holdDigit]) ∧
    (op.settles = true → ∀ d ≠ Keypad.holdDigit,
      d ∈ ds ↔ (fresh onLength offLength phone).WaitsUnmasked before d) := by
  refine ⟨fun hs => ?_, fun hs d hd => ?_⟩
  · obtain ⟨rfl, hone⟩ := sent_of_not_settles hs hds
    obtain ⟨d, hsingle⟩ := List.length_eq_one_iff.1 hone
    have hd : d = Keypad.holdDigit :=
      eq_holdDigit_of_mem_asked hhold (hsingle ▸ List.mem_singleton_self d)
    rw [hsingle, hd]
  · rw [sent_of_settles hs hds, mem_queue_iff rfl, askedSince_iff_of_ne hd]

/-- Of two digits that wait, the one that was requested under the hold is masked. -/
theorem held_burst_masked_half :
    let b := fresh 0 0 { id := 0 }
    let ops : List Op :=
      [.play '1' .burst .original, .play '2' .burst .original, .hold true, .play '3' .burst true]
    (b.run ops).2.sent (.confirmed true) = [['2', '#']] ∧ b.WaitsUnmasked ops '2' ∧
      ¬b.WaitsUnmasked ops '3' := by
  intro b ops
  have hsent : (b.run ops).2.sent (.confirmed true) = [['2', '#']] := by decide
  obtain ⟨-, hflush⟩ := held_burst_masked 0 0 { id := 0 } ops (by decide)
    (hsent ▸ List.mem_singleton_self ['2', '#'])
  exact ⟨hsent, (hflush rfl '2' (by decide)).1 (by decide),
    fun hwaits => absurd ((hflush rfl '3' (by decide)).2 hwaits) (by decide)⟩

/-- **A digit that waits when the hold becomes active is sent as it is.** -/
theorem hold_spares_queue :
    let s := ((fresh 0 0 { id := 0 }).run
      [.play '1' .burst .original, .play '2' .burst .original, .hold true]).2
    s.phone.holding = true ∧ s.sent (.confirmed true) = [['2']] ∧ '2' ≠ Keypad.holdDigit := by
  decide

end ToneBench

end CdmaCall
