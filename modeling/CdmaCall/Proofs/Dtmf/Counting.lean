import CdmaCall.Proofs.Dtmf.Alphabet
import CdmaCall.Proofs.Dtmf.Holding
import Mathlib.Data.String.Defs

/-!
# What is counted when the queue is emptied

A confirmation and a discard both empty the queue and say how much was in it, the one in bytes of
the text, the other in digits. A text has at least one byte for every digit, and no more than that
only if it is ASCII (`Action.byteCount_eq_length_iff`). A transmitter takes any character, so the
two can differ, and `confirmed_counts_bytes` says after which requests they do: those that leave
something else than ASCII behind the outstanding burst. `confirmed_miscounts` is the smallest case.

A connection lets nothing but keys through to its transmitter, so there a confirmation counts digits
at every moment of a session (`World.counts_digits_during`).
-/

namespace CdmaCall

variable {digits : List Char}

/-! ### Bytes and digits -/

theorem utf8Size_eq_one_iff_isAscii {c : Char} : c.utf8Size = 1 ↔ c.isAscii = true := by
  have hlt : c.val ≤ 127 ↔ c.toNat < 128 := by
    rw [UInt32.le_iff_toNat_le]
    exact Nat.lt_succ_iff.symm
  rw [Char.utf8Size_eq_one_iff, hlt, Char.isAscii, decide_eq_true_eq]

namespace Action

@[simp] theorem byteCount_nil : byteCount [] = 0 := rfl

@[simp] theorem byteCount_cons (d : Char) (digits : List Char) :
    byteCount (d :: digits) = d.utf8Size + byteCount digits := rfl

/-- The bytes are those of the text that a phone is handed. -/
theorem utf8ByteSize_ofList (digits : List Char) :
    (String.ofList digits).utf8ByteSize = byteCount digits := by
  induction digits with
  | nil => rfl
  | cons d digits ih =>
    rw [String.ofList_cons, String.utf8ByteSize_append, String.utf8ByteSize_singleton, ih,
      byteCount_cons]

theorem length_le_byteCount (digits : List Char) : digits.length ≤ byteCount digits := by
  induction digits with
  | nil => exact le_rfl
  | cons d digits ih =>
    have hd : 0 < d.utf8Size := d.utf8Size_pos
    rw [List.length_cons, byteCount_cons]
    omega

/-- Only ASCII has a byte for every digit and no more. -/
theorem byteCount_eq_length_iff :
    byteCount digits = digits.length ↔ ∀ d ∈ digits, d.isAscii = true := by
  induction digits with
  | nil => simp
  | cons d digits ih =>
    have hd : 0 < d.utf8Size := d.utf8Size_pos
    have hrest : digits.length ≤ byteCount digits := length_le_byteCount digits
    rw [List.forall_mem_cons, ← ih, ← utf8Size_eq_one_iff_isAscii, List.length_cons,
      byteCount_cons]
    -- neither the first digit nor the others can make up for what the other has too much
    omega

end Action

namespace Transmitter

variable (t : Transmitter) (hasPhone : Bool)

/-- What a confirmation returns does not depend on who takes the burst. -/
theorem confirmed_fst : (t.confirmed hasPhone).1 = Action.byteCount t.queue := by
  unfold confirmed
  cases hq : t.queue with
  | nil => rfl
  | cons d digits => cases hasPhone <;> rfl

/-- A confirmation and a discard count alike just if all that waits is ASCII. -/
theorem confirmed_eq_discard_iff :
    (t.confirmed hasPhone).1 = t.discard.1 ↔ ∀ d ∈ t.queue, d.isAscii = true := by
  rw [confirmed_fst]
  exact Action.byteCount_eq_length_iff

end Transmitter

/-! ### Transmitters and their clones -/

namespace ToneBench

variable {b : ToneBench}

theorem reply_confirmed (b : ToneBench) (withPhone : Bool) (via : Handle) :
    (b.step (.confirmed withPhone via)).1 = .count (Action.byteCount b.tones.queue) := by
  show Reply.count ((b.through via).confirmed withPhone).1 = _
  rw [Transmitter.confirmed_fst, through_queue]

theorem reply_discard (b : ToneBench) (via : Handle) :
    (b.step (.discard via)).1 = .count b.tones.queue.length := by
  show Reply.count (b.through via).queue.length = _
  rw [through_queue]

/-- The hold digit is ASCII, so only a digit that is not masked can be something else. -/
theorem forall_queue_isAscii_iff (hb : b.tones.queue = []) (ops : List Op) :
    (∀ d ∈ (b.run ops).2.tones.queue, d.isAscii = true) ↔
      ∀ d, b.WaitsUnmasked ops d → d.isAscii = true := by
  refine forall_congr' fun d => ?_
  by_cases hd : d = Keypad.holdDigit
  · have hascii : d.isAscii = true := by rw [hd]; decide
    exact ⟨fun _ _ => hascii, fun _ _ => hascii⟩
  · rw [mem_queue_iff hb, askedSince_iff_of_ne hd]

/-- **A confirmation counts bytes.** A new transmitter and its clones serve any requests. Through
whichever of them it is made, a discard then returns the number of digits that wait, while a
confirmation, with a phone or without one, returns how many bytes their text has. These are never
fewer, and as many as the digits just if every digit is ASCII that was requested behind the
outstanding burst, while the phone did not hold, and since something was settled last. -/
theorem confirmed_counts_bytes (onLength offLength : ℕ) (phone : Phone) (before : List Op)
    (withPhone : Bool) (via via' : Handle) :
    let b := fresh onLength offLength phone
    let s := (b.run before).2
    let bytes := (String.ofList s.tones.queue).utf8ByteSize
    (s.step (.discard via')).1 = .count s.tones.queue.length ∧
    (s.step (.confirmed withPhone via)).1 = .count bytes ∧ s.tones.queue.length ≤ bytes ∧
    ((s.step (.confirmed withPhone via)).1 = .count s.tones.queue.length ↔
      ∀ d, b.WaitsUnmasked before d → d.isAscii = true) := by
  intro b s bytes
  have hbytes : bytes = Action.byteCount s.tones.queue := Action.utf8ByteSize_ofList _
  have hconfirmed : (s.step (.confirmed withPhone via)).1 = .count bytes := by
    rw [reply_confirmed, hbytes]
  refine ⟨reply_discard s via', hconfirmed, hbytes ▸ Action.length_le_byteCount _, ?_⟩
  rw [hconfirmed, Reply.count.injEq, hbytes, Action.byteCount_eq_length_iff]
  exact forall_queue_isAscii_iff rfl before

/-- What is requested under the local hold waits as the hold digit, whatever it was. -/
example :
    let s := ((fresh 0 0 { id := 0 }).run
      [.play '1' .burst .original, .hold true, .play 'é' .burst true]).2
    (s.step (.confirmed true)).1 = .count 1 := by
  decide

/-- **A digit of two bytes is counted twice** by a confirmation, and once by a discard. -/
theorem confirmed_miscounts :
    let s := ((fresh 0 0 { id := 0 }).run
      [.play '1' .burst .original, .play 'é' .burst .original]).2
    s.tones.queue.length = 1 ∧ (s.step (.discard)).1 = .count 1 ∧
      ∀ withPhone, (s.step (.confirmed withPhone)).1 = .count 2 := by
  decide

end ToneBench

/-! ### Connections -/

namespace World

variable {start : World} {c : ConnId} {k : Conn}

/-- **Keys are counted right.** At every moment of a session a confirmation would return the number
of digits that wait at a connection, as a discard would. -/
theorem counts_digits_during (hstart : start.Fresh) (ops : List Op) (n : ℕ)
    (hk : (start.during ops n).conns[c]? = some k) (hasPhone : Bool) :
    (k.tones.confirmed hasPhone).1 = k.tones.discard.1 := by
  have hkeys := (dialable_during hstart ops n).waiting c
  rw [World.queueOf, hk] at hkeys
  have hascii : ∀ digit ∈ Keypad.keys, digit.isAscii = true := List.all_eq_true.1 (by decide)
  rw [Transmitter.confirmed_eq_discard_iff]
  exact fun d hd => hascii d (hkeys d hd)

end World

end CdmaCall
