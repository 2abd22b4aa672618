import CdmaCall.Dtmf.Transmitter
import CdmaCall.Event
import CdmaCall.Radio.Phone

/-!
# A transmitter with a phone of its own

One tone transmitter with its clones, one phone that keeps confirmations, and the mailbox they
report to.
-/

namespace CdmaCall

/-- What a request goes through: the transmitter itself, or one of the clones made of it. -/
inductive Handle where
  | original
  | clone (n : Nat)
  deriving DecidableEq, Repr, Inhabited

/-- A request says whether it goes through the first clone. -/
instance : Coe Bool Handle := ⟨fun throughClone => if throughClone then .clone 0 else .original⟩

/-- A transmitter, its clones, its phone and its mailbox. -/
structure ToneBench where
  tones : Transmitter
  /-- The on and off lengths that each clone carries; all the rest it shares. -/
  clones : List (Nat × Nat) := []
  phone : Phone := { id := 0 }
  mailbox : Mailbox := {}
  deriving DecidableEq, Repr

namespace ToneBench

/-- The requests that concern a transmitter. -/
inductive Op where
  | play (digit : Char) (mode : ToneMode) (via : Handle)
  | stop (mode : ToneMode) (via : Handle := .original)
  | hold (active : Bool)
  | shutdown
  | confirmed (withPhone : Bool) (via : Handle := .original)
  | discard (via : Handle := .original)
  | clone (via : Handle)
  | release
  deriving DecidableEq, Repr

/-- What a request returns. -/
inductive Reply where
  | done
  | outcome (o : ToneOutcome)
  | count (n : Nat)
  | flag (yes : Bool)
  deriving DecidableEq, Repr

/-- The sender that the phone of a bench knows. -/
def sender : ConnId := 0

/-- Hand a request, if there is one, to the phone. -/
def perform (b : ToneBench) : Option Action → ToneBench
  | none => b
  | some a => { b with phone := (b.phone.perform sender a).2 }

/-- The transmitter as a handle has it: the lengths are the handle's own, the queue is shared. A
clone that was not made yet is the transmitter itself. -/
def through (b : ToneBench) : Handle → Transmitter
  | .original => b.tones
  | .clone n =>
    match b.clones[n]? with
    | none => b.tones
    | some (onLength, offLength) => { b.tones with onLength, offLength }

/-- Write back what handles share. -/
def share (b : ToneBench) (t : Transmitter) : ToneBench :=
  { b with tones := { b.tones with queue := t.queue, pending := t.pending } }

/-- Perform a request. -/
def step (b : ToneBench) : Op → Reply × ToneBench
  | .play digit mode via =>
    let (outcome, tones, action) := (b.through via).play mode b.phone.holding digit
    (.outcome outcome, (b.share tones).perform action)
  | .stop mode _ => (.done, b.perform (Transmitter.stop mode))
  | .hold active => (.done, { b with phone := { b.phone with holding := active } })
  | .shutdown => (.done, { b with mailbox := b.mailbox.shutdown })
  | .confirmed withPhone via =>
    let (n, tones, action) := (b.through via).confirmed withPhone
    (.count n, (b.share tones).perform action)
  | .discard via => let (n, tones) := (b.through via).discard; (.count n, b.share tones)
  | .clone via =>
    let t := b.through via
    (.done, { b with clones := b.clones ++ [(t.onLength, t.offLength)] })
  | .release =>
    match b.phone.releaseBurst with
    | none => (.flag false, b)
    | some (_, phone) =>
      (.flag true, { b with phone, mailbox := (b.mailbox.post .burstConfirmed).2 })

end ToneBench

end CdmaCall
