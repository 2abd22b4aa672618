import CdmaCall.Radio.Action

/-!
# Tone transmitter

Digits go out as continuous tones or as bursts. At most one burst waits for its confirmation;
digits requested meanwhile queue up, and the confirmation sends them all as the next burst. The
transmitter decides what to send; whoever drives it hands the request to a phone.
-/

namespace CdmaCall

/-- What became of a requested digit. -/
inductive ToneOutcome where
  | started | burstSent | queued
  deriving DecidableEq, Repr, Inhabited

instance : Named ToneOutcome where
  all := [.started, .burstSent, .queued]
  name
    | .started => "started"
    | .burstSent => "burst_sent"
    | .queued => "queued"

/-- The queue of a connection's bursts and their lengths. -/
structure Transmitter where
  onLength : Nat := 0
  offLength : Nat := 0
  queue : List Char := []
  pending : Bool := false
  deriving DecidableEq, Repr, Inhabited

namespace Transmitter

/-- A burst of `digits` with the lengths of this transmitter. -/
def burstOf (t : Transmitter) (digits : List Char) : Action :=
  .burst digits t.onLength t.offLength

/-- Ask for a digit. `holding` is the local hold of the phone: while it is active, a burst digit is
replaced at the moment of the request. -/
def play (t : Transmitter) (mode : ToneMode) (holding : Bool) (digit : Char) :
    ToneOutcome × Transmitter × Option Action :=
  match mode with
  | .continuous => (.started, t, some (.startTone digit))
  | .burst =>
    let digit := if holding then Keypad.holdDigit else digit
    if t.pending then
      (.queued, { t with queue := t.queue ++ [digit] }, none)
    else
      (.burstSent, { t with pending := true }, some (t.burstOf [digit]))

/-- Only continuous tones have anything to stop. -/
def stop (mode : ToneMode) : Option Action :=
  match mode with
  | .continuous => some .stopTone
  | .burst => none

/-- The outstanding burst was confirmed: the whole queue is the next burst, or is dropped if there
is no phone to send it. The length of the flushed text in bytes is returned. -/
def confirmed (t : Transmitter) (hasPhone : Bool) : Nat × Transmitter × Option Action :=
  if t.queue.isEmpty then (0, { t with pending := false }, none)
  else if hasPhone then
    (Action.byteCount t.queue, { t with queue := [], pending := true }, some (t.burstOf t.queue))
  else (Action.byteCount t.queue, { t with queue := [], pending := false }, none)

/-- Drop the queue, and forget an outstanding confirmation. The number of dropped digits is
returned. -/
def discard (t : Transmitter) : Nat × Transmitter :=
  (t.queue.length, { t with queue := [], pending := false })

end Transmitter

end CdmaCall
