import CdmaCall.Radio.Leg

/-!
# Connect time correction

The first line control record seen on an active outgoing leg marks the moment at which the far end
answered: the duration of the leg starts anew, once.
-/

namespace CdmaCall

/-- Whether the correction was made. -/
structure Correction where
  made : Bool := false
  deriving DecidableEq, Repr, Inhabited

namespace Correction

/-- A record arrived on `leg`. Returns whether the correction was made now. -/
def onRecord (k : Correction) (leg : Leg) (now : Nat) : Bool × Correction × Leg :=
  if !k.made && leg.state == .active && leg.duration now != 0 && !leg.incoming then
    (true, ⟨true⟩, leg.resetTime now)
  else (false, k, leg)

/-- Forget a correction. -/
def reset (_ : Correction) : Correction := {}

end Correction

/-- A correction with a leg of its own and the time. -/
structure LineBench where
  now : Nat := 0
  correction : Correction := {}
  leg : Leg
  deriving DecidableEq, Repr

namespace LineBench

/-- The requests that concern the correction and its leg. -/
inductive Op where
  | record
  | reset
  | legState (state : LegState)
  | hangUp
  | refuseHangup (yes : Bool)
  | resetTime
  | advance (ms : Nat)
  deriving DecidableEq, Repr

/-- What a request returns. -/
inductive Reply where
  | done
  | corrected (yes : Bool)
  | refused (e : Error)
  deriving DecidableEq, Repr

/-- Perform a request. -/
def step (b : LineBench) : Op → Reply × LineBench
  | .record =>
    let (yes, correction, leg) := b.correction.onRecord b.leg b.now
    (.corrected yes, { b with correction, leg })
  | .reset => (.done, { b with correction := b.correction.reset })
  | .legState s => (.done, { b with leg := b.leg.setState b.now s })
  | .hangUp =>
    match b.leg.hangUp with
    | (.ok _, leg) => (.done, { b with leg })
    | (.error e, leg) => (.refused e, { b with leg })
  | .refuseHangup yes => (.done, { b with leg := { b.leg with refusesHangup := yes } })
  | .resetTime => (.done, { b with leg := b.leg.resetTime b.now })
  | .advance ms => (.done, { b with now := b.now + ms })

end LineBench

end CdmaCall
