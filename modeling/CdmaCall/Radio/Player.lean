/-!
# Emergency cue

The player of the audible cue for emergency calls. Repeated starts and stops are harmless.
-/

namespace CdmaCall

/-- Whether the cue is playing, and how often it was started and stopped. -/
structure CuePlayer where
  playing : Bool := false
  starts : Nat := 0
  stops : Nat := 0
  deriving DecidableEq, Repr, Inhabited

namespace CuePlayer

/-- Start the cue. -/
def start (p : CuePlayer) : CuePlayer := { p with playing := true, starts := p.starts + 1 }

/-- Stop the cue. -/
def stop (p : CuePlayer) : CuePlayer := { p with playing := false, stops := p.stops + 1 }

end CuePlayer

end CdmaCall
