import CdmaCall.Connection.Basic
import CdmaCall.Radio.Action

/-!
# Transcripts

What a run of the program shows: plain lines, the notices of a connection as they arrive, and the
state of a connection in JSON.
-/

namespace CdmaCall

/-- An entry of a transcript. -/
inductive Line where
  | plain (text : String)
  | notice (c : ConnId) (n : Notice)
  | snapshot (c : ConnId) (s : Snapshot)
  deriving DecidableEq, Repr

/-- A notice in words. -/
def Notice.describe (c : ConnId) : Notice → String
  | .entered p => "📞 " ++ Action.connName c ++ " " ++ p.label
  | .disconnected cause => "✗ " ++ Action.connName c ++ " disconnected: " ++ cause.description
  | .closed => "✓ " ++ Action.connName c ++ " closed"

/-- A flag in words. -/
def flagText (b : Bool) : String := if b then "true" else "false"

namespace Snapshot

/-- A written name as JSON. None of them needs an escape. -/
def nameText {α : Type} [Named α] (a : α) : String := "\"" ++ Named.name a ++ "\""

/-- The fields with their JSON texts. -/
def fields (c : ConnId) (s : Snapshot) : List (String × String) :=
  [("id", "\"" ++ Action.connName c ++ "\""),
    ("state", nameText s.phase),
    ("direction", nameText s.direction),
    ("bearer", nameText s.bearer),
    ("is_call_waiting", flagText s.waiting),
    ("queued_tones", toString s.queued),
    ("tone_confirmation_pending", flagText s.confirmationPending),
    ("call_waiting_timer_armed", flagText s.timerArmed),
    ("connection_time_reset", flagText s.timeCorrected),
    ("disconnect_cause", (s.cause.map nameText).getD "null"),
    ("capabilities", toString s.capabilities.bits.toNat),
    ("closed", flagText s.closed)]

/-- A JSON object, one field a line. -/
def jsonText (c : ConnId) (s : Snapshot) : String :=
  "\x7b\n" ++ ",\n".intercalate ((s.fields c).map fun (name, v) => "  \"" ++ name ++ "\": " ++ v) ++
    "\n\x7d"

end Snapshot

/-- The text of an entry. -/
def Line.text : Line → String
  | .plain t => t
  | .notice c n => n.describe c
  | .snapshot c s => s.jsonText c

end CdmaCall
