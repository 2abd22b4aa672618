/-!
# Capabilities

A set of call capabilities, kept as the bits of a 32-bit word.
-/

namespace CdmaCall

/-- A set of capabilities. -/
structure Capabilities where
  bits : UInt32
  deriving DecidableEq, Repr, Inhabited

namespace Capabilities

/-- No capability at all. -/
def none : Capabilities := ⟨0⟩

/-- The call can be put on hold. -/
def hold : Capabilities := ⟨2⟩

/-- The call can be merged into a conference. -/
def merge : Capabilities := ⟨4⟩

/-- The call can be muted. -/
def mute : Capabilities := ⟨64⟩

/-- All capabilities of either set. -/
def union (a b : Capabilities) : Capabilities := ⟨a.bits ||| b.bits⟩

/-- Whether every capability of `b` is in `a`. -/
def contains (a b : Capabilities) : Bool := a.bits &&& b.bits == b.bits

/-- All capabilities of the sets in a list. -/
def unions (sets : List Capabilities) : Capabilities := sets.foldl union none

/-- A set from its word, if the number fits one. -/
def ofNat? (n : Nat) : Option Capabilities := if n < UInt32.size then some ⟨n.toUInt32⟩ else .none

end Capabilities

end CdmaCall
