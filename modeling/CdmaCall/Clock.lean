/-!
# Virtual clock

A clock in whole milliseconds, with the timers that wait on it in the order in which they were
started. Timers come due by deadline, and equal deadlines in the order of their start. No timer
waits longer than thirty years.
-/

namespace CdmaCall

/-- A pending timer: the job it carries is due at `due`. -/
structure Timer (α : Type) where
  id : Nat
  due : Nat
  job : α
  deriving DecidableEq, Repr

/-- The time, and the timers that have neither come due nor been cancelled, oldest first. -/
structure Clock (α : Type) where
  now : Nat := 0
  nextId : Nat := 0
  pending : List (Timer α) := []
  /-- Whether timers can be started at all. -/
  running : Bool := true
  deriving DecidableEq, Repr

namespace Clock

variable {α : Type}

/-- The longest that anything waits: thirty years of 365 days. -/
def longest : Nat := 30 * 365 * 24 * 60 * 60 * 1000

/-- The time that is waited if `delay` is asked for. -/
def bounded (delay : Nat) : Nat := min delay longest

/-- Start a timer that comes due after a delay. -/
def start (c : Clock α) (delay : Nat) (job : α) : Clock α :=
  { c with
    nextId := c.nextId + 1
    pending := c.pending ++ [⟨c.nextId, c.now + bounded delay, job⟩] }

/-- A cancelled timer never comes due. -/
def cancel (c : Clock α) (id : Nat) : Clock α :=
  { c with pending := c.pending.filter (·.id != id) }

/-- The timer with the earliest deadline, the oldest among equals. -/
def earliest? : List (Timer α) → Option (Timer α)
  | [] => none
  | t :: ts =>
    match earliest? ts with
    | none => some t
    | some u => if u.due < t.due then some u else some t

/-- Go to the next deadline up to `limit`, if there is one, and take its timer off. -/
def next? (c : Clock α) (limit : Nat) : Option (α × Clock α) :=
  match earliest? c.pending with
  | none => none
  | some t =>
    if t.due ≤ limit then
      some (t.job, { c.cancel t.id with now := t.due })
    else none

/-- Take off every timer due up to `limit`, in order, and set the clock to `limit`. -/
def takeDue (c : Clock α) (limit : Nat) : List α × Clock α :=
  go c.pending.length c
where
  /-- One timer after the other; there are no more of them than `fuel`. -/
  go : Nat → Clock α → List α × Clock α
    | 0, c => ([], { c with now := limit })
    | fuel + 1, c =>
      match c.next? limit with
      | none => ([], { c with now := limit })
      | some (job, c) => let (jobs, c) := go fuel c; (job :: jobs, c)

end Clock

end CdmaCall
