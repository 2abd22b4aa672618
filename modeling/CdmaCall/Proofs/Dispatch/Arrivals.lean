import CdmaCall.Dispatcher
import CdmaCall.Proofs.Clock
import Mathlib.Algebra.GroupWithZero.Nat

/-!
# What a dispatcher owes for its requests

`Arrives ops x`: the requests `ops` have led to the delivery `x` by their end. It is read off the
requests alone, without a clock, a mailbox or a timer. What one more request adds is what it posts
at once, and the timers that come due within it (`arrives_snoc`).
-/

namespace CdmaCall

namespace Dispatcher

section Defs

/-- By how much a request moves the clock on. -/
def Op.wait : Op → ℕ
  | .advance ms => ms
  | _ => 0

/-- The time after these requests. -/
def elapsed (ops : List Op) : ℕ := (ops.map Op.wait).sum

/-- Whether a request starts a timer. -/
def Op.starts : Op → Bool
  | .postDelayed _ _ => true
  | _ => false

/-- The event that a request posts at once, if any. -/
def Op.posts : Op → Option Event
  | .confirm => some .burstConfirmed
  | .notify => some .lineControl
  | _ => none

/-- How many timers these requests start; the next one gets this number for its handle. -/
def posted (ops : List Op) : ℕ := ops.countP Op.starts

/-- Neither a shutdown nor the closing of the receiver is among these requests. -/
def Open (ops : List Op) : Prop := .shutdown ∉ ops ∧ .dropReceiver ∉ ops

instance (ops : List Op) : Decidable (Open ops) :=
  inferInstanceAs (Decidable (_ ∧ _))

/-- A request that keeps a timer which has not come due from delivering. -/
def Op.Stops (timer : ℕ) (op : Op) : Prop :=
  op = .cancel timer ∨ op = .shutdown ∨ op = .dropReceiver

/-- An event as it is delivered: when, because of which request, and what. -/
structure Arrival where
  time : ℕ
  request : ℕ
  event : Event
  deriving DecidableEq, Repr

/-- Deliveries are ordered by time, and those of one time by their requests. -/
def Arrival.Before (x y : Arrival) : Prop :=
  x.time < y.time ∨ x.time = y.time ∧ x.request < y.request

/-- The delivery is due to these requests, and its time has come by their end. -/
def Arrival.ByThen (before : List Op) (x : Arrival) : Prop :=
  x.request < before.length ∧ x.time ≤ elapsed before

instance (before : List Op) (x : Arrival) : Decidable (x.ByThen before) :=
  inferInstanceAs (Decidable (_ ∧ _))

/-- What a list of requests has delivered by its end, read off the requests alone. -/
inductive Arrives (ops : List Op) : Arrival → Prop
  /-- A confirmation or a line status notification arrives at once if the dispatcher is open. -/
  | post {i : ℕ} {op : Op} {e : Event} (hop : ops[i]? = some op) (hposts : op.posts = some e)
      (hopen : Open (ops.take i)) : Arrives ops ⟨elapsed (ops.take i), i, e⟩
  /-- A timer that was posted while the dispatcher was open delivers when the clock reaches its
  deadline, unless it was stopped before. The deadline is as far off as was asked for, or as far as
  a timer can wait. -/
  | timer {i : ℕ} {e : Event} {delay due : ℕ} (hop : ops[i]? = some (.postDelayed e delay))
      (hopen : Open (ops.take i)) (hdue : due = elapsed (ops.take i) + Clock.bounded delay)
      (hreached : due ≤ elapsed ops)
      (hlive : ∀ j op, i < j → ops[j]? = some op → elapsed (ops.take j) < due →
        ¬op.Stops (posted (ops.take i))) :
      Arrives ops ⟨due, i, e⟩

/-- What a request returns after these ones. -/
def answer (before : List Op) : Op → Reply
  | .postDelayed _ _ => .handle (posted before)
  | .confirm | .notify => .taken (decide (Open before))
  | _ => .done

/-- Request `i` started timer `t`. -/
def Started (ops : List Op) (i : ℕ) (t : Timer Event) : Prop :=
  ∃ e delay, ops[i]? = some (.postDelayed e delay) ∧
    t = ⟨posted (ops.take i), elapsed (ops.take i) + Clock.bounded delay, e⟩

/-- Request `i` started timer `t`, and no later one cancelled it. -/
def Kept (ops : List Op) (i : ℕ) (t : Timer Event) : Prop :=
  Started ops i t ∧ ∀ j, i < j → ops[j]? ≠ some (.cancel t.id)

end Defs

variable {ops before : List Op} {op : Op} {i j : ℕ} {t u : Timer Event} {d : Dispatcher}

/-! ### Counting over requests -/

@[simp] theorem elapsed_append (xs ys : List Op) : elapsed (xs ++ ys) = elapsed xs + elapsed ys := by
  simp [elapsed]

@[simp] theorem posted_append (xs ys : List Op) : posted (xs ++ ys) = posted xs + posted ys := by
  simp [posted]

theorem elapsed_singleton (op : Op) : elapsed [op] = op.wait := by simp [elapsed]

theorem elapsed_mono (h : before <+: ops) : elapsed before ≤ elapsed ops := by
  obtain ⟨rest, rfl⟩ := h
  simp

theorem elapsed_take_le (ops : List Op) (i : ℕ) : elapsed (ops.take i) ≤ elapsed ops :=
  elapsed_mono (List.take_prefix i ops)

theorem open_snoc : Open (ops ++ [op]) ↔ Open ops ∧ op ≠ .shutdown ∧ op ≠ .dropReceiver := by
  unfold Open
  simp only [List.mem_append, List.mem_singleton, not_or, ne_eq, eq_comm (a := op)]
  tauto

theorem getElem?_snoc {α : Type} {xs : List α} {x y : α} :
    (xs ++ [x])[i]? = some y ↔ xs[i]? = some y ∨ i = xs.length ∧ y = x := by
  rw [List.getElem?_append]
  grind

theorem lt_of_getElem? {α : Type} {xs : List α} {x : α} (h : xs[i]? = some x) : i < xs.length :=
  (List.getElem?_eq_some_iff.1 h).1

theorem take_snoc (h : i ≤ ops.length) : (ops ++ [op]).take i = ops.take i :=
  List.take_append_of_le_length h

theorem posted_take_lt {e : Event} {delay : ℕ} (hop : ops[i]? = some (.postDelayed e delay))
    (h : i < j) : posted (ops.take i) < posted (ops.take j) := by
  have hsucc : posted (ops.take (i + 1)) = posted (ops.take i) + 1 := by
    rw [List.take_add_one, hop, posted_append]
    rfl
  have hmono : posted (ops.take (i + 1)) ≤ posted (ops.take j) :=
    (List.take_prefix_take_left h).sublist.countP_le
  omega

/-! ### The timers that were started -/

theorem Started.lt (h : Started ops i t) : i < ops.length := by
  obtain ⟨e, delay, hop, -⟩ := h
  exact lt_of_getElem? hop

theorem Started.id_lt (ht : Started ops i t) (hu : Started ops j u) (h : i < j) : t.id < u.id := by
  obtain ⟨e, delay, hop, rfl⟩ := ht
  obtain ⟨-, -, -, rfl⟩ := hu
  exact posted_take_lt hop h

theorem Started.lt_of_id (ht : Started ops i t) (hu : Started ops j u) (h : t.id < u.id) :
    i < j := by
  rcases Nat.lt_trichotomy i j with hlt | rfl | hgt
  · exact hlt
  · obtain ⟨e, delay, -, rfl⟩ := ht
    obtain ⟨e', delay', -, rfl⟩ := hu
    exact absurd h (Nat.lt_irrefl _)
  · exact absurd (hu.id_lt ht hgt) (Nat.lt_asymm h)

theorem Started.unique (ht : Started ops i t) (hu : Started ops j t) : i = j := by
  rcases Nat.lt_trichotomy i j with hlt | rfl | hgt
  · exact absurd (ht.id_lt hu hlt) (Nat.lt_irrefl _)
  · rfl
  · exact absurd (hu.id_lt ht hgt) (Nat.lt_irrefl _)

theorem started_snoc : Started (ops ++ [op]) i t ↔ Started ops i t ∨
    i = ops.length ∧ ∃ e delay, op = .postDelayed e delay ∧
      t = ⟨posted ops, elapsed ops + Clock.bounded delay, e⟩ := by
  constructor
  · rintro ⟨e, delay, hop, rfl⟩
    rcases getElem?_snoc.1 hop with hold | ⟨rfl, hnew⟩
    · exact .inl ⟨e, delay, hold, by rw [take_snoc (Nat.le_of_lt (lt_of_getElem? hold))]⟩
    · exact .inr ⟨rfl, e, delay, hnew.symm, by rw [List.take_left]⟩
  · rintro (⟨e, delay, hop, rfl⟩ | ⟨rfl, e, delay, rfl, rfl⟩)
    · exact ⟨e, delay, getElem?_snoc.2 (.inl hop), by rw [take_snoc (Nat.le_of_lt (lt_of_getElem? hop))]⟩
    · exact ⟨e, delay, getElem?_snoc.2 (.inr ⟨rfl, rfl⟩),
        by rw [List.take_left]⟩

theorem kept_snoc : Kept (ops ++ [op]) i t ↔ Kept ops i t ∧ op ≠ .cancel t.id ∨
    i = ops.length ∧ ∃ e delay, op = .postDelayed e delay ∧
      t = ⟨posted ops, elapsed ops + Clock.bounded delay, e⟩ := by
  unfold Kept
  rw [started_snoc]
  constructor
  · rintro ⟨hold | hnew, hlater⟩
    · refine .inl ⟨⟨hold, fun j hj hcancel => hlater j hj (getElem?_snoc.2 (.inl hcancel))⟩, ?_⟩
      exact fun hcancel => hlater _ hold.lt (getElem?_snoc.2 (.inr ⟨rfl, hcancel.symm⟩))
    · exact .inr hnew
  · rintro (⟨⟨hold, hlater⟩, hop⟩ | hnew)
    · refine ⟨.inl hold, fun j hj hcancel => ?_⟩
      rcases getElem?_snoc.1 hcancel with hearlier | ⟨-, hlast⟩
      · exact hlater j hj hearlier
      · exact hop hlast.symm
    · refine ⟨.inr hnew, fun j hj hcancel => ?_⟩
      have hlen := lt_of_getElem? hcancel
      rw [List.length_append, List.length_singleton] at hlen
      have hi := hnew.1
      omega

/-- A timer still to come when a request is made, or started by it, is not due before it. -/
theorem Kept.late (h : Kept (ops ++ [op]) i t) (hlate : elapsed ops < t.due ∨ i = ops.length) :
    elapsed ops < t.due ∨ elapsed ops = t.due ∧ i = ops.length := by
  rcases hlate with hlate | rfl
  · exact .inl hlate
  · rcases kept_snoc.1 h with ⟨hold, -⟩ | ⟨-, e, delay, -, rfl⟩
    · exact absurd hold.1.lt (Nat.lt_irrefl _)
    · exact (Nat.lt_or_eq_of_le (Nat.le_add_right ..)).imp_right fun heq => ⟨heq, rfl⟩

/-- Only a request that starts a timer adds one to those that are still to come. -/
theorem Kept.late_of_not_starts (h : Kept (ops ++ [op]) i t) (hop : op.starts = false)
    (hlate : elapsed ops < t.due ∨ i = ops.length) : elapsed ops < t.due := by
  rcases kept_snoc.1 h with ⟨hold, -⟩ | ⟨-, e, delay, rfl, -⟩
  · exact hlate.resolve_right (Nat.ne_of_lt hold.1.lt)
  · cases hop

/-! ### What one more request delivers -/

theorem Open.prefix (h : Open ops) (hb : before <+: ops) : Open before :=
  ⟨fun hmem => h.1 (hb.subset hmem), fun hmem => h.2 (hb.subset hmem)⟩

/-- An open dispatcher is one that no request has closed. -/
theorem open_of_getElem?
    (h : ∀ (j : ℕ) (op : Op), ops[j]? = some op → op ≠ .shutdown ∧ op ≠ .dropReceiver) :
    Open ops := by
  refine ⟨fun hmem => ?_, fun hmem => ?_⟩ <;> obtain ⟨j, hj⟩ := List.getElem?_of_mem hmem
  · exact (h j _ hj).1 rfl
  · exact (h j _ hj).2 rfl

theorem Arrives.snoc {x : Arrival} (h : Arrives ops x) (op : Op) : Arrives (ops ++ [op]) x := by
  cases h with
  | post hop hposts hopen =>
    have htake : (ops ++ [op]).take _ = ops.take _ := take_snoc (Nat.le_of_lt (lt_of_getElem? hop))
    rw [← htake] at hopen ⊢
    exact .post (getElem?_snoc.2 (.inl hop)) hposts hopen
  | timer hop hopen hdue hreached hlive =>
    have hlen := Nat.le_of_lt (lt_of_getElem? hop)
    refine .timer (getElem?_snoc.2 (.inl hop)) (by rwa [take_snoc hlen])
      (by rwa [take_snoc hlen]) (Nat.le_trans hreached (by simp)) fun j op' hij hj hlt => ?_
    rw [take_snoc hlen]
    rcases getElem?_snoc.1 hj with hold | ⟨rfl, -⟩
    · rw [take_snoc (Nat.le_of_lt (lt_of_getElem? hold))] at hlt
      exact hlive j op' hij hold hlt
    · -- the deadline was reached before this request
      rw [List.take_left] at hlt
      omega

/-- A timer still to come when a request is made, or started by it, is delivered within the request
if its deadline is reached there. -/
theorem Arrives.of_kept (hopen : Open ops) (hkept : Kept (ops ++ [op]) i t)
    (hlate : elapsed ops < t.due ∨ i = ops.length) (hreached : t.due ≤ elapsed (ops ++ [op])) :
    Arrives (ops ++ [op]) ⟨t.due, i, t.job⟩ := by
  obtain ⟨hstart, hlater⟩ := hkept
  have hi : i ≤ ops.length := by
    have := hstart.lt
    rw [List.length_append, List.length_singleton] at this
    omega
  obtain ⟨e, delay, hop, rfl⟩ := hstart
  refine .timer hop (by rw [take_snoc hi]; exact hopen.prefix (List.take_prefix _ _)) rfl hreached
    fun j op' hij hj hlt => ?_
  rintro (rfl | hclose)
  · exact hlater j hij hj
  · rcases getElem?_snoc.1 hj with hold | ⟨rfl, rfl⟩
    · rcases hclose with rfl | rfl
      · exact hopen.1 (List.mem_of_getElem? hold)
      · exact hopen.2 (List.mem_of_getElem? hold)
    · -- closing takes no time
      have hwait : op'.wait = 0 := by rcases hclose with rfl | rfl <;> rfl
      rw [elapsed_append, elapsed_singleton, hwait] at hreached
      rw [List.take_left] at hlt
      exact Nat.lt_irrefl _ (Nat.lt_of_lt_of_le hlt hreached)

theorem arrives_snoc {x : Arrival} : Arrives (ops ++ [op]) x ↔
    Arrives ops x ∨
    (∃ e, op.posts = some e ∧ Open ops ∧ x = ⟨elapsed ops, ops.length, e⟩) ∨
    Open ops ∧ ∃ i t, Kept (ops ++ [op]) i t ∧ (elapsed ops < t.due ∨ i = ops.length) ∧
      t.due ≤ elapsed (ops ++ [op]) ∧ x = ⟨t.due, i, t.job⟩ := by
  constructor
  · intro h
    cases h with
    | @post i op' e hop hposts hopen =>
      rcases getElem?_snoc.1 hop with hold | ⟨rfl, rfl⟩
      · rw [take_snoc (Nat.le_of_lt (lt_of_getElem? hold))] at hopen ⊢
        exact .inl (.post hold hposts hopen)
      · rw [List.take_left] at hopen ⊢
        exact .inr (.inl ⟨e, hposts, hopen, rfl⟩)
    | @timer i e delay due hop hopen hdue hreached hlive =>
      rcases getElem?_snoc.1 hop with hold | ⟨rfl, rfl⟩
      · have hi := lt_of_getElem? hold
        rw [take_snoc (Nat.le_of_lt hi)] at hopen hdue hlive
        by_cases hearly : due ≤ elapsed ops
        · refine .inl (.timer hold hopen hdue hearly fun j op' hij hj hlt => ?_)
          refine hlive j op' hij (getElem?_snoc.2 (.inl hj)) ?_
          rwa [take_snoc (Nat.le_of_lt (lt_of_getElem? hj))]
        · have hlate : elapsed ops < due := Nat.lt_of_not_le hearly
          -- until this request nothing can have stopped the timer
          have hnone : ∀ j op', i < j → (ops ++ [op])[j]? = some op' →
              ¬op'.Stops (posted (ops.take i)) := by
            intro j op' hij hj
            refine hlive j op' hij hj (Nat.lt_of_le_of_lt ?_ hlate)
            have hj' := lt_of_getElem? hj
            rw [List.length_append, List.length_singleton] at hj'
            rw [take_snoc (Nat.le_of_lt_succ hj')]
            exact elapsed_take_le ops j
          refine .inr (.inr ⟨open_of_getElem? fun j op' hj => ?_, i,
            ⟨posted (ops.take i), due, e⟩, ⟨?_, fun j hij hj => ?_⟩, .inl hlate, hreached, rfl⟩)
          · rcases Nat.lt_trichotomy j i with hlt | rfl | hgt
            · have hmem : op' ∈ ops.take i := by
                refine List.mem_of_getElem? (i := j) ?_
                rwa [List.getElem?_take_of_lt hlt]
              exact ⟨fun h => hopen.1 (h ▸ hmem), fun h => hopen.2 (h ▸ hmem)⟩
            · obtain rfl := Option.some.inj (hj.symm.trans hold)
              exact ⟨by simp, by simp⟩
            · have hstop := hnone j op' hgt (getElem?_snoc.2 (.inl hj))
              exact ⟨fun h => hstop (.inr (.inl h)), fun h => hstop (.inr (.inr h))⟩
          · exact started_snoc.2 (.inl ⟨e, delay, hold, by rw [hdue]⟩)
          · exact hnone j _ hij hj (.inl rfl)
      · rw [List.take_left] at hopen hdue
        exact .inr (.inr ⟨hopen, _, ⟨posted ops, due, e⟩,
          kept_snoc.2 (.inr ⟨rfl, e, delay, rfl, by rw [hdue]⟩), .inr rfl, hreached, rfl⟩)
  · rintro (hold | ⟨e, hposts, hopen, rfl⟩ | ⟨hopen, i, t, hkept, hlate, hreached, rfl⟩)
    · exact hold.snoc op
    · have harrives : Arrives (ops ++ [op]) ⟨elapsed ((ops ++ [op]).take ops.length), _, e⟩ :=
        .post (getElem?_snoc.2 (.inr ⟨rfl, rfl⟩)) hposts (by rwa [List.take_left])
      rwa [List.take_left] at harrives
    · exact .of_kept hopen hkept hlate hreached

end Dispatcher

end CdmaCall
