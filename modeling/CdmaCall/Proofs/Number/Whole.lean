import CdmaCall.Number.Double
import Mathlib.Tactic.SplitIfs

/-!
# Whole numbers in binary64

Whole numbers are rounded like all others, on a grid that only depends on how many bits they have:
scaling a number by a power of two scales what it is rounded to (`roundUnits_mul_twoPow`). So a whole
number below `2 ^ 64` is read as the units of the number it is rounded to (`ofDecimal_whole`) and
comes back as that number (`toNatClamped_whole`). From `2 ^ 63` on the grid has a step of 2048
(`roundUnits_word`).
-/

namespace CdmaCall

namespace Double

variable {n k : Nat}

/-! ### Powers and bits -/

theorem twoPow_add (a b : Nat) : twoPow (a + b) = twoPow a * twoPow b := Nat.pow_add 2 a b

theorem twoPow_pos (a : Nat) : 0 < twoPow a := Nat.pow_pos (Nat.succ_pos 1)

theorem twoPow_le {a b : Nat} (h : a ≤ b) : twoPow a ≤ twoPow b :=
  Nat.pow_le_pow_right (Nat.succ_pos 1) h

theorem twoPow_lt {a b : Nat} (h : a < b) : twoPow a < twoPow b :=
  Nat.pow_lt_pow_right (Nat.lt_succ_self 1) h

theorem bitLength_mul_twoPow (hn : n ≠ 0) (k : Nat) :
    bitLength (n * twoPow k) = bitLength n + k := by
  have hlog (k : Nat) : (n * twoPow k).log2 = n.log2 + k := by
    induction k with
    | zero => rw [show twoPow 0 = 1 from rfl, Nat.mul_one, Nat.add_zero]
    | succ k ih =>
      have hpos : n * twoPow k ≠ 0 := Nat.mul_ne_zero hn (Nat.ne_of_gt (twoPow_pos k))
      rw [twoPow_add, show twoPow 1 = 2 from rfl, ← Nat.mul_assoc, Nat.mul_comm _ 2,
        Nat.log2_two_mul hpos, ih, Nat.add_assoc]
  have hpos : n * twoPow k ≠ 0 := Nat.mul_ne_zero hn (Nat.ne_of_gt (twoPow_pos k))
  rw [bitLength, bitLength, if_neg hpos, if_neg hn, hlog]
  omega

/-- The spare bits weigh no more than the number. -/
theorem twoPow_spareBits_le (hn : n ≠ 0) : twoPow (spareBits n) ≤ n := by
  refine Nat.le_trans (twoPow_le ?_) (Nat.log2_self_le hn)
  rw [spareBits, bitLength, if_neg hn, precision]
  omega

/-! ### Rounding -/

theorem divNearest_mul_right (num den : Nat) (hk : 0 < k) :
    divNearest (num * k) (den * k) = divNearest num den := by
  have hlow : 2 * (num % den * k) < den * k ↔ 2 * (num % den) < den := by
    rw [← Nat.mul_assoc, Nat.mul_lt_mul_right hk]
  have hhigh : den * k < 2 * (num % den * k) ↔ den < 2 * (num % den) := by
    rw [← Nat.mul_assoc, Nat.mul_lt_mul_right hk]
  simp only [divNearest, Nat.mul_div_mul_right _ _ hk, Nat.mul_mod_mul_right, hlow, hhigh]

theorem divNearest_self (n : Nat) (hk : 0 < k) : divNearest (n * k) k = n := by
  rw [divNearest, Nat.mul_mod_left, Nat.mul_div_cancel n hk, if_pos (by simpa using hk)]

theorem divNearest_le (num den : Nat) : divNearest num den ≤ num / den + 1 := by
  dsimp only [divNearest]
  split_ifs <;> omega

theorem roundUnits_one (n : Nat) :
    roundUnits n 1 = divNearest n (twoPow (spareBits n)) * twoPow (spareBits n) := by
  rw [roundUnits, Nat.div_one, Nat.one_mul]

/-- Numbers with no more bits than the precision are kept. -/
theorem roundUnits_of_spareBits (h : spareBits n = 0) : roundUnits n 1 = n := by
  have hone := divNearest_self n (Nat.succ_pos 0)
  rw [Nat.mul_one] at hone
  rw [roundUnits_one, h, show twoPow 0 = 1 from rfl, Nat.mul_one, hone]

/-- **A power of two scales what a number is rounded to.** -/
theorem roundUnits_mul_twoPow (n k : Nat) :
    roundUnits (n * twoPow k) 1 = roundUnits n 1 * twoPow k := by
  by_cases hn : n = 0
  · rw [hn, Nat.zero_mul, show roundUnits 0 1 = 0 from rfl, Nat.zero_mul]
  have hbits : spareBits (n * twoPow k) = bitLength n + k - precision := by
    rw [spareBits, bitLength_mul_twoPow hn]
  rw [roundUnits_one (n * twoPow k), hbits]
  by_cases hspare : spareBits n = 0
  · -- The step divides the power of two, so nothing is lost on either side.
    obtain ⟨m, hm⟩ : ∃ m, k = m + (bitLength n + k - precision) := by
      rw [spareBits] at hspare
      exact ⟨k - (bitLength n + k - precision), by omega⟩
    rw [roundUnits_of_spareBits hspare]
    generalize bitLength n + k - precision = s at hm
    subst hm
    rw [twoPow_add, ← Nat.mul_assoc, divNearest_self _ (twoPow_pos s)]
  · have hshift : bitLength n + k - precision = spareBits n + k := by
      rw [spareBits] at hspare ⊢
      omega
    rw [hshift, twoPow_add, divNearest_mul_right _ _ (twoPow_pos k), roundUnits_one, Nat.mul_assoc]

theorem roundUnits_le (n : Nat) : roundUnits n 1 ≤ 2 * n := by
  by_cases hn : n = 0
  · exact hn ▸ Nat.le_refl 0
  rw [roundUnits_one]
  have hstep := twoPow_spareBits_le hn
  calc divNearest n (twoPow (spareBits n)) * twoPow (spareBits n)
      ≤ (n / twoPow (spareBits n) + 1) * twoPow (spareBits n) :=
        Nat.mul_le_mul_right _ (divNearest_le _ _)
    _ = n / twoPow (spareBits n) * twoPow (spareBits n) + twoPow (spareBits n) := by
        rw [Nat.add_mul, Nat.one_mul]
    _ ≤ n + n := Nat.add_le_add (Nat.div_mul_le_self _ _) hstep
    _ = 2 * n := (Nat.two_mul n).symm

/-! ### Whole numbers of 64 bits -/

theorem digitCount_le (h : n < UInt64.size) : digitCount n ≤ 20 := by
  rw [digitCount]
  split_ifs
  · exact Nat.zero_le 20
  · exact (Nat.length_toDigits_le_iff (by decide) (by decide)).2 (Nat.lt_trans h (by decide))

/-- A whole number is read as the units of what it is rounded to. -/
theorem ofDecimal_whole (hn : n ≠ 0) (h : n < UInt64.size) :
    ofDecimal false n 0 = finite false (roundUnits n 1 * twoPow unitBits) := by
  have hcount := digitCount_le h
  have hsmall : ¬(n = 0 ∨ (digitCount n : Int) + 0 < -400) := by omega
  have hlarge : ¬(400 < (digitCount n : Int) + 0) := by omega
  have hunits : roundUnits (n * tenPow (0 : Int).toNat * twoPow unitBits) 1 =
      roundUnits n 1 * twoPow unitBits := by
    rw [show tenPow (0 : Int).toNat = 1 from rfl, Nat.mul_one, roundUnits_mul_twoPow]
  have hfinite : ¬overflow ≤ roundUnits n 1 * twoPow unitBits := by
    rw [overflow, twoPow_add, Nat.not_le]
    refine Nat.mul_lt_mul_of_pos_right ?_ (twoPow_pos _)
    calc roundUnits n 1 ≤ 2 * n := roundUnits_le n
      _ < twoPow 65 := by
        rw [show twoPow 65 = 2 * UInt64.size from rfl]
        omega
      _ ≤ twoPow 1024 := twoPow_le (by decide)
  rw [ofDecimal, if_neg hsmall, if_neg hlarge, if_pos (Int.le_refl 0), hunits, ofUnits,
    if_neg hfinite]

/-- What lies on a whole number comes back as that number. -/
theorem toNatClamped_whole (limit n : Nat) :
    toNatClamped limit (finite false (n * twoPow unitBits)) = min limit n := by
  have hhalf : twoPow (unitBits - 1) < twoPow unitBits := twoPow_lt (by decide)
  have hwhole : (n * twoPow unitBits + twoPow (unitBits - 1)) / twoPow unitBits = n := by
    rw [Nat.add_comm, Nat.add_mul_div_right _ _ (twoPow_pos _), Nat.div_eq_of_lt hhalf,
      Nat.zero_add]
  rw [toNatClamped, if_neg Bool.false_ne_true, hwhole]

/-- In the upper half of the numbers of 64 bits the grid has a step of 2048. -/
theorem roundUnits_word (hlow : UInt64.size / 2 ≤ n) (hhigh : n < UInt64.size) :
    roundUnits n 1 = divNearest n 2048 * 2048 := by
  have hn : n ≠ 0 := by
    rintro rfl
    exact absurd hlow (by decide)
  have hlog : n.log2 = 63 := (Nat.log2_eq_iff hn).2 ⟨hlow, hhigh⟩
  have hspare : spareBits n = 11 := by rw [spareBits, bitLength, if_neg hn, hlog]; rfl
  rw [roundUnits_one, hspare, show twoPow 11 = 2048 from rfl]

/-- There a number is kept just if it lies on the grid, or if it is the last one: that is rounded up
and cut down again. -/
theorem min_roundUnits_word_iff (hlow : UInt64.size / 2 ≤ n) (hhigh : n < UInt64.size) :
    min (UInt64.size - 1) (roundUnits n 1) = n ↔ n % 2048 = 0 ∨ n = UInt64.size - 1 := by
  rw [roundUnits_word hlow hhigh]
  simp only [UInt64.size] at *
  dsimp only [divNearest]
  split_ifs <;> omega

end Double

end CdmaCall
