import CdmaCall.Number.Double
import CdmaCall.Proofs.Text.Letters
import Mathlib.Data.List.TakeWhile
import Mathlib.Tactic.ByContra

/-!
# Numerals

A numeral is one or more digits (`Double.Digits`) behind a sign or none, and it is read as a whole
number (`parse_of_digits`). A text without letters and points that is no numeral is no number at all
(`parse_eq_none_of_plain`), and neither is a text that begins with a letter, unless it is one of the
three words for infinity and not a number (`parse_eq_none_of_letter`).

The decimal form of a natural number is a numeral that stands for it (`digitsValue_repr`).
-/

namespace CdmaCall

section Defs

/-- One or more digits. -/
def Double.Digits (ds : List Char) : Prop := ds ≠ [] ∧ ∀ d ∈ ds, d.isDigit = true

instance (ds : List Char) : Decidable (Double.Digits ds) :=
  haveI := List.decidableBAll (·.isDigit = true) ds
  instDecidableAnd

/-- One or more digits, perhaps with a plus sign in front. -/
def Double.Numeral (s : List Char) : Prop := ∃ ds, Digits ds ∧ (s = ds ∨ s = '+' :: ds)

/-- No letters and no point: the characters of such a text are signs, digits and separators. -/
def Double.Plain (s : List Char) : Prop := ∀ c ∈ s, c.isAlpha = false ∧ c ≠ '.'

end Defs

namespace Double

variable {s ds : List Char} {c : Char} {t : String}

/-! ### Signs and digits -/

theorem Digits.plain (h : Digits ds) : Plain ds := fun d hd => by
  refine ⟨isAlpha_of_isDigit (h.2 d hd), ?_⟩
  rintro rfl
  exact absurd (h.2 _ hd) (by decide)

theorem Numeral.mem (h : Numeral s) (hc : c ∈ s) : c = '+' ∨ c.isDigit = true := by
  obtain ⟨ds, hds, rfl | rfl⟩ := h
  · exact .inr (hds.2 c hc)
  · exact (List.mem_cons.1 hc).imp_right (hds.2 c)

theorem splitSign_of_ne (hminus : c ≠ '-') (hplus : c ≠ '+') :
    splitSign (c :: s) = (false, c :: s) := by
  rw [splitSign]
  · exact fun r h => hminus (List.cons.inj h).1
  · exact fun r h => hplus (List.cons.inj h).1

theorem splitSign_of_letter (h : c.isAlpha = true) : splitSign (c :: s) = (false, c :: s) := by
  refine splitSign_of_ne ?_ ?_ <;> rintro rfl <;> cases h

theorem splitSign_of_digits (h : Digits ds) : splitSign ds = (false, ds) := by
  cases ds with
  | nil => exact absurd rfl h.1
  | cons d ds =>
    have hd := h.2 d List.mem_cons_self
    refine splitSign_of_ne ?_ ?_ <;> rintro rfl <;> cases hd

theorem mem_of_mem_splitSign (h : c ∈ (splitSign s).2) : c ∈ s := by
  unfold splitSign at h
  split at h
  · exact List.mem_cons_of_mem _ h
  · exact List.mem_cons_of_mem _ h
  · exact h

/-- Digits after a sign are the rest of the text, or all of it if there is no sign. -/
theorem digits_splitSign_iff (hminus : '-' ∉ s) :
    Digits (splitSign s).2 ↔ Numeral s := by
  constructor
  · intro h
    refine ⟨_, h, ?_⟩
    unfold splitSign
    split
    · exact absurd List.mem_cons_self hminus
    · exact .inr rfl
    · exact .inl rfl
  · rintro ⟨ds, h, rfl | rfl⟩
    · rwa [splitSign_of_digits h]
    · exact h

theorem exponentPart_eq_none (hletter : c.isAlpha = false) : exponentPart (c :: s) = none := by
  have he : (c == 'e') = false := beq_eq_false_iff_ne.2 fun h => by simp [h] at hletter
  have hE : (c == 'E') = false := beq_eq_false_iff_ne.2 fun h => by simp [h] at hletter
  simp [exponentPart, he, hE]

/-! ### Texts that are read, and texts that are not -/

/-- **Digits are read as a whole number.** -/
theorem parse_of_digits (h : Digits (splitSign t.toList).2) :
    parse t = some (ofDecimal (splitSign t.toList).1 (digitsValue (splitSign t.toList).2) 0) := by
  generalize hsplit : splitSign t.toList = sb at h
  obtain ⟨negative, ds⟩ := sb
  have hletters : ∀ c ∈ ds, c.isAlpha = false := fun c hc => (h.plain c hc).1
  have hinf := lower_ne_word (w := "inf") hletters (by decide +kernel)
  have hinfinity := lower_ne_word (w := "infinity") hletters (by decide +kernel)
  have hnan := lower_ne_word (w := "nan") hletters (by decide +kernel)
  have hspan : spanDigits ds = (ds, []) := by
    rw [spanDigits, List.takeWhile_eq_self_iff.2 h.2, List.dropWhile_eq_nil_iff.2 h.2]
  have hsome : ds.isEmpty = false := by
    rw [List.isEmpty_eq_false_iff]
    exact h.1
  simp only [parse, hsplit, hinf, hinfinity, hnan, hspan, hsome, Bool.or_self, Bool.false_and,
    Bool.false_eq_true, if_false, List.append_nil, exponentPart, Option.map_some, List.length_nil]
  rfl

/-- **Without letters and points only digits are read.** -/
theorem parse_eq_none_of_plain (hplain : Plain t.toList) (h : ¬Digits (splitSign t.toList).2) :
    parse t = none := by
  have hbody : ∀ c ∈ (splitSign t.toList).2, c.isAlpha = false ∧ c ≠ '.' :=
    fun c hc => hplain c (mem_of_mem_splitSign hc)
  generalize hsplit : splitSign t.toList = sb at h hbody
  obtain ⟨negative, s⟩ := sb
  have hletters : ∀ c ∈ s, c.isAlpha = false := fun c hc => (hbody c hc).1
  have hinf := lower_ne_word (w := "inf") hletters (by decide +kernel)
  have hinfinity := lower_ne_word (w := "infinity") hletters (by decide +kernel)
  have hnan := lower_ne_word (w := "nan") hletters (by decide +kernel)
  simp only [parse, hsplit, hinf, hinfinity, hnan, Bool.or_self, Bool.false_eq_true, if_false,
    spanDigits]
  cases hrest : s.dropWhile Char.isDigit with
  | nil =>
    have hempty : s = [] := by
      by_contra hne
      exact h ⟨hne, List.dropWhile_eq_nil_iff.1 hrest⟩
    subst hempty
    rfl
  | cons c rest =>
    have hc : c ∈ s := (List.dropWhile_suffix _).subset (hrest ▸ List.mem_cons_self)
    have hexponent : exponentPart (c :: rest) = none := exponentPart_eq_none (hletters c hc)
    split
    · rename_i heq
      exact absurd (List.cons.inj heq).1 (hbody c hc).2
    · simp [hexponent]

/-- **A word is no number**, but for those for infinity and not a number. -/
theorem parse_eq_none_of_letter (ht : t.toList = c :: s) (hletter : c.isAlpha = true)
    (hword : t.toLower ∉ ["inf", "infinity", "nan"]) : parse t = none := by
  have hsplit : splitSign t.toList = (false, c :: s) := by
    rw [ht, splitSign_of_letter hletter]
  have hlower : String.ofList ((c :: s).map Char.toLower) = t.toLower := by
    rw [← ht, ofList_map_toLower]
  simp only [List.mem_cons, List.not_mem_nil, or_false, not_or] at hword
  have hdigit : c.isDigit = false := isDigit_of_isAlpha hletter
  have hpoint : c ≠ '.' := by
    rintro rfl
    cases hletter
  simp only [parse, hsplit, hlower, beq_eq_false_iff_ne.2 hword.1, beq_eq_false_iff_ne.2 hword.2.1,
    beq_eq_false_iff_ne.2 hword.2.2, Bool.or_self, Bool.false_eq_true, if_false, spanDigits,
    List.takeWhile_cons, List.dropWhile_cons, hdigit]
  split
  · rename_i heq
    exact absurd (List.cons.inj heq).1 hpoint
  · rfl

/-! ### Decimal forms -/

theorem digits_repr (n : Nat) : Digits n.repr.toList := by
  rw [Nat.toList_repr]
  exact ⟨Nat.toDigits_ne_nil, fun d hd => Nat.isDigit_of_mem_toDigits (by decide) (by decide) hd⟩

theorem digitsValue_repr (n : Nat) : digitsValue n.repr.toList = n := by
  rw [Nat.toList_repr]
  exact Nat.ofDigitChars_ten_toDigits

end Double

end CdmaCall
