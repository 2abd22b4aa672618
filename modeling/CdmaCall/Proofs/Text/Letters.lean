import CdmaCall.Text.Fold
import Mathlib.Data.List.Basic
import Mathlib.Tactic.SplitIfs

/-!
# Letters, whatever their case

Letters and digits are ranges of code points, and small forms of letters are letters
(`isAlpha_toLower`). So a text without letters is no word in whatever case (`lower_ne_word`). Beyond
ASCII, folding agrees with the small form of ASCII letters for every word that has none of the letters
that stand in the small forms of other signs (`Text.fold_eq_iff`).
-/

namespace CdmaCall

/-! ### Letters and digits -/

section Letters

variable {c : Char}

theorem isAlpha_iff_toNat : c.isAlpha = true ↔
    65 ≤ c.toNat ∧ c.toNat ≤ 90 ∨ 97 ≤ c.toNat ∧ c.toNat ≤ 122 := by
  have hranges : c.isAlpha = (decide (65 ≤ c.toNat ∧ c.toNat ≤ 90) ||
      decide (97 ≤ c.toNat) && decide (c.toNat ≤ 122)) := rfl
  rw [hranges]
  simp only [Bool.or_eq_true, Bool.and_eq_true, decide_eq_true_eq]

theorem toNat_toLower (c : Char) :
    c.toLower.toNat = if 65 ≤ c.toNat ∧ c.toNat ≤ 90 then c.toNat + 32 else c.toNat := by
  have hbounds : (c.val ≥ 'A'.val ∧ c.val ≤ 'Z'.val) ↔ 65 ≤ c.toNat ∧ c.toNat ≤ 90 := Iff.rfl
  unfold Char.toLower
  simp only [hbounds]
  split_ifs with h
  · have hval : (c.val + ('a'.val - 'A'.val)).toNat = (c.toNat + 32) % 2 ^ 32 :=
      UInt32.toNat_add ..
    show (c.val + ('a'.val - 'A'.val)).toNat = _
    omega
  · rfl

theorem isAlpha_toLower (c : Char) : c.toLower.isAlpha = c.isAlpha := by
  rw [Bool.eq_iff_iff, isAlpha_iff_toNat, isAlpha_iff_toNat, toNat_toLower]
  split_ifs <;> omega

theorem isAlpha_of_isDigit (h : c.isDigit = true) : c.isAlpha = false := by
  rw [Char.isDigit_iff_toNat] at h
  rw [Bool.eq_false_iff, ne_eq, isAlpha_iff_toNat]
  simp only [Char.reduceToNat] at h
  omega

theorem isDigit_of_isAlpha (h : c.isAlpha = true) : c.isDigit = false := by
  rw [Bool.eq_false_iff]
  intro hdigit
  rw [isAlpha_of_isDigit hdigit] at h
  cases h

theorem toList_toLower (s : String) : s.toLower.toList = s.toList.map Char.toLower :=
  String.toList_map

theorem ofList_map_toLower (s : String) :
    String.ofList (s.toList.map Char.toLower) = s.toLower := by
  rw [← toList_toLower, String.ofList_toList]

/-- A text without letters is no word, whatever the case. -/
theorem lower_ne_word {s : List Char} {w : String} (hs : ∀ c ∈ s, c.isAlpha = false)
    (hw : w.toList.any Char.isAlpha = true) : (String.ofList (s.map Char.toLower) == w) = false := by
  rw [beq_eq_false_iff_ne]
  rintro rfl
  obtain ⟨d, hd, hletter⟩ := List.any_eq_true.1 hw
  rw [String.toList_ofList, List.mem_map] at hd
  obtain ⟨c, hc, rfl⟩ := hd
  rw [isAlpha_toLower, hs c hc] at hletter
  cases hletter

end Letters

/-! ### Folding -/

namespace Text

/-- In a text without the letters that only the small forms of other signs have, folding is the
small form of ASCII letters. -/
theorem flatMap_foldChar_eq_iff {s w : List Char}
    (hw : ∀ c ∈ w, c ∉ ['k', '\u0307', '\u212a', '\u0130']) :
    s.flatMap foldChar = w ↔ s.map Char.toLower = w := by
  have hkelvin : Char.toLower '\u212a' = '\u212a' := by decide
  have hdotted : Char.toLower '\u0130' = '\u0130' := by decide
  induction s generalizing w with
  | nil => rfl
  | cons c s ih =>
    rw [List.flatMap_cons, List.map_cons]
    by_cases hk : c = '\u212a'
    · subst hk
      constructor <;> rintro rfl
      · exact absurd (hw 'k' (by simp [foldChar])) (by decide)
      · exact absurd (hw '\u212a' (by simp [hkelvin])) (by decide)
    · by_cases hi : c = '\u0130'
      · subst hi
        constructor <;> rintro rfl
        · exact absurd (hw '\u0307' (by simp [foldChar])) (by decide)
        · exact absurd (hw '\u0130' (by simp [hdotted])) (by decide)
      · have hplain : foldChar c = [c.toLower] := by simp [foldChar, hk, hi]
        rw [hplain, List.singleton_append]
        cases w with
        | nil => simp
        | cons d w =>
          have hrest := ih (w := w) fun c hc => hw c (List.mem_cons_of_mem d hc)
          simp only [List.cons.injEq, hrest]

theorem fold_eq_iff {s w : String}
    (hw : w.toList.all (· ∉ ['k', '\u0307', '\u212a', '\u0130']) = true) :
    fold s = w ↔ s.toLower = w := by
  have hplain : ∀ c ∈ w.toList, c ∉ ['k', '\u0307', '\u212a', '\u0130'] := fun c hc =>
    of_decide_eq_true (List.all_eq_true.1 hw c hc)
  rw [← String.toList_inj, ← String.toList_inj, fold, String.toList_ofList, toList_toLower,
    flatMap_foldChar_eq_iff hplain]

end Text

end CdmaCall
