import CdmaCall.Address
import CdmaCall.Proofs.Text.Letters

/-!
# Addresses are filtered

A scheme consists of letters and ends at a colon, and none of these can be dialled. So whether a
scheme is stripped makes no difference to what is dialled: `Address.dialable_eq_filter`. What an
address comes to is the dialable characters in it, in order (`toList_dialableNumber`), and that is
all that decides whether it is an emergency number (`classifies_iff`).
-/

namespace CdmaCall

section Defs

/-- The characters that can be dialled. -/
def Address.keys : List Char :=
  ['0', '1', '2', '3', '4', '5', '6', '7', '8', '9', '+', '*', '#']

/-- What is left of an address without the characters that cannot be dialled. -/
def Address.dialled (address : String) : List Char :=
  address.toList.filter (· ∈ Address.keys)

end Defs

namespace Address

variable {c : Char} {s scheme rest : List Char}

theorem isDialable_iff_toNat : isDialable c = true ↔
    ((48 ≤ c.toNat ∧ c.toNat ≤ 57 ∨ c.toNat = 43) ∨ c.toNat = 42) ∨ c.toNat = 35 := by
  simp only [isDialable, Bool.or_eq_true, Char.isDigit_iff_toNat, beq_iff_eq, ← Char.toNat_inj,
    Char.reduceToNat]

theorem isDialable_iff : isDialable c = true ↔ c ∈ keys := by
  have hkeys : keys.map Char.toNat = [48, 49, 50, 51, 52, 53, 54, 55, 56, 57, 43, 42, 35] := rfl
  have hinj : Function.Injective Char.toNat := fun _ _ => Char.toNat_inj.1
  rw [isDialable_iff_toNat, ← List.mem_map_of_injective hinj, hkeys]
  simp only [List.mem_cons, List.not_mem_nil, or_false]
  omega

theorem not_isDialable_of_isAlpha (hc : c.isAlpha = true) : isDialable c = false := by
  rw [isAlpha_iff_toNat] at hc
  rw [Bool.eq_false_iff, ne_eq, isDialable_iff_toNat]
  omega

theorem splitColon_eq_some (h : splitColon s = some (scheme, rest)) :
    s = scheme ++ ':' :: rest := by
  induction s generalizing scheme with
  | nil => cases h
  | cons c s ih =>
    rw [splitColon] at h
    split_ifs at h with hc
    · cases h
      rw [beq_iff_eq.1 hc, List.nil_append]
    · obtain ⟨⟨a, b⟩, hsplit, heq⟩ := Option.map_eq_some_iff.1 h
      cases heq
      rw [ih hsplit, List.cons_append]

/-- There is nothing to dial in a scheme. -/
theorem filter_schemeSpecificPart (s : List Char) :
    (schemeSpecificPart s).filter isDialable = s.filter isDialable := by
  unfold schemeSpecificPart
  cases hsplit : splitColon s with
  | none => rfl
  | some parts =>
    obtain ⟨scheme, rest⟩ := parts
    dsimp only
    split_ifs with hscheme
    · have hletters : scheme.filter isDialable = [] := by
        rw [List.filter_eq_nil_iff]
        intro c hc
        rw [Bool.and_eq_true, List.all_eq_true] at hscheme
        rw [not_isDialable_of_isAlpha (hscheme.2 c hc)]
        exact Bool.false_ne_true
      have hcolon : isDialable ':' = false := rfl
      rw [splitColon_eq_some hsplit, List.filter_append, hletters, List.nil_append,
        List.filter_cons_of_neg (by simp [hcolon])]
    · rfl

/-- **To take what can be dialled from an address is to filter it**, with or without its scheme. -/
theorem dialable_eq_filter (s : List Char) : dialable s = s.filter isDialable :=
  filter_schemeSpecificPart s

theorem dialled_eq_filter (a : String) : dialled a = a.toList.filter isDialable :=
  List.filter_congr fun c _ => by rw [Bool.eq_iff_iff, decide_eq_true_iff, isDialable_iff]

theorem toList_dialableNumber (a : String) : (dialableNumber a).toList = dialled a := by
  rw [dialableNumber, String.toList_ofList, dialable_eq_filter, dialled_eq_filter]

theorem dialled_partOf (a : String) : dialled (partOf a) = dialled a := by
  rw [dialled_eq_filter, dialled_eq_filter, partOf, String.toList_ofList,
    filter_schemeSpecificPart]

theorem dialled_append (a b : String) : dialled (a ++ b) = dialled a ++ dialled b := by
  rw [dialled, String.toList_append, List.filter_append, dialled, dialled]

theorem dialled_dialableNumber (a : String) : dialled (dialableNumber a) = dialled a := by
  rw [dialled, toList_dialableNumber, dialled, List.filter_filter]
  simp only [Bool.and_self]

end Address

open Address

/-- An address is an emergency number just if there is something to dial and it spells a listed
number. -/
theorem EmergencyNumbers.classifies_iff {e : EmergencyNumbers} {a : String} :
    e.classifies a = true ↔ dialled a ≠ [] ∧ ∃ n ∈ e.numbers, n.toList = dialled a := by
  have hempty : dialableNumber a = "" ↔ dialled a = [] := by
    rw [← toList_dialableNumber, String.toList_eq_nil_iff]
  have hspells (n : String) : n = dialableNumber a ↔ n.toList = dialled a := by
    rw [← toList_dialableNumber, String.toList_inj]
  simp only [classifies, Bool.and_eq_true, Bool.not_eq_true', List.any_eq_true, beq_iff_eq,
    Bool.eq_false_iff, ne_eq, String.isEmpty_iff, hempty, hspells]

/-- **Normalisation is a plain filter**: the dialable characters of an address in order, whatever
its scheme. It takes texts apart character by character, a second time changes nothing, and
addresses with the same dialable characters are emergency numbers alike. -/
theorem Address.normalised_by_filter :
    (∀ a, (dialableNumber a).toList = dialled a ∧ dialled (partOf a) = dialled a) ∧
    (∀ a b, dialableNumber (a ++ b) = dialableNumber a ++ dialableNumber b) ∧
    (∀ a, dialableNumber (dialableNumber a) = dialableNumber a) ∧
    ∀ (e : EmergencyNumbers) (a b : String), dialled a = dialled b →
      e.classifies a = e.classifies b := by
  refine ⟨fun a => ⟨toList_dialableNumber a, dialled_partOf a⟩, fun a b => ?_, fun a => ?_,
    fun e a b h => ?_⟩
  · rw [← String.toList_inj, String.toList_append]
    simp only [toList_dialableNumber, dialled_append]
  · rw [← String.toList_inj]
    simp only [toList_dialableNumber, dialled_dialableNumber]
  · rw [Bool.eq_iff_iff, EmergencyNumbers.classifies_iff, EmergencyNumbers.classifies_iff, h]

/-- An address with a scheme and separators is an emergency number, as the bare number is. -/
theorem Address.normalised_by_filter_spelled :
    dialled "tel:9-1-1" = dialled "911" ∧
      (EmergencyNumbers.mk ["112", "911"]).classifies "tel:9-1-1" = true := by
  have hsame : dialled "tel:9-1-1" = dialled "911" := by decide +kernel
  refine ⟨hsame, ?_⟩
  rw [Address.normalised_by_filter.2.2.2 ⟨["112", "911"]⟩ "tel:9-1-1" "911" hsame]
  decide +kernel

end CdmaCall
