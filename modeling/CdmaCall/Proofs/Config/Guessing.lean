import CdmaCall.Config.Environment
import CdmaCall.Proofs.Config.Validation
import CdmaCall.Proofs.Number.Numeral
import CdmaCall.Proofs.Number.Whole

/-!
# What the text of a variable is taken for

The value of a variable is guessed before it is known which field it is for. A field of text that
gets a flag or a number takes the text of that, which need not be the text that was written
(`echo`): just those texts come back that no guess touches, and those that a flag or a number is
written as (`echo_eq_iff`). A natural number comes back if it is below `2 ^ 63`; from there on it is
guessed to be a binary64 number and rounded (`scalarNat_guess_natural`). Emergency numbers that are
joined by commas come back as a list unless all of the text is one numeral, which is guessed to be a
number (`guess_numbers`).
-/

namespace CdmaCall

namespace Config

namespace Environment

section Defs

/-- The text that a field of text takes from a variable. -/
def echo (s : String) : String :=
  match parseBool? s with
  | some b => if b then "true" else "false"
  | none =>
    match parseInt? s with
    | some i => toString i
    | none =>
      match Double.parse s with
      | some x => x.toText
      | none => s

/-- The texts that come back: what is no flag and no number, and flags and numbers as they are
written. -/
inductive Carried : String → Prop
  | plain {s : String} (hflag : parseBool? s = none) (hint : parseInt? s = none)
      (hnumber : Double.parse s = none) : Carried s
  | flag (b : Bool) : Carried (if b then "true" else "false")
  | int (i : Int) (hlow : Int64.minValue.toInt ≤ i) (hhigh : i ≤ Int64.maxValue.toInt) :
      Carried (toString i)
  | number (x : Double) (hflag : parseBool? x.toText = none) (hint : parseInt? x.toText = none)
      (hnumber : Double.parse x.toText = some x) : Carried x.toText

/-- The natural number that a field takes from the decimal form of `n`. -/
def landed (n : Nat) : Nat :=
  if n < UInt64.size / 2 then n else min (UInt64.size - 1) (Double.roundUnits n 1)

/-- A single number that is also a number to count with. -/
def LoneNumeral (numbers : List String) : Prop :=
  ∃ n, numbers = [n] ∧ Double.Numeral n.toList

end Defs

variable {s t key : String} {c : Char} {r : List Char}

/-! ### Flags and integers -/

theorem parseBool?_eq_none (htrue : s.toLower ≠ "true") (hfalse : s.toLower ≠ "false") :
    parseBool? s = none := by
  rw [ne_eq, ← Text.fold_eq_iff (by decide +kernel)] at htrue hfalse
  simp only [parseBool?, beq_eq_false_iff_ne.2 htrue, beq_eq_false_iff_ne.2 hfalse,
    Bool.false_eq_true, if_false]

theorem parseBool?_of_no_letter (hs : ∀ c ∈ s.toList, c.isAlpha = false) : parseBool? s = none := by
  have hword {w : String} (hw : w.toList.any Char.isAlpha = true) : s.toLower ≠ w := by
    rw [← ofList_map_toLower]
    exact beq_eq_false_iff_ne.1 (lower_ne_word hs hw)
  exact parseBool?_eq_none (hword (by decide +kernel)) (hword (by decide +kernel))

theorem parseInt?_of_digits {ds : List Char} {i : Int} {negative : Bool}
    (hsplit : Double.splitSign s.toList = (negative, ds)) (h : Double.Digits ds)
    (hi : (if negative then -(Double.digitsValue ds : Int) else Double.digitsValue ds) = i) :
    parseInt? s = if Int64.minValue.toInt ≤ i ∧ i ≤ Int64.maxValue.toInt then some i else none := by
  have hempty : ds.isEmpty = false := List.isEmpty_eq_false_iff.2 h.1
  have hall : ds.all Char.isDigit = true := List.all_eq_true.2 h.2
  subst hi
  simp only [parseInt?, hsplit, int64?, hempty, hall, Bool.not_true, Bool.or_self,
    Bool.false_eq_true, if_false]

theorem parseInt?_eq_none (h : ¬Double.Digits (Double.splitSign s.toList).2) :
    parseInt? s = none := by
  simp only [parseInt?, int64?]
  rw [if_pos]
  rw [Double.Digits, not_and_or, not_not] at h
  rcases h with hempty | hother
  · rw [hempty]
    rfl
  · rw [Bool.or_eq_true, Bool.not_eq_true', Bool.eq_false_iff, ne_eq, List.all_eq_true]
    exact .inr hother

theorem le_maxValue_iff {n : Nat} :
    (n : Int) ≤ Int64.maxValue.toInt ↔ n < UInt64.size / 2 := by
  have hmax : Int64.maxValue.toInt = (UInt64.size / 2 : Nat) - 1 := by decide
  omega

theorem parseInt?_natural (n : Nat) :
    parseInt? (toString n) = if n < UInt64.size / 2 then some (n : Int) else none := by
  have hrange : (Int64.minValue.toInt ≤ n ∧ (n : Int) ≤ Int64.maxValue.toInt) ↔
      n < UInt64.size / 2 := by
    rw [le_maxValue_iff, and_iff_right_iff_imp]
    have hmin : Int64.minValue.toInt ≤ 0 := by decide
    omega
  show parseInt? n.repr = _
  rw [parseInt?_of_digits (Double.splitSign_of_digits (Double.digits_repr n))
    (Double.digits_repr n) (i := n) (by rw [Double.digitsValue_repr]; rfl)]
  simp only [hrange]

theorem toList_negSucc (n : Nat) :
    (toString (Int.negSucc n)).toList = '-' :: (n + 1).repr.toList := String.toList_append

theorem parseInt?_toString {i : Int} (hlow : Int64.minValue.toInt ≤ i)
    (hhigh : i ≤ Int64.maxValue.toInt) : parseInt? (toString i) = some i := by
  cases i with
  | ofNat n => exact (parseInt?_natural n).trans (if_pos (le_maxValue_iff.1 hhigh))
  | negSucc n =>
    rw [parseInt?_of_digits (by rw [toList_negSucc]; rfl) (Double.digits_repr (n + 1)) (i := .negSucc n)
      (by rw [Double.digitsValue_repr]; rfl), if_pos ⟨hlow, hhigh⟩]

theorem no_letter_toString (i : Int) : ∀ c ∈ (toString i).toList, c.isAlpha = false := by
  cases i with
  | ofNat n => exact fun c hc => ((Double.digits_repr n).plain c hc).1
  | negSucc n =>
    rw [toList_negSucc, List.forall_mem_cons]
    exact ⟨rfl, fun c hc => ((Double.digits_repr _).plain c hc).1⟩

/-! ### Texts -/

theorem scalarText_guess (hkey : key ≠ listKey) : scalarText (guess key s) = some (echo s) := by
  have hlist : (key == listKey) = false := beq_eq_false_iff_ne.2 hkey
  unfold guess echo
  cases parseBool? s with
  | some b => rfl
  | none =>
    cases parseInt? s with
    | some i => rfl
    | none =>
      cases Double.parse s with
      | some x => rfl
      | none => simp only [hlist, Bool.false_eq_true, if_false, scalarText]

theorem echo_flag (b : Bool) :
    echo (if b then "true" else "false") = if b then "true" else "false" := by
  cases b <;> rfl

theorem echo_toString {i : Int} (hlow : Int64.minValue.toInt ≤ i)
    (hhigh : i ≤ Int64.maxValue.toInt) : echo (toString i) = toString i := by
  simp only [echo, parseBool?_of_no_letter (no_letter_toString i), parseInt?_toString hlow hhigh]

theorem range_of_parseInt? {i : Int} (h : parseInt? s = some i) :
    Int64.minValue.toInt ≤ i ∧ i ≤ Int64.maxValue.toInt := by
  simp only [parseInt?, int64?] at h
  split at h
  · cases h
  · obtain ⟨hrange, hi⟩ := Option.ite_none_right_eq_some.1 h
    exact Option.some.inj hi ▸ hrange

/-- **The texts that come back** are those that are taken for nothing else, and flags and numbers in
the form in which they are shown. -/
theorem echo_eq_iff : echo s = s ↔ Carried s := by
  constructor
  · intro h
    cases hflag : parseBool? s with
    | some b =>
      simp only [echo, hflag] at h
      exact h ▸ .flag b
    | none =>
      cases hint : parseInt? s with
      | some i =>
        simp only [echo, hflag, hint] at h
        obtain ⟨hlow, hhigh⟩ := range_of_parseInt? hint
        exact h ▸ .int i hlow hhigh
      | none =>
        cases hnumber : Double.parse s with
        | none => exact .plain hflag hint hnumber
        | some x =>
          simp only [echo, hflag, hint, hnumber] at h
          subst h
          exact .number x hflag hint hnumber
  · intro h
    cases h with
    | plain hflag hint hnumber => simp only [echo, hflag, hint, hnumber]
    | flag b => exact echo_flag b
    | int i hlow hhigh => exact echo_toString hlow hhigh
    | number x hflag hint hnumber => simp only [echo, hflag, hint, hnumber]

/-! ### Numbers -/

theorem guess_natural (n : Nat) : guess key (toString n) =
    if n < UInt64.size / 2 then .int n else .double (Double.ofDecimal false n 0) := by
  have hdigits : Double.splitSign (toString n).toList = (false, n.repr.toList) :=
    Double.splitSign_of_digits (Double.digits_repr n)
  have hnumber : Double.parse (toString n) = some (Double.ofDecimal false n 0) := by
    rw [Double.parse_of_digits (by rw [hdigits]; exact Double.digits_repr n), hdigits,
      Double.digitsValue_repr]
  have hflag : parseBool? (toString n) = none := parseBool?_of_no_letter (no_letter_toString n)
  simp only [guess, hflag, parseInt?_natural, hnumber]
  split_ifs <;> rfl

/-- **Numbers of 64 bits are kept below `2 ^ 63`**, and rounded from there on. -/
theorem scalarNat_guess_natural {n : Nat} (h : n < UInt64.size) :
    scalarNat (guess key (toString n)) = some (landed n) := by
  rw [guess_natural, landed]
  split_ifs with hlow
  · rw [scalarNat, if_pos (Int.natCast_nonneg n), Int.toNat_natCast]
  · have hn : n ≠ 0 := by
      rintro rfl
      exact hlow (by decide)
    rw [scalarNat, Double.ofDecimal_whole hn h, Double.toNatClamped_whole]

theorem landed_of_lt {n : Nat} (h : n < UInt64.size / 2) : landed n = n := if_pos h

/-- What comes back is what lies on the grid of the binary64 numbers, and the last number. -/
theorem landed_eq_iff {n : Nat} (h : n < UInt64.size) :
    landed n = n ↔ n < UInt64.size / 2 ∨ n % 2048 = 0 ∨ n = UInt64.size - 1 := by
  rw [landed]
  split_ifs with hlow
  · exact iff_of_true rfl (.inl hlow)
  · rw [Double.min_roundUnits_word_iff (Nat.not_lt.1 hlow) h, or_iff_right hlow]

/-! ### Words -/

theorem guess_flag (b : Bool) : guess key (if b then "true" else "false") = .bool b := by
  cases b <;> rfl

/-- **Words are guessed to be texts**, but for those that mean a flag or a number. -/
theorem guess_word (ht : s.toList = c :: r) (hletter : c.isAlpha = true) (hkey : key ≠ listKey)
    (hword : s.toLower ∉ ["true", "false", "inf", "infinity", "nan"]) : guess key s = .text s := by
  have hlist : (key == listKey) = false := beq_eq_false_iff_ne.2 hkey
  simp only [List.mem_cons, List.not_mem_nil, or_false, not_or] at hword
  obtain ⟨htrue, hfalse, hinf, hinfinity, hnan⟩ := hword
  have hint : parseInt? s = none := by
    refine parseInt?_eq_none fun hdigits => ?_
    rw [ht, Double.splitSign_of_letter hletter] at hdigits
    exact Bool.false_ne_true
      ((isDigit_of_isAlpha hletter).symm.trans (hdigits.2 c List.mem_cons_self))
  have hnumber : Double.parse s = none :=
    Double.parse_eq_none_of_letter ht hletter (by simp [hinf, hinfinity, hnan])
  simp only [guess, parseBool?_eq_none htrue hfalse, hint, hnumber, hlist, Bool.false_eq_true,
    if_false]

/-- The words for the log levels are none of those. -/
theorem guess_level (hs : s.toLower ∈ LogLevel.words) (hkey : key ≠ listKey) :
    guess key s = .text s := by
  have hother : ∀ w ∈ LogLevel.words, w ∉ ["true", "false", "inf", "infinity", "nan"] := by
    decide
  have hletters : ∀ w ∈ LogLevel.words, w.toList.all Char.isAlpha = true := by decide +kernel
  cases ht : s.toList with
  | nil =>
    rw [String.toList_eq_nil_iff.1 ht] at hs
    exact absurd hs (by decide +kernel)
  | cons c r =>
    have hfirst := hletters _ hs
    rw [toList_toLower, ht, List.map_cons, List.all_cons, Bool.and_eq_true, isAlpha_toLower] at hfirst
    exact guess_word ht hfirst.1 hkey (hother _ hs)

/-! ### Lists of numbers -/

section Lists

variable {numbers : List String}

theorem mem_of_mem_intercalate {sep : Char} {ls : List (List Char)}
    (h : c ∈ [sep].intercalate ls) : c = sep ∨ ∃ l ∈ ls, c ∈ l := by
  induction ls with
  | nil => cases h
  | cons l ls ih =>
    cases ls with
    | nil =>
      rw [List.intercalate_singleton] at h
      exact .inr ⟨l, List.mem_singleton_self l, h⟩
    | cons l' ls =>
      rw [List.intercalate_cons_cons, List.append_assoc, List.mem_append, List.mem_append,
        List.mem_singleton] at h
      rcases h with h | h | h
      · exact .inr ⟨l, List.mem_cons_self, h⟩
      · exact .inl h
      · refine (ih h).imp_right ?_
        rintro ⟨k, hk, hc⟩
        exact ⟨k, List.mem_cons_of_mem l hk, hc⟩

/-- The text of a list of numbers. -/
theorem toList_joined (numbers : List String) :
    (",".intercalate numbers).toList = [','].intercalate (numbers.map String.toList) :=
  String.toList_intercalate

theorem mem_joined (hdials : ∀ n ∈ numbers, Address.Dials n)
    (h : c ∈ (",".intercalate numbers).toList) : c = ',' ∨ c ∈ Address.keys := by
  rw [toList_joined] at h
  refine (mem_of_mem_intercalate h).imp_right ?_
  rintro ⟨l, hl, hc⟩
  obtain ⟨n, hn, rfl⟩ := List.mem_map.1 hl
  exact (hdials n hn).2 c hc

theorem numeral_joined (hsome : numbers ≠ []) :
    Double.Numeral (",".intercalate numbers).toList ↔ LoneNumeral numbers := by
  cases numbers with
  | nil => exact absurd rfl hsome
  | cons n numbers =>
    cases numbers with
    | nil =>
      rw [String.intercalate_singleton]
      constructor
      · exact fun h => ⟨n, rfl, h⟩
      · rintro ⟨m, hm, h⟩
        rwa [List.singleton_inj.1 hm]
    | cons m numbers =>
      have hcomma : ',' ∈ (",".intercalate (n :: m :: numbers)).toList := by
        rw [toList_joined, List.map_cons, List.map_cons, List.intercalate_cons_cons]
        simp
      refine iff_of_false (fun h => ?_) (by simp [LoneNumeral])
      rcases h.mem hcomma with h | h <;> cases h

theorem digits_joined (hsome : numbers ≠ [])
    (hdials : ∀ n ∈ numbers, Address.Dials n) :
    Double.Digits (Double.splitSign (",".intercalate numbers).toList).2 ↔ LoneNumeral numbers := by
  have hminus : '-' ∉ (",".intercalate numbers).toList := fun h =>
    absurd (mem_joined hdials h) (by decide)
  rw [Double.digits_splitSign_iff hminus, numeral_joined hsome]

theorem plain_joined (hdials : ∀ n ∈ numbers, Address.Dials n) :
    Double.Plain (",".intercalate numbers).toList := by
  -- Over the list, not over all characters: these are decided one by one.
  have hkeys : (',' :: Address.keys).all (fun c => !c.isAlpha && c != '.') = true := by decide
  intro c hc
  have hplain := List.all_eq_true.1 hkeys c (List.mem_cons.2 (mem_joined hdials hc))
  rwa [Bool.and_eq_true, Bool.not_eq_true', bne_iff_ne] at hplain

/-- **Numbers that are joined come back**, unless they are a single numeral. -/
theorem guess_numbers (hsome : numbers ≠ [])
    (hdials : ∀ n ∈ numbers, Address.Dials n) (hlone : ¬LoneNumeral numbers) :
    guess listKey (",".intercalate numbers) = .list (numbers.map .text) := by
  have hplain := plain_joined hdials
  have hdigits := mt (digits_joined hsome hdials).1 hlone
  have hsplit : (",".intercalate numbers).toList.splitOn ',' = numbers.map String.toList := by
    rw [toList_joined]
    refine List.splitOn_intercalate ',' ?_ (by simpa using hsome)
    intro l hl
    obtain ⟨n, hn, rfl⟩ := List.mem_map.1 hl
    exact fun hcomma => absurd ((hdials n hn).2 _ hcomma) (by decide)
  simp only [guess, parseBool?_of_no_letter fun c hc => (hplain c hc).1, parseInt?_eq_none hdigits,
    Double.parse_eq_none_of_plain hplain hdigits, hsplit, beq_self_eq_true, if_true, List.map_map]
  rw [show ((fun item => Value.text (String.ofList item)) ∘ String.toList) = Value.text from
    funext fun n => congrArg Value.text String.ofList_toList]

/-- A single numeral is guessed to be a number, and that is no list. -/
theorem guess_numeral (hdials : ∀ n ∈ numbers, Address.Dials n)
    (hlone : LoneNumeral numbers) : (guess listKey (",".intercalate numbers)).items? = none := by
  have hsome : numbers ≠ [] := by
    obtain ⟨n, rfl, -⟩ := hlone
    exact List.cons_ne_nil n []
  have hplain := plain_joined hdials
  have hnumber := Double.parse_of_digits ((digits_joined hsome hdials).2 hlone)
  simp only [guess, parseBool?_of_no_letter fun c hc => (hplain c hc).1, hnumber]
  cases parseInt? (",".intercalate numbers) <;> rfl

end Lists

end Environment

end Config

end CdmaCall
