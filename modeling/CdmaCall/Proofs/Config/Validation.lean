import CdmaCall.Config.Basic
import CdmaCall.Proofs.Emergency.Addresses
import CdmaCall.Proofs.Text.Letters

/-!
# Usable configurations

A configuration is usable (`Config.Sound`) if there is a time to wait, all emergency numbers can be
dialled and the log level is one of five words in whatever ASCII case. `validate` accepts exactly
these, and of anything else it names the first fault (`Config.FirstFault`): `validate_eq_ok_iff` and
`validate_eq_error_iff`.

What is accepted is what the rest of the program can work with. A number that can be dialled is a
number that some address spells (`exists_classifies_iff`), and the words are those that the log
reads (`LogLevel.parse_eq_ok_iff`): beyond ASCII a small form is never one of them.
-/

namespace CdmaCall

section Defs

/-- A number is not empty, and all of it can be dialled. -/
def Address.Dials (n : String) : Prop := n ≠ "" ∧ ∀ c ∈ n.toList, c ∈ Address.keys

instance (n : String) : Decidable (Address.Dials n) :=
  haveI := List.decidableBAll (· ∈ Address.keys) n.toList
  instDecidableAnd

/-- The words for the log levels. -/
def LogLevel.words : List String := ["trace", "debug", "info", "warn", "error"]

/-- What a usable configuration has. -/
structure Config.Sound (c : Config) : Prop where
  timeout : c.timeout ≠ 0
  numbers : ∀ n ∈ c.numbers, Address.Dials n
  level : c.logging.level.toLower ∈ LogLevel.words

/-- The first thing that makes a configuration unusable, in words. -/
inductive Config.FirstFault (c : Config) : String → Prop
  | timeout (h : c.timeout = 0) : FirstFault c "Call waiting timeout must be non-zero"
  | number (before after : List String) (n : String) (htimeout : c.timeout ≠ 0)
      (hnumbers : c.numbers = before ++ n :: after) (hbefore : ∀ m ∈ before, Address.Dials m)
      (hn : ¬Address.Dials n) : FirstFault c ("Invalid emergency number: " ++ n)
  | level (htimeout : c.timeout ≠ 0) (hnumbers : ∀ n ∈ c.numbers, Address.Dials n)
      (h : c.logging.level.toLower ∉ LogLevel.words) : FirstFault c "Invalid log level"

end Defs

/-! ### Log levels -/

namespace LogLevel

variable {s : String} {level : LogLevel}

theorem name_mem_words (level : LogLevel) : Named.name level ∈ words := by
  cases level <;> decide

theorem exists_name_of_mem_words (h : s ∈ words) : ∃ level : LogLevel, Named.name level = s := by
  simp only [words, List.mem_cons, List.not_mem_nil, or_false] at h
  rcases h with rfl | rfl | rfl | rfl | rfl
  · exact ⟨.trace, rfl⟩
  · exact ⟨.debug, rfl⟩
  · exact ⟨.info, rfl⟩
  · exact ⟨.warn, rfl⟩
  · exact ⟨.error, rfl⟩

theorem fold_eq_name_iff : Text.fold s = Named.name level ↔ s.toLower = Named.name level :=
  Text.fold_eq_iff (by cases level <;> decide +kernel)

theorem ofName?_name (level : LogLevel) : Named.ofName? (Named.name level) = some level := by
  cases level <;> decide +kernel

/-- A level is read from its name in whatever ASCII case. -/
theorem parse_eq_ok_iff : parse s = .ok level ↔ s.toLower = Named.name level := by
  rw [← fold_eq_name_iff, parse]
  constructor
  · intro h
    cases hname : Named.ofName? (α := LogLevel) (Text.fold s) with
    | none => rw [hname] at h; cases h
    | some found =>
      rw [hname] at h
      cases h
      have hfound : (Named.name level == Text.fold s) = true :=
        List.find?_some (p := fun a => Named.name a == Text.fold s) hname
      exact (beq_iff_eq.1 hfound).symm
  · intro h
    rw [h, ofName?_name]

/-- A text is read as a level just if its small form is one of the words. -/
theorem parse_cases (s : String) :
    s.toLower ∈ words ∧ (∃ level, parse s = .ok level) ∨
      s.toLower ∉ words ∧ parse s = .error (.parse "Invalid log level") := by
  by_cases h : s.toLower ∈ words
  · obtain ⟨level, hname⟩ := exists_name_of_mem_words h
    exact .inl ⟨h, level, parse_eq_ok_iff.2 hname.symm⟩
  · refine .inr ⟨h, ?_⟩
    cases hname : Named.ofName? (α := LogLevel) (Text.fold s) with
    | none => rw [parse, hname]
    | some level =>
      have hparse : parse s = .ok level := by rw [parse, hname]
      rw [parse_eq_ok_iff.1 hparse] at h
      exact absurd (name_mem_words level) h

end LogLevel

/-! ### Emergency numbers -/

namespace Address

variable {n a : String}

theorem dialled_of_dials (h : Dials n) : dialled n = n.toList :=
  List.filter_eq_self.2 fun c hc => decide_eq_true (h.2 c hc)

/-- Only what can be dialled is what some address comes to. -/
theorem dials_of_dialled (hn : n ≠ "") (h : dialled a = n.toList) : Dials n := by
  refine ⟨hn, fun c hc => ?_⟩
  rw [← h, dialled, List.mem_filter] at hc
  exact of_decide_eq_true hc.2

theorem dialled_tel (a : String) : dialled ("tel:" ++ a) = dialled a := by
  have hscheme : dialled "tel:" = [] := by decide +kernel
  rw [dialled_append, hscheme, List.nil_append]

end Address

open Address

namespace EmergencyNumbers

variable {n a : String} {numbers : List String}

/-- However a listed number is written, it is an emergency number. -/
theorem classifies_of_dialled (hn : n ∈ numbers) (hdials : Dials n) (ha : dialled a = n.toList) :
    (EmergencyNumbers.mk numbers).classifies a = true := by
  refine classifies_iff.2 ⟨?_, n, hn, ha.symm⟩
  rw [ha, ne_eq, String.toList_eq_nil_iff]
  exact hdials.1

/-- A number that can be dialled is one that some address spells. -/
theorem exists_classifies_iff :
    (∃ a, (EmergencyNumbers.mk [n]).classifies a = true) ↔ Dials n := by
  constructor
  · rintro ⟨a, h⟩
    obtain ⟨hdialled, m, hm, heq⟩ := classifies_iff.1 h
    obtain rfl := List.mem_singleton.1 hm
    refine dials_of_dialled (fun hempty => hdialled ?_) heq.symm
    rw [← heq, hempty, String.toList_empty]
  · exact fun h => ⟨n, classifies_of_dialled (List.mem_singleton_self n) h (dialled_of_dials h)⟩

end EmergencyNumbers

namespace Config

variable {c : Config} {e : Error} {n : String} {numbers : List String}

theorem usableNumber_iff : usableNumber n = true ↔ Dials n := by
  have hsame : dialableNumber n = n ↔ ∀ c ∈ n.toList, c ∈ keys := by
    rw [← String.toList_inj, toList_dialableNumber, dialled, List.filter_eq_self]
    simp only [decide_eq_true_eq]
  simp only [usableNumber, Bool.and_eq_true, Bool.not_eq_true', Bool.eq_false_iff, ne_eq,
    String.isEmpty_iff, beq_iff_eq, hsame, Dials]

theorem find?_unusable_eq_none (h : ∀ n ∈ numbers, Dials n) :
    numbers.find? (!usableNumber ·) = none := by
  refine List.find?_eq_none.2 fun n hn => ?_
  rw [usableNumber_iff.2 (h n hn)]
  exact Bool.false_ne_true

theorem find?_unusable_eq_some {before after : List String} (hbefore : ∀ m ∈ before, Dials m)
    (hn : ¬Dials n) : (before ++ n :: after).find? (!usableNumber ·) = some n := by
  rw [List.find?_append, find?_unusable_eq_none hbefore, Option.none_or]
  refine List.find?_cons_of_pos ?_
  rw [Bool.not_eq_true', Bool.eq_false_iff, ne_eq, usableNumber_iff]
  exact hn

/-- All numbers can be dialled, or there is a first that cannot. -/
theorem dials_or_first (numbers : List String) :
    (∀ n ∈ numbers, Dials n) ∨ ∃ before n after, numbers = before ++ n :: after ∧
      (∀ m ∈ before, Dials m) ∧ ¬Dials n := by
  induction numbers with
  | nil => exact .inl (by simp)
  | cons n numbers ih =>
    by_cases hn : Dials n
    · rcases ih with hall | ⟨before, m, after, rfl, hbefore, hm⟩
      · exact .inl (List.forall_mem_cons.2 ⟨hn, hall⟩)
      · exact .inr ⟨n :: before, m, after, rfl, List.forall_mem_cons.2 ⟨hn, hbefore⟩, hm⟩
    · exact .inr ⟨[], n, numbers, rfl, by simp, hn⟩

/-! ### The checks in order -/

theorem Sound.validate_eq (h : c.Sound) : c.validate = .ok () := by
  have htimeout : (c.timeout == 0) = false := beq_eq_false_iff_ne.2 h.timeout
  rcases LogLevel.parse_cases c.logging.level with ⟨-, level, hparse⟩ | ⟨hlevel, -⟩
  · simp only [validate, htimeout, find?_unusable_eq_none h.numbers, hparse, Bool.false_eq_true,
      if_false]
  · exact absurd h.level hlevel

theorem FirstFault.validate_eq {text : String} (h : c.FirstFault text) :
    c.validate = .error (.parse text) := by
  cases h with
  | timeout hzero =>
    have htimeout : (c.timeout == 0) = true := beq_iff_eq.2 hzero
    simp only [validate, htimeout, if_true]
  | number before after n htimeout hsplit hbefore hn =>
    have htimeout : (c.timeout == 0) = false := beq_eq_false_iff_ne.2 htimeout
    simp only [validate, htimeout, hsplit, find?_unusable_eq_some hbefore hn, Bool.false_eq_true,
      if_false]
  | level htimeout hnumbers hlevel =>
    have htimeout : (c.timeout == 0) = false := beq_eq_false_iff_ne.2 htimeout
    rcases LogLevel.parse_cases c.logging.level with ⟨hword, -⟩ | ⟨-, hparse⟩
    · exact absurd hword hlevel
    · simp only [validate, htimeout, find?_unusable_eq_none hnumbers, hparse, Bool.false_eq_true,
        if_false]

theorem sound_or_firstFault (c : Config) : c.Sound ∨ ∃ text, c.FirstFault text := by
  by_cases htimeout : c.timeout = 0
  · exact .inr ⟨_, .timeout htimeout⟩
  rcases dials_or_first c.numbers with hnumbers | ⟨before, n, after, hsplit, hbefore, hn⟩
  · by_cases hlevel : c.logging.level.toLower ∈ LogLevel.words
    · exact .inl ⟨htimeout, hnumbers, hlevel⟩
    · exact .inr ⟨_, .level htimeout hnumbers hlevel⟩
  · exact .inr ⟨_, .number before after n htimeout hsplit hbefore hn⟩

/-- A configuration is accepted just if it is usable. -/
theorem validate_eq_ok_iff : c.validate = .ok () ↔ c.Sound := by
  refine ⟨fun hok => ?_, Sound.validate_eq⟩
  rcases sound_or_firstFault c with hsound | ⟨text, hfault⟩
  · exact hsound
  · rw [hfault.validate_eq] at hok
    cases hok

/-- What is reported is the first fault. -/
theorem validate_eq_error_iff :
    c.validate = .error e ↔ ∃ text, c.FirstFault text ∧ e = .parse text := by
  constructor
  · intro herror
    rcases sound_or_firstFault c with hsound | ⟨text, hfault⟩
    · rw [hsound.validate_eq] at herror
      cases herror
    · rw [hfault.validate_eq] at herror
      exact ⟨text, hfault, (Except.error.inj herror).symm⟩
  · rintro ⟨text, hfault, rfl⟩
    exact hfault.validate_eq

/-- The report of a number is about numbers only. -/
theorem number_ne_level (n : String) : "Invalid emergency number: " ++ n ≠ "Invalid log level" := by
  intro h
  have htexts := String.toList_inj.2 h
  rw [String.toList_append] at htexts
  simp at htexts

/-- The numbers pass if there is time to wait and each of them is spelled by some address. -/
theorem numbers_pass_iff (htimeout : c.timeout ≠ 0) :
    (∀ n, c.validate ≠ .error (.parse ("Invalid emergency number: " ++ n))) ↔
      ∀ n ∈ c.numbers, ∃ a, (EmergencyNumbers.mk [n]).classifies a = true := by
  simp only [EmergencyNumbers.exists_classifies_iff]
  constructor
  · intro hpass
    rcases dials_or_first c.numbers with hnumbers | ⟨before, n, after, hsplit, hbefore, hn⟩
    · exact hnumbers
    · exact absurd (FirstFault.number before after n htimeout hsplit hbefore hn).validate_eq
        (hpass n)
  · intro hnumbers n herror
    obtain ⟨text, hfault, htext⟩ := validate_eq_error_iff.1 herror
    cases hfault with
    | timeout hzero => exact htimeout hzero
    | number before after m _ hsplit _ hm => exact hm (hnumbers m (by simp [hsplit]))
    | level => exact number_ne_level n (Error.parse.inj htext)

/-- **Validation accepts exactly the usable configurations** and names the first fault of any
other. The check of the numbers lets through just those that some address spells. Whatever is
accepted works: each number is recognised however an address writes it, and the level is read. -/
theorem validation_exact (c : Config) :
    (c.validate = .ok () ↔ c.Sound) ∧
    (∀ e, c.validate = .error e ↔ ∃ text, c.FirstFault text ∧ e = .parse text) ∧
    (c.timeout ≠ 0 →
      ((∀ n, c.validate ≠ .error (.parse ("Invalid emergency number: " ++ n))) ↔
        ∀ n ∈ c.numbers, ∃ a, (EmergencyNumbers.mk [n]).classifies a = true)) ∧
    (c.validate = .ok () →
      (∀ n ∈ c.numbers, (∀ a, dialled a = n.toList →
        (EmergencyNumbers.mk c.numbers).classifies a = true) ∧
        dialled ("tel:" ++ n) = n.toList) ∧
      ∃ level, LogLevel.parse c.logging.level = .ok level) := by
  refine ⟨validate_eq_ok_iff, fun _ => validate_eq_error_iff, numbers_pass_iff, fun hok => ?_⟩
  have hsound := validate_eq_ok_iff.1 hok
  refine ⟨fun n hn => ⟨fun a ha => ?_, ?_⟩, ?_⟩
  · exact EmergencyNumbers.classifies_of_dialled hn (hsound.numbers n hn) ha
  · rw [dialled_tel, dialled_of_dials (hsound.numbers n hn)]
  · rcases LogLevel.parse_cases c.logging.level with ⟨-, hparse⟩ | ⟨hlevel, -⟩
    · exact hparse
    · exact absurd hsound.level hlevel

/-- A level in capitals is usable, and a listed number is found behind a scheme and separators. -/
theorem validation_exact_standard :
    let c := { Config.standard with
      numbers := ["*112"], logging := { Config.standard.logging with level := "WARN" } }
    c.timeout ≠ 0 ∧ c.validate = .ok () ∧
      (∃ a, (EmergencyNumbers.mk ["*112"]).classifies a = true) ∧
      (EmergencyNumbers.mk c.numbers).classifies "tel:*1 1 2" = true := by
  intro c
  have htimeout : c.timeout ≠ 0 := by decide
  have hsound : c.Sound := ⟨htimeout, by decide +kernel, by decide +kernel⟩
  obtain ⟨hok, -, hpass, hworks⟩ := validation_exact c
  have hvalid := hok.2 hsound
  refine ⟨htimeout, hvalid, (hpass htimeout).1 (fun n hn => ?_) "*112" (List.mem_singleton_self _),
    ((hworks hvalid).1 "*112" (List.mem_singleton_self _)).1 "tel:*1 1 2" (by decide +kernel)⟩
  rw [hvalid] at hn
  cases hn

end Config

end CdmaCall
