import CdmaCall.Proofs.Config.Variables

/-!
# What is loaded from variables

From the values that the variables of a configuration leave behind, the sections are read one by one.
What is loaded is the configuration with its texts and its timeout as they are guessed
(`Config.echoed`), or nothing, if the only emergency number is a numeral: that is guessed to be a
number, and a number is no list. So the configuration itself is loaded just if all that it holds
survives the guessing (`Config.Portable`): `environment_round_trip`.
-/

namespace CdmaCall

namespace Config

open Environment

section Defs

/-- A configuration with its texts and its timeout as they are guessed. -/
def echoed (c : Config) : Config :=
  { c with
    general := ⟨echo c.general.nodeId, echo c.general.description⟩
    timeout := .ofNat (landed c.timeout.toNat)
    logging := { c.logging with
      directory := c.logging.directory.map echo
      filePrefix := echo c.logging.filePrefix } }

/-- The texts of a configuration and its timeout are guessed to be what they are. From `2 ^ 63` on
binary64 numbers are 2048 apart. -/
structure Portable (c : Config) : Prop where
  nodeId : Carried c.general.nodeId
  description : Carried c.general.description
  directory : ∀ d ∈ c.logging.directory, Carried d
  filePrefix : Carried c.logging.filePrefix
  timeout : c.timeout.toNat < UInt64.size / 2 ∨ c.timeout.toNat % 2048 = 0 ∨
    c.timeout.toNat = UInt64.size - 1

end Defs

variable {c : Config} {fields : List (String × Value)} {s key name : String}

/-! ### Fields -/

theorem text_guess (hkey : key ≠ listKey) : environment.text (guess key s) = some (echo s) :=
  scalarText_guess hkey

/-- A field that holds a text is set. -/
theorem isUnset_of_text {v : Value} (h : environment.text v = some s) :
    environment.isUnset v = false := by
  cases v with
  | null => cases h
  | _ => rfl

theorem landed_le (n : Nat) : landed n ≤ UInt64.size - 1 := by
  rw [landed]
  split_ifs with hlow
  · simp only [UInt64.size] at hlow ⊢
    omega
  · exact Nat.min_le_left _ _

theorem word32_guess (n : UInt32) : environment.word32 (guess key (toString n.toNat)) = some n := by
  have hn : n.toNat < UInt32.size := n.toNat_lt
  have hlow : n.toNat < UInt64.size / 2 := Nat.lt_trans hn (by decide)
  have hfits : n.toNat ≤ UInt32.size - 1 := Nat.le_sub_one_of_lt hn
  simp only [Dialect.word32, environment,
    scalarNat_guess_natural (Nat.lt_of_lt_of_le hlow (Nat.div_le_self _ _)), landed_of_lt hlow,
    Option.bind_some, if_pos hfits, Option.map_some, UInt32.ofNat_toNat]

theorem word64_guess (n : UInt64) :
    environment.word64 (guess key (toString n.toNat)) = some (.ofNat (landed n.toNat)) := by
  simp only [Dialect.word64, environment, scalarNat_guess_natural n.toNat_lt, Option.bind_some,
    if_pos (landed_le n.toNat), Option.map_some]

theorem flag_guess (b : Bool) :
    environment.flag (guess key (if b then "true" else "false")) = some b := by
  rw [guess_flag]
  rfl

/-! ### Sections -/

theorem general_guessed (h : Guessed c "general" fields) :
    environment.general (.table fields) = some c.echoed.general := by
  have hnode : fields.lookup "node_id" = some (guess "general.node_id" c.general.nodeId) :=
    h "node_id" (by decide)
  have hdescription : fields.lookup "description" =
      some (guess "general.description" c.general.description) := h "description" (by decide)
  show ((Dialect.required environment.text (fields.lookup "node_id")).bind fun nodeId =>
    (Dialect.required environment.text (fields.lookup "description")).bind fun description =>
    some (General.mk nodeId description)) = _
  rw [hnode, hdescription]
  simp only [Dialect.required, Option.bind_some, text_guess (show "general.node_id" ≠ listKey by decide),
    text_guess (show "general.description" ≠ listKey by decide), echoed]

theorem toneType_guessed (tone : Option ToneType) :
    environment.optional environment.oneOf
      ((tone.map Named.name).map (guess "dtmf.tone_type")) = some tone := by
  rcases tone with _ | t
  · rfl
  · cases t <;> rfl

theorem format_guessed (format : LogFormat) :
    environment.oneOf (guess "logging.format" (Named.name format)) = some format := by
  cases format <;> rfl

theorem directory_guessed (directory : Option String) :
    environment.optional environment.text (directory.map (guess "logging.directory")) =
      some (directory.map echo) := by
  cases directory with
  | none => rfl
  | some d =>
    have htext : environment.text (guess "logging.directory" d) = some (echo d) :=
      text_guess (by decide)
    simp only [Option.map_some, Dialect.optional, isUnset_of_text htext, htext, Bool.false_eq_true,
      if_false]

theorem dtmf_guessed (h : Guessed c "dtmf" fields) :
    environment.dtmf (.table fields) = some c.dtmf := by
  have htone : fields.lookup "tone_type" =
      (c.dtmf.toneType.map Named.name).map (guess "dtmf.tone_type") := h "tone_type" (by decide)
  have hon : fields.lookup "burst_on_length_ms" =
      some (guess "dtmf.burst_on_length_ms" (toString c.dtmf.onLength.toNat)) :=
    h "burst_on_length_ms" (by decide)
  have hoff : fields.lookup "burst_off_length_ms" =
      some (guess "dtmf.burst_off_length_ms" (toString c.dtmf.offLength.toNat)) :=
    h "burst_off_length_ms" (by decide)
  show ((environment.optional environment.oneOf (fields.lookup "tone_type")).bind fun tone =>
    (Dialect.withDefault 0 environment.word32 (fields.lookup "burst_on_length_ms")).bind fun on =>
    (Dialect.withDefault 0 environment.word32 (fields.lookup "burst_off_length_ms")).bind fun off =>
    some (Dtmf.mk tone on off)) = _
  rw [htone, hon, hoff, toneType_guessed]
  simp only [Dialect.withDefault, word32_guess, Option.bind_some]

theorem logging_guessed (h : Guessed c "logging" fields)
    (hlevel : c.logging.level.toLower ∈ LogLevel.words) :
    environment.logging (.table fields) = some c.echoed.logging := by
  have hword : fields.lookup "level" = some (.text c.logging.level) := by
    rw [← guess_level hlevel (show "logging.level" ≠ listKey by decide)]
    exact h "level" (by decide)
  have hdirectory : fields.lookup "directory" =
      c.logging.directory.map (guess "logging.directory") := h "directory" (by decide)
  have hprefix : fields.lookup "file_prefix" =
      some (guess "logging.file_prefix" c.logging.filePrefix) := h "file_prefix" (by decide)
  have hformat : fields.lookup "format" =
      some (guess "logging.format" (Named.name c.logging.format)) := h "format" (by decide)
  show ((Dialect.required environment.text (fields.lookup "level")).bind fun level =>
    (environment.optional environment.text (fields.lookup "directory")).bind fun directory =>
    (Dialect.required environment.text (fields.lookup "file_prefix")).bind fun filePrefix =>
    (Dialect.required environment.oneOf (fields.lookup "format")).bind fun format =>
    some (Logging.mk level directory filePrefix format)) = _
  rw [hword, hdirectory, hprefix, hformat, directory_guessed]
  simp only [Dialect.required, Option.bind_some, format_guessed,
    text_guess (show "logging.file_prefix" ≠ listKey by decide), echoed]
  rfl

/-- A section with one field is read by its field. -/
theorem single_guessed {α : Type} {read : Value → Option α} {text : String}
    (h : Guessed c name fields) (hplace : (name, s) ∈ places) (hset : c.text? (name, s) = some text) :
    environment.single s read (.table fields) = read (guess (pathOf (name, s)) text) := by
  show (fields.lookup s).bind read = _
  rw [h s hplace, hset]
  rfl

/-! ### The whole configuration -/

/-- All but the emergency numbers is read, and what becomes of them decides. -/
theorem config_toVariables {vars : List (String × String)} (hvalid : c.validate = .ok ())
    (hvars : vars.Perm c.toVariables) :
    environment.config (toValue vars) =
      (environment.texts (guess listKey (",".intercalate c.numbers))).map fun numbers =>
        { c.echoed with numbers := numbers } := by
  have hlevel := (validate_eq_ok_iff.1 hvalid).level
  have hholds := holds_toVariables hvars
  obtain ⟨sections, htable⟩ := hholds.table
  obtain ⟨general, hgeneral, hgeneral'⟩ := hholds.exists_guessed "general" "node_id" (by decide) rfl
  obtain ⟨dtmf, hdtmf, hdtmf'⟩ := hholds.exists_guessed "dtmf" "burst_on_length_ms" (by decide) rfl
  obtain ⟨waiting, hwaiting, hwaiting'⟩ :=
    hholds.exists_guessed "call_waiting" "timeout_ms" (by decide) rfl
  obtain ⟨connection, hconnection, hconnection'⟩ :=
    hholds.exists_guessed "connection" "allow_mute" (by decide) rfl
  obtain ⟨emergency, hemergency, hemergency'⟩ :=
    hholds.exists_guessed "emergency" "numbers" (by decide) rfl
  obtain ⟨logging, hlogging, hlogging'⟩ := hholds.exists_guessed "logging" "level" (by decide) rfl
  have htimeout : environment.single "timeout_ms" environment.word64 (.table waiting) =
      some (.ofNat (landed c.timeout.toNat)) :=
    (single_guessed hwaiting' (by decide) rfl).trans (word64_guess c.timeout)
  have hmute : environment.single "allow_mute" environment.flag (.table connection) =
      some c.allowMute := (single_guessed hconnection' (by decide) rfl).trans (flag_guess c.allowMute)
  have hkey : pathOf ("emergency", "numbers") = listKey := by decide +kernel
  have hnumbers : environment.single "numbers" environment.texts (.table emergency) =
      environment.texts (guess listKey (",".intercalate c.numbers)) := by
    rw [← hkey]
    exact single_guessed hemergency' (by decide) rfl
  rw [htable, entries] at hgeneral hdtmf hwaiting hconnection hemergency hlogging
  rw [htable]
  show ((Dialect.required environment.general (sections.lookup "general")).bind fun general =>
    (Dialect.required environment.dtmf (sections.lookup "dtmf")).bind fun dtmf =>
    (Dialect.required (environment.single "timeout_ms" environment.word64)
      (sections.lookup "call_waiting")).bind fun timeout =>
    (Dialect.required (environment.single "allow_mute" environment.flag)
      (sections.lookup "connection")).bind fun allowMute =>
    (Dialect.required (environment.single "numbers" environment.texts)
      (sections.lookup "emergency")).bind fun numbers =>
    (Dialect.required environment.logging (sections.lookup "logging")).bind fun logging =>
    some (Config.mk general dtmf timeout allowMute numbers logging)) = _
  rw [hgeneral, hdtmf, hwaiting, hconnection, hemergency, hlogging]
  simp only [Dialect.required, Option.bind_some, general_guessed hgeneral', dtmf_guessed hdtmf',
    htimeout, hmute, hnumbers, logging_guessed hlogging' hlevel]
  cases environment.texts (guess listKey (",".intercalate c.numbers)) <;> rfl

section Loading

variable {vars : List (String × String)}

/-- A single numeral is taken for a number, and nothing is loaded. -/
theorem ofEnvironment_of_lone (hvalid : c.validate = .ok ()) (hlone : LoneNumeral c.numbers)
    (hvars : vars.Perm c.toVariables) : ∃ text, ofEnvironment vars = .error (.config text) := by
  have hitems : environment.texts (guess listKey (",".intercalate c.numbers)) = none := by
    show (guess listKey (",".intercalate c.numbers)).items?.bind _ = none
    rw [guess_numeral (validate_eq_ok_iff.1 hvalid).numbers hlone]
    rfl
  rw [ofEnvironment, config_toVariables hvalid hvars, hitems]
  exact ⟨_, rfl⟩

/-- Otherwise a configuration is loaded, with its texts and its timeout as they are guessed. -/
theorem ofEnvironment_of_not_lone (hvalid : c.validate = .ok ()) (hsome : c.numbers ≠ [])
    (hlone : ¬LoneNumeral c.numbers) (hvars : vars.Perm c.toVariables) :
    ofEnvironment vars = .ok c.echoed := by
  have hnumbers : environment.texts (guess listKey (",".intercalate c.numbers)) =
      some c.numbers := by
    rw [guess_numbers hsome (validate_eq_ok_iff.1 hvalid).numbers hlone]
    exact Dialect.mapM_text (fun _ => rfl) c.numbers
  rw [ofEnvironment, config_toVariables hvalid hvars, hnumbers]
  rfl

theorem echoed_eq_iff : c.echoed = c ↔ c.Portable := by
  have htimeout : UInt64.ofNat (landed c.timeout.toNat) = c.timeout ↔
      c.timeout.toNat < UInt64.size / 2 ∨ c.timeout.toNat % 2048 = 0 ∨
        c.timeout.toNat = UInt64.size - 1 := by
    have hfits : landed c.timeout.toNat < UInt64.size :=
      Nat.lt_of_le_of_lt (landed_le c.timeout.toNat) (by decide)
    rw [← landed_eq_iff c.timeout.toNat_lt, ← UInt64.toNat_inj, UInt64.toNat_ofNat_of_lt' hfits]
  have hdirectory : c.logging.directory.map echo = c.logging.directory ↔
      ∀ d ∈ c.logging.directory, Carried d := by
    cases c.logging.directory <;> simp [echo_eq_iff]
  constructor
  · intro h
    exact ⟨echo_eq_iff.1 (congrArg (·.general.nodeId) h),
      echo_eq_iff.1 (congrArg (·.general.description) h),
      hdirectory.1 (congrArg (·.logging.directory) h),
      echo_eq_iff.1 (congrArg (·.logging.filePrefix) h), htimeout.1 (congrArg (·.timeout) h)⟩
  · intro h
    rw [echoed, echo_eq_iff.2 h.nodeId, echo_eq_iff.2 h.description, hdirectory.2 h.directory,
      echo_eq_iff.2 h.filePrefix, htimeout.2 h.timeout]

/-- **What a configuration becomes on its way through variables.** In whatever order they come, a
single numeral for an emergency number makes them unreadable, and otherwise what is loaded are the
guesses. So the configuration comes back just if they are right. -/
theorem environment_round_trip (hvalid : c.validate = .ok ()) (hsome : c.numbers ≠ [])
    (hvars : vars.Perm c.toVariables) :
    (LoneNumeral c.numbers → ∃ text, ofEnvironment vars = .error (.config text)) ∧
    (¬LoneNumeral c.numbers → ofEnvironment vars = .ok c.echoed) ∧
    (ofEnvironment vars = .ok c ↔ c.Portable ∧ ¬LoneNumeral c.numbers) := by
  refine ⟨(ofEnvironment_of_lone hvalid · hvars), (ofEnvironment_of_not_lone hvalid hsome · hvars), ?_⟩
  by_cases hlone : LoneNumeral c.numbers
  · obtain ⟨text, herror⟩ := ofEnvironment_of_lone hvalid hlone hvars
    rw [herror]
    exact iff_of_false (by simp) fun h => h.2 hlone
  · rw [ofEnvironment_of_not_lone hvalid hsome hlone hvars, Except.ok.injEq, echoed_eq_iff,
      and_iff_left hlone]

/-- A list of one number that is no numeral is loaded, with all fields set and the variables in
reverse. With a numeral in its place nothing is. -/
theorem environment_round_trip_reversed :
    let c := { standard with
      dtmf := ⟨some .long, 95, 60⟩, numbers := ["*911"]
      logging := { standard.logging with level := "WARN", directory := some "/var/log" } }
    let lone := { c with numbers := ["+911"] }
    (c.validate = .ok () ∧ c.numbers ≠ [] ∧ c.toVariables.reverse.Perm c.toVariables ∧
      ¬LoneNumeral c.numbers ∧ ofEnvironment c.toVariables.reverse = .ok c) ∧
    lone.validate = .ok () ∧ lone.numbers ≠ [] ∧ lone.toVariables.reverse.Perm lone.toVariables ∧
      LoneNumeral lone.numbers ∧
      ∃ text, ofEnvironment lone.toVariables.reverse = .error (.config text) := by
  intro c lone
  have hvalid : c.validate = .ok () := by decide +kernel
  have hvalid' : lone.validate = .ok () := by decide +kernel
  have hperm := List.reverse_perm c.toVariables
  have hperm' := List.reverse_perm lone.toVariables
  have hstar : ¬LoneNumeral c.numbers := by
    rintro ⟨n, hn, hnumeral⟩
    obtain rfl := List.singleton_inj.1 hn
    have hmem : '*' ∈ "*911".toList := by decide
    rcases hnumeral.mem hmem with h | h <;> cases h
  have hnumeral : LoneNumeral lone.numbers :=
    ⟨"+911", rfl, ['9', '1', '1'], by decide, .inr (by decide)⟩
  have hloaded := (environment_round_trip hvalid (List.cons_ne_nil _ _) hperm).2.1 hstar
  have hechoed : c.echoed = c := by decide +kernel
  have herror := (environment_round_trip hvalid' (List.cons_ne_nil _ _) hperm').1 hnumeral
  rw [hechoed] at hloaded
  exact ⟨⟨hvalid, List.cons_ne_nil _ _, hperm, hstar, hloaded⟩, hvalid', List.cons_ne_nil _ _,
    hperm', hnumeral, herror⟩

/-- Two configurations that are fine but do not come back: a single number makes the variables
unreadable, and a node named by digits loses the zeros in front. -/
theorem environment_loses_numerals :
    let lone := { standard with numbers := ["911"] }
    let padded := { standard with general := { standard.general with nodeId := "007" } }
    (lone.validate = .ok () ∧ lone.numbers ≠ [] ∧
      ∃ text, ofEnvironment lone.toVariables = .error (.config text)) ∧
    padded.validate = .ok () ∧ padded.numbers ≠ [] ∧
      ofEnvironment padded.toVariables = .ok { padded with
        general := { padded.general with nodeId := "7" } } ∧
      ofEnvironment padded.toVariables ≠ .ok padded := by
  intro lone padded
  have hlone : lone.validate = .ok () := by decide +kernel
  have hpadded : padded.validate = .ok () := by decide +kernel
  have hnumeral : LoneNumeral lone.numbers := ⟨"911", rfl, _, by decide +kernel, .inl rfl⟩
  have hmany : ¬LoneNumeral padded.numbers := by
    rintro ⟨n, hn, -⟩
    cases hn
  have hloaded := ofEnvironment_of_not_lone hpadded (List.cons_ne_nil _ _) hmany (.refl _)
  rw [show padded.echoed = { padded with general := { padded.general with nodeId := "7" } } by
    decide +kernel] at hloaded
  refine ⟨⟨hlone, List.cons_ne_nil _ _, ofEnvironment_of_lone hlone hnumeral (.refl _)⟩, hpadded,
    List.cons_ne_nil _ _, hloaded, ?_⟩
  rw [hloaded]
  decide +kernel

end Loading

end Config

end CdmaCall
