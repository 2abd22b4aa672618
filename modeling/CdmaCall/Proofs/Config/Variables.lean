import CdmaCall.Proofs.Config.Guessing
import CdmaCall.Proofs.Config.Spelling
import Mathlib.Data.List.Induction

/-!
# A configuration as variables

A configuration is put into an environment with one variable for each field that is set
(`Config.toVariables`). In whatever order the variables come, the values that are collected from them
are a table of sections that holds at each place what the text there is guessed to be (`Holds`): one
variable adds one place and changes no other (`Holds.add`), so all of them add theirs
(`holds_toVariables`).
-/

namespace CdmaCall

namespace Config

section Defs

/-- The fields of all sections; a place is the name of a section and that of a field in it. -/
def places : List (String × String) :=
  sections.flatMap fun (name, layout) => layout.names.map (name, ·)

/-- The text of a field, if it is set. -/
def text? (c : Config) : String × String → Option String
  | ("general", "node_id") => some c.general.nodeId
  | ("general", "description") => some c.general.description
  | ("dtmf", "tone_type") => c.dtmf.toneType.map Named.name
  | ("dtmf", "burst_on_length_ms") => some (toString c.dtmf.onLength.toNat)
  | ("dtmf", "burst_off_length_ms") => some (toString c.dtmf.offLength.toNat)
  | ("call_waiting", "timeout_ms") => some (toString c.timeout.toNat)
  | ("connection", "allow_mute") => some (if c.allowMute then "true" else "false")
  | ("emergency", "numbers") => some (",".intercalate c.numbers)
  | ("logging", "level") => some c.logging.level
  | ("logging", "directory") => c.logging.directory
  | ("logging", "file_prefix") => some c.logging.filePrefix
  | ("logging", "format") => some (Named.name c.logging.format)
  | _ => none

/-- The fields that are set, with their texts. -/
def settings (c : Config) : List ((String × String) × String) :=
  places.filterMap fun place => (c.text? place).map (place, ·)

/-- The variable for a field. -/
def variableFor (setting : (String × String) × String) : String × String :=
  ("CDMA__" ++ setting.1.1.toUpper ++ "__" ++ setting.1.2.toUpper, setting.2)

/-- The variables for a configuration, one for each field that is set. -/
def toVariables (c : Config) : List (String × String) := c.settings.map variableFor

/-- The path of a field. -/
def pathOf (place : String × String) : String := place.1 ++ "." ++ place.2

namespace Environment

/-- The fields of a table; nothing else has any. -/
def entries : Value → List (String × Value)
  | .table fields => fields
  | _ => []

/-- What stands at a place of a table of sections. -/
def valueAt (v : Value) (place : String × String) : Option Value :=
  (entries (((entries v).lookup place.1).getD .null)).lookup place.2

/-- A table of sections with guesses for the settings that have been made, and nothing else. -/
structure Holds (v : Value) (made : List ((String × String) × String)) : Prop where
  table : ∃ fields, v = .table fields
  sections : ∀ name w, (entries v).lookup name = some w → ∃ fields, w = .table fields
  values : ∀ place, valueAt v place = (made.lookup place).map (guess (pathOf place))

/-- The fields of a section are the guesses for its settings. -/
def Guessed (c : Config) (name : String) (fields : List (String × Value)) : Prop :=
  ∀ field, (name, field) ∈ places →
    fields.lookup field = (c.text? (name, field)).map (guess (pathOf (name, field)))

end Environment

end Defs

variable {c : Config} {place : String × String}

/-! ### Settings -/

theorem nodup_places : places.Nodup := by decide

theorem nodup_settings (c : Config) : (c.settings.map Prod.fst).Nodup := by
  rw [settings, List.map_filterMap]
  refine nodup_places.filterMap fun p q r hp hq => ?_
  simp only [Option.map_map, Option.mem_def, Option.map_eq_some_iff, Function.comp] at hp hq
  obtain ⟨-, -, rfl⟩ := hp
  obtain ⟨-, -, rfl⟩ := hq
  rfl

theorem mem_settings {text : String} :
    (place, text) ∈ c.settings ↔ place ∈ places ∧ c.text? place = some text := by
  simp only [settings, List.mem_filterMap, Option.map_eq_some_iff, Prod.mk.injEq]
  constructor
  · rintro ⟨p, hp, t, ht, rfl, rfl⟩
    exact ⟨hp, ht⟩
  · rintro ⟨hp, ht⟩
    exact ⟨place, hp, text, ht, rfl, rfl⟩

theorem lookup_settings (hplace : place ∈ places) : c.settings.lookup place = c.text? place := by
  refine Option.ext fun text => ?_
  rw [lookup_eq_some_iff_mem (nodup_settings c), mem_settings, and_iff_right hplace]

namespace Environment

/-! ### One variable adds one place -/

section Adding

variable {fields : List (String × Value)} {name n : String} {v w : Value}

theorem lookup_setField_self : (setField fields name w).lookup name = some w := by
  induction fields with
  | nil => simp [setField]
  | cons p fields ih =>
    obtain ⟨m, old⟩ := p
    rw [setField]
    split_ifs with hm
    · rw [beq_iff_eq.1 hm, List.lookup_cons_self]
    · rw [lookup_cons_ne (fun h => hm (beq_iff_eq.2 h.symm)), ih]

theorem lookup_setField_ne (h : n ≠ name) : (setField fields name w).lookup n = fields.lookup n := by
  induction fields with
  | nil => rw [setField, lookup_cons_ne h]
  | cons p fields ih =>
    obtain ⟨m, old⟩ := p
    rw [setField]
    split_ifs with hm
    · obtain rfl := beq_iff_eq.1 hm
      rw [lookup_cons_ne h, lookup_cons_ne h]
    · rw [List.lookup_cons, List.lookup_cons, ih]

theorem entries_setAt (name : String) (path : List Part) (v : Value) :
    entries (setAt w (.key name :: path) v) =
      setField (entries v) name (setAt w path (((entries v).lookup name).getD .null)) := by
  cases v <;> rfl

theorem setAt_table (name : String) (path : List Part) (v : Value) :
    ∃ fields, setAt w (.key name :: path) v = .table fields := ⟨_, rfl⟩

/-- Of two places only the one that is written changes. -/
theorem valueAt_setAt (place other : String × String) (v : Value) :
    valueAt (setAt w [.key place.1, .key place.2] v) other =
      if other = place then some w else valueAt v other := by
  obtain ⟨name, field⟩ := place
  obtain ⟨name', field'⟩ := other
  simp only [valueAt, entries_setAt, Prod.mk.injEq]
  by_cases hname : name' = name
  · subst hname
    rw [lookup_setField_self, Option.getD_some, entries_setAt]
    by_cases hfield : field' = field
    · subst hfield
      rw [lookup_setField_self, if_pos ⟨rfl, rfl⟩]
      rfl
    · rw [lookup_setField_ne hfield, if_neg fun h => hfield h.2]
  · rw [lookup_setField_ne hname, if_neg fun h => hname h.1]

theorem add_variableFor (hplace : place ∈ places) (text : String) (v : Value) :
    add v (variableFor (place, text)).1 (variableFor (place, text)).2 =
      setAt (guess (pathOf place) text) [.key place.1, .key place.2] v := by
  have hnames : ∀ p ∈ places, keyOf? ("CDMA__" ++ p.1.toUpper ++ "__" ++ p.2.toUpper) =
      some (pathOf p) ∧ parsePath (pathOf p) = some [.key p.1, .key p.2] := by decide +kernel
  obtain ⟨hkey, hpath⟩ := hnames place hplace
  simp only [add, variableFor, hkey, hpath]

example : variableFor (("call_waiting", "timeout_ms"), "30000") =
    ("CDMA__CALL_WAITING__TIMEOUT_MS", "30000") := by decide +kernel

variable {made : List ((String × String) × String)} {text : String}

theorem Holds.add (h : Holds v made) (hplace : place ∈ places) (hnew : place ∉ made.map Prod.fst) :
    Holds (add v (variableFor (place, text)).1 (variableFor (place, text)).2)
      (made ++ [(place, text)]) := by
  rw [add_variableFor hplace]
  refine ⟨setAt_table _ _ v, fun name w hw => ?_, fun other => ?_⟩
  · rw [entries_setAt] at hw
    by_cases hname : name = place.1
    · rw [hname, lookup_setField_self] at hw
      exact Option.some.inj hw ▸ setAt_table _ _ _
    · rw [lookup_setField_ne hname] at hw
      exact h.sections name w hw
  · rw [valueAt_setAt, List.lookup_append, h.values other]
    split_ifs with hother
    · rw [hother, lookup_eq_none hnew, List.lookup_cons_self]
      rfl
    · rw [List.lookup_cons, beq_eq_false_iff_ne.2 hother, List.lookup_nil, Option.or_none]

end Adding

/-! ### All variables -/

theorem toValue_concat (vars : List (String × String)) (var : String × String) :
    toValue (vars ++ [var]) = add (toValue vars) var.1 var.2 := by
  rw [toValue, List.foldl_append, List.foldl_cons, List.foldl_nil, toValue]

/-- Each setting ends up at its place. -/
theorem holds_toValue (made : List ((String × String) × String))
    (hplaces : ∀ setting ∈ made, setting.1 ∈ places) (hnew : (made.map Prod.fst).Nodup) :
    Holds (toValue (made.map variableFor)) made := by
  -- On the last variable, since the values are collected from the left.
  induction made using List.reverseRecOn with
  | nil => exact ⟨⟨[], rfl⟩, fun _ _ h => (by cases h), fun _ => rfl⟩
  | append_singleton made setting ih =>
    obtain ⟨place, text⟩ := setting
    rw [List.map_append, List.nodup_append] at hnew
    have hbefore := ih (fun s hs => hplaces s (List.mem_append_left _ hs)) hnew.1
    have hplace : place ∈ places := hplaces (place, text) (List.mem_append_right _ (by simp))
    have hother : place ∉ made.map Prod.fst := fun hmem =>
      hnew.2.2 place hmem place (List.mem_singleton_self _) rfl
    rw [List.map_append, List.map_singleton, toValue_concat]
    exact hbefore.add hplace hother

/-- The order of the variables makes no difference. -/
theorem holds_toVariables {vars : List (String × String)} (hvars : vars.Perm c.toVariables) :
    Holds (toValue vars) c.settings := by
  have hcomp := congrFun (congrFun (List.eq_map_comp_perm variableFor) vars) c.settings
  obtain ⟨made, rfl, hmade⟩ := hcomp.mpr hvars
  have hplaces : ∀ setting ∈ made, setting.1 ∈ places := fun s hs =>
    (mem_settings.1 (hmade.mem_iff.1 hs)).1
  have hnew : (made.map Prod.fst).Nodup := (hmade.map Prod.fst).nodup_iff.2 (nodup_settings c)
  obtain ⟨htable, hsections, hvalues⟩ := holds_toValue made hplaces hnew
  exact ⟨htable, hsections, fun place => by rw [hvalues, lookup_perm hnew hmade]⟩

/-- A section with a field that is set is there, with its fields. -/
theorem Holds.exists_guessed {v : Value} (h : Holds v c.settings) (name field : String)
    (hplace : (name, field) ∈ places) (hset : (c.text? (name, field)).isSome) :
    ∃ fields, (entries v).lookup name = some (.table fields) ∧ Guessed c name fields := by
  have hvalues (f : String) (hf : (name, f) ∈ places) :
      valueAt v (name, f) = (c.text? (name, f)).map (guess (pathOf (name, f))) := by
    rw [h.values, lookup_settings hf]
  cases hsection : (entries v).lookup name with
  | none =>
    have hnone := hvalues field hplace
    rw [valueAt, hsection] at hnone
    rw [Option.map_eq_none_iff.1 hnone.symm] at hset
    cases hset
  | some w =>
    obtain ⟨fields, rfl⟩ := h.sections name w hsection
    refine ⟨fields, rfl, fun f hf => ?_⟩
    rw [← hvalues f hf, valueAt, hsection]
    rfl

end Environment

end Config

end CdmaCall
