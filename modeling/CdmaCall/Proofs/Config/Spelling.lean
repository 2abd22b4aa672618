import CdmaCall.Config.Json
import Mathlib.Data.List.Perm.Basic
import Mathlib.Data.List.Nodup
import Mathlib.Logic.Relation

/-!
# Spellings of a configuration in JSON

A configuration can be written down in many ways: fields come in any order, unknown ones may stand
among them, and a field whose value is what its absence stands for may be left out. `Layout.Respells`
lists these steps for one section, `Respells` for a whole value, and `SameSpelling` is what any
number of them leads to, in either direction.

The reader of a section sees only what each name stands for, with the silent values filled in
(`Layout.filled`), and no step changes that (`Layout.Respells.alike`). So all spellings are read
alike (`config_sameSpelling`), and what is written down is one of them (`config_toJson`).
-/

namespace CdmaCall

namespace Config

section Defs

/-- The names of the fields of a section in order, and the values that say no more than it would to
leave the field out. -/
structure Layout where
  names : List String
  silent : List (String × Value) := []

/-- Section `general`. -/
def Layout.general : Layout := { names := ["node_id", "description"] }

/-- Section `dtmf`. -/
def Layout.dtmf : Layout where
  names := ["tone_type", "burst_on_length_ms", "burst_off_length_ms"]
  silent := [("tone_type", .null), ("burst_on_length_ms", .int 0), ("burst_off_length_ms", .int 0)]

/-- A section with one field. -/
def Layout.single (name : String) : Layout := { names := [name] }

/-- Section `logging`. -/
def Layout.logging : Layout where
  names := ["level", "directory", "file_prefix", "format"]
  silent := [("directory", .null)]

/-- The sections in order. -/
def sections : List (String × Layout) := [
  ("general", .general), ("dtmf", .dtmf), ("call_waiting", .single "timeout_ms"),
  ("connection", .single "allow_mute"), ("emergency", .single "numbers"), ("logging", .logging)]

/-- The whole configuration as a section of sections. -/
def root : Layout := { names := sections.map Prod.fst }

/-- Steps from one spelling of a section to another. -/
inductive Layout.Respells (l : Layout) : Value → Value → Prop
  /-- Put the fields in another order; no two of them have the same name. -/
  | reorder {fs gs : List (String × Value)} (hnames : (fs.map Prod.fst).Nodup) (h : fs.Perm gs) :
      Respells l (.table fs) (.table gs)
  /-- Add a field with an unknown name. -/
  | unknown {name : String} (fs : List (String × Value)) (v : Value) (h : name ∉ l.names) :
      Respells l (.table fs) (.table ((name, v) :: fs))
  /-- Add a field that was left out. -/
  | silent {name : String} {v : Value} {fs : List (String × Value)}
      (hleft : name ∉ fs.map Prod.fst) (h : l.silent.lookup name = some v) :
      Respells l (.table fs) (.table ((name, v) :: fs))
  /-- Add an item that was left out at the end of a list. -/
  | last {name : String} {v : Value} {items : List Value}
      (hleft : l.names[items.length]? = some name) (h : l.silent.lookup name = some v) :
      Respells l (.list items) (.list (items ++ [v]))

/-- Steps from one spelling of a configuration to another. -/
inductive Respells : Value → Value → Prop
  | root {v w : Value} (h : root.Respells v w) : Respells v w
  /-- In the field of a section. -/
  | field {name : String} {l : Layout} {v w : Value} (before after : List (String × Value))
      (hname : sections.lookup name = some l) (h : l.Respells v w) :
      Respells (.table (before ++ (name, v) :: after)) (.table (before ++ (name, w) :: after))
  /-- In the item of a section. -/
  | item {name : String} {l : Layout} {v w : Value} (before after : List Value)
      (hname : sections[before.length]? = some (name, l)) (h : l.Respells v w) :
      Respells (.list (before ++ v :: after)) (.list (before ++ w :: after))

/-- Spellings of the same configuration. -/
def SameSpelling : Value → Value → Prop := Relation.EqvGen Respells

/-- What the name of a field stands for, when the field may be left out. -/
def Layout.filled (l : Layout) (f : String → Option Value) (name : String) : Option Value :=
  (f name).or (l.silent.lookup name)

/-- Two values have fields that stand for the same. -/
def Layout.Alike (l : Layout) (v w : Value) : Prop :=
  ∃ f g, json.fields l.names v = some f ∧ json.fields l.names w = some g ∧
    ∀ name ∈ l.names, l.filled f name = l.filled g name

/-- The same for sections that may be missing; a missing section has no fields. -/
def Layout.AlikeAt (l : Layout) (o o' : Option Value) : Prop :=
  o = o' ∨ ∃ v w, o = some v ∧ o' = some w ∧ l.Alike v w

/-- A reader sees only what the fields stand for. -/
def Layout.ReadBy (l : Layout) {α : Type} (read : Value → Option α) : Prop :=
  ∀ ⦃v w : Value⦄, l.Alike v w → read v = read w

end Defs

/-! ### Fields -/

section Lookup

section Keys

variable {κ α : Type} [BEq κ] [LawfulBEq κ] {fs gs : List (κ × α)} {k : κ} {a : α}

theorem lookup_eq_some_iff_mem (hkeys : (fs.map Prod.fst).Nodup) :
    fs.lookup k = some a ↔ (k, a) ∈ fs := by
  induction fs with
  | nil => simp
  | cons p fs ih =>
    obtain ⟨m, b⟩ := p
    rw [List.map_cons, List.nodup_cons] at hkeys
    by_cases hm : k = m
    · subst hm
      have hother (c : α) : (k, c) ∉ fs := fun h =>
        hkeys.1 (List.mem_map.2 ⟨_, h, rfl⟩)
      simp [hother, eq_comm]
    · simp [List.lookup_cons, beq_eq_false_iff_ne.2 hm, ih hkeys.2, hm]

theorem lookup_eq_none (h : k ∉ fs.map Prod.fst) : fs.lookup k = none :=
  List.lookup_eq_none_iff.2 fun _ hp => bne_iff_ne.2 fun heq => h (heq ▸ List.mem_map_of_mem hp)

theorem lookup_perm (hkeys : (fs.map Prod.fst).Nodup) (h : fs.Perm gs) :
    fs.lookup k = gs.lookup k := by
  have hkeys' : (gs.map Prod.fst).Nodup := (h.map Prod.fst).nodup_iff.1 hkeys
  refine Option.ext fun a => ?_
  rw [lookup_eq_some_iff_mem hkeys, lookup_eq_some_iff_mem hkeys', h.mem_iff]

end Keys

variable {fs before after : List (String × Value)} {name n : String} {v w : Value}

theorem lookup_cons_ne (h : n ≠ name) : ((name, v) :: fs).lookup n = fs.lookup n := by
  rw [List.lookup_cons, beq_eq_false_iff_ne.2 h]

theorem lookup_middle_ne (h : n ≠ name) :
    (before ++ (name, v) :: after).lookup n = (before ++ (name, w) :: after).lookup n := by
  rw [List.lookup_append, List.lookup_append, lookup_cons_ne h, lookup_cons_ne h]

/-- A field in the middle is what its name stands for, unless one before it has the same name. -/
theorem lookup_middle (before after : List (String × Value)) (name : String) :
    (∃ u, ∀ v : Value, (before ++ (name, v) :: after).lookup name = some u) ∨
      ∀ v : Value, (before ++ (name, v) :: after).lookup name = some v := by
  cases hbefore : before.lookup name with
  | some u => exact .inl ⟨u, fun v => by rw [List.lookup_append, hbefore, Option.some_or]⟩
  | none =>
    refine .inr fun v => ?_
    rw [List.lookup_append, hbefore, Option.none_or, List.lookup_cons_self]

/-- The item at the position of a name. -/
theorem zip_middle {names : List String} {before after : List Value}
    (h : names[before.length]? = some name) (v : Value) :
    names.zip (before ++ v :: after) = (names.take before.length).zip before ++
      (name, v) :: (names.drop (before.length + 1)).zip after := by
  obtain ⟨hlt, rfl⟩ := List.getElem?_eq_some_iff.1 h
  have hlength : (names.take before.length).length = before.length := by
    rw [List.length_take, Nat.min_eq_left (Nat.le_of_lt hlt)]
  calc names.zip (before ++ v :: after)
      = (names.take before.length ++ names[before.length] ::
          names.drop (before.length + 1)).zip (before ++ v :: after) := by
        rw [← List.drop_eq_getElem_cons hlt, List.take_append_drop]
    _ = _ := by rw [List.zip_append hlength, List.zip_cons_cons]

end Lookup

namespace Layout

variable {l : Layout} {v w : Value}

theorem fields_list {names : List String} {items : List Value} (h : items.length ≤ names.length) :
    json.fields names (.list items) = some (fieldsInOrder names items) := if_pos h

/-- No step changes what the fields stand for. -/
theorem Respells.alike (h : l.Respells v w) : l.Alike v w := by
  cases h with
  | @reorder fs gs hnames hperm =>
    refine ⟨(List.lookup · fs), (List.lookup · gs), rfl, rfl, fun n _ => ?_⟩
    rw [filled, filled, lookup_perm hnames hperm]
  | @unknown name fs u hname =>
    refine ⟨(List.lookup · fs), _, rfl, rfl, fun n hn => ?_⟩
    have hne : n ≠ name := fun h => hname (h ▸ hn)
    rw [filled, filled, lookup_cons_ne hne]
  | @silent name u fs hleft hsilent =>
    refine ⟨(List.lookup · fs), _, rfl, rfl, fun n _ => ?_⟩
    by_cases hn : n = name
    · subst hn
      rw [filled, filled, lookup_eq_none hleft, hsilent, List.lookup_cons_self, Option.none_or, Option.some_or]
    · rw [filled, filled, lookup_cons_ne hn]
  | @last name u items hleft hsilent =>
    obtain ⟨hlt, -⟩ := List.getElem?_eq_some_iff.1 hleft
    have hlonger : (items ++ [u]).length ≤ l.names.length := by
      rw [List.length_append, List.length_singleton]
      exact hlt
    refine ⟨_, _, fields_list (Nat.le_of_lt hlt), fields_list hlonger, fun n _ => ?_⟩
    have hzip : l.names.zip items = (l.names.take items.length).zip items := by
      rw [List.zip_eq_zip_take_min, Nat.min_eq_right (Nat.le_of_lt hlt), List.take_length]
    rw [filled, filled, fieldsInOrder, fieldsInOrder, zip_middle hleft u, hzip, List.zip_nil_right,
      List.lookup_append]
    cases (l.names.take items.length).zip items |>.lookup n with
    | some u' => rfl
    | none =>
      by_cases hn : n = name
      · subst hn
        rw [hsilent, List.lookup_cons_self]
        rfl
      · rw [lookup_cons_ne hn]
        rfl

theorem AlikeAt.required {α : Type} {read : Value → Option α} (hread : l.ReadBy read)
    {o o' : Option Value} (h : l.AlikeAt o o') :
    Dialect.required read o = Dialect.required read o' := by
  rcases h with rfl | ⟨v, w, rfl, rfl, halike⟩
  · rfl
  · exact hread halike

end Layout

/-! ### Readers -/

section Readers

variable {α : Type} {read : Value → Option α} {l : Layout} {f g : String → Option Value}
  {name : String}

/-! A field that must be there, one that may be unset and one with a value to fall back on. -/

theorem eq_of_filled (h : l.filled f name = l.filled g name)
    (hsilent : l.silent.lookup name = none) : f name = g name := by
  rwa [Layout.filled, Layout.filled, hsilent, Option.or_none, Option.or_none] at h

theorem optional_eq_of_filled (read : Value → Option α) (h : l.filled f name = l.filled g name)
    (hsilent : l.silent.lookup name = some .null) :
    json.optional read (f name) = json.optional read (g name) := by
  have hnull (o : Option Value) : json.optional read o = json.optional read (o.or (some .null)) := by
    cases o <;> rfl
  rw [Layout.filled, Layout.filled, hsilent] at h
  rw [hnull (f name), h, ← hnull (g name)]

theorem withDefault_eq_of_filled {v : Value} {standard : α}
    (h : l.filled f name = l.filled g name) (hsilent : l.silent.lookup name = some v)
    (hread : read v = some standard) :
    Dialect.withDefault standard read (f name) = Dialect.withDefault standard read (g name) := by
  have hsame (o : Option Value) : Dialect.withDefault standard read o =
      Dialect.withDefault standard read (o.or (some v)) := by
    cases o with
    | none => exact hread.symm
    | some u => rfl
  rw [Layout.filled, Layout.filled, hsilent] at h
  rw [hsame (f name), h, ← hsame (g name)]

theorem readBy_general : Layout.general.ReadBy json.general := by
  rintro v w ⟨f, g, hf, hg, h⟩
  have hid := eq_of_filled (h "node_id" (by decide)) rfl
  have hdescription := eq_of_filled (h "description" (by decide)) rfl
  rw [Layout.general] at hf hg
  simp only [Dialect.general, hf, hg, hid, hdescription, Option.bind_eq_bind, Option.bind_some]

theorem readBy_single (read : Value → Option α) : (Layout.single name).ReadBy (json.single name read) := by
  rintro v w ⟨f, g, hf, hg, h⟩
  have hfield := eq_of_filled (h name (List.mem_singleton_self name)) rfl
  rw [Layout.single] at hf hg
  simp only [Dialect.single, hf, hg, hfield, Option.bind_eq_bind, Option.bind_some]

theorem readBy_dtmf : Layout.dtmf.ReadBy json.dtmf := by
  rintro v w ⟨f, g, hf, hg, h⟩
  have htone := optional_eq_of_filled (json.oneOf (α := ToneType)) (h "tone_type" (by decide)) rfl
  have hzero : json.word32 (.int 0) = some 0 := rfl
  have hon := withDefault_eq_of_filled (h "burst_on_length_ms" (by decide)) rfl hzero
  have hoff := withDefault_eq_of_filled (h "burst_off_length_ms" (by decide)) rfl hzero
  rw [Layout.dtmf] at hf hg
  simp only [Dialect.dtmf, hf, hg, htone, hon, hoff, Option.bind_eq_bind, Option.bind_some]

theorem readBy_logging : Layout.logging.ReadBy json.logging := by
  rintro v w ⟨f, g, hf, hg, h⟩
  have hlevel := eq_of_filled (h "level" (by decide)) rfl
  have hdirectory := optional_eq_of_filled json.text (h "directory" (by decide)) rfl
  have hprefix := eq_of_filled (h "file_prefix" (by decide)) rfl
  have hformat := eq_of_filled (h "format" (by decide)) rfl
  rw [Layout.logging] at hf hg
  simp only [Dialect.logging, hf, hg, hlevel, hdirectory, hprefix, hformat, Option.bind_eq_bind,
    Option.bind_some]

/-- A configuration is read from what the fields of its sections stand for. -/
theorem config_eq_of_alikeAt {v w : Value} {f g : String → Option Value}
    (hf : json.fields root.names v = some f) (hg : json.fields root.names w = some g)
    (h : ∀ name l, sections.lookup name = some l → l.AlikeAt (f name) (g name)) :
    json.config v = json.config w := by
  have hgeneral := (h "general" _ rfl).required readBy_general
  have hdtmf := (h "dtmf" _ rfl).required readBy_dtmf
  have htimeout := (h "call_waiting" _ rfl).required (readBy_single json.word64)
  have hmute := (h "connection" _ rfl).required (readBy_single json.flag)
  have hnumbers := (h "emergency" _ rfl).required (readBy_single json.texts)
  have hlogging := (h "logging" _ rfl).required readBy_logging
  have hnames : root.names =
      ["general", "dtmf", "call_waiting", "connection", "emergency", "logging"] := rfl
  rw [hnames] at hf hg
  simp only [Dialect.config, hf, hg, hgeneral, hdtmf, htimeout, hmute, hnumbers, hlogging,
    Option.bind_eq_bind, Option.bind_some]

end Readers

/-! ### Spellings are read alike -/

section Spellings

variable {v w : Value} {c : Config}

theorem nodup_sections : (sections.map Prod.fst).Nodup := by decide

/-- A section in the middle changes what its name stands for, and nothing else. -/
theorem alikeAt_middle {name n : String} {l l' : Layout} (before after : List (String × Value))
    (hname : sections.lookup name = some l) (h : l.Alike v w)
    (hn : sections.lookup n = some l') :
    l'.AlikeAt ((before ++ (name, v) :: after).lookup n)
      ((before ++ (name, w) :: after).lookup n) := by
  by_cases hne : n = name
  · subst hne
    obtain rfl : l = l' := Option.some.inj (hname.symm.trans hn)
    rcases lookup_middle before after n with ⟨u, hu⟩ | hhere
    · exact .inl ((hu v).trans (hu w).symm)
    · exact .inr ⟨v, w, hhere v, hhere w, h⟩
  · exact .inl (lookup_middle_ne hne)

theorem config_respells (h : Respells v w) : json.config v = json.config w := by
  cases h with
  | root h =>
    obtain ⟨f, g, hf, hg, halike⟩ := h.alike
    refine config_eq_of_alikeAt hf hg fun name l hname => .inl ?_
    have hroot : name ∈ root.names :=
      List.mem_map.2 ⟨_, (lookup_eq_some_iff_mem nodup_sections).1 hname, rfl⟩
    exact eq_of_filled (halike name hroot) rfl
  | field before after hname h =>
    exact config_eq_of_alikeAt rfl rfl fun n l hn => alikeAt_middle before after hname h.alike hn
  | @item name l v w before after hname h =>
    have hnames : root.names[before.length]? = some name := by
      rw [root, List.getElem?_map, hname, Option.map_some]
    have hlookup : sections.lookup name = some l :=
      (lookup_eq_some_iff_mem nodup_sections).2 (List.mem_of_getElem? hname)
    have hlength : (before ++ w :: after).length = (before ++ v :: after).length := by simp
    by_cases hfits : (before ++ v :: after).length ≤ root.names.length
    · refine config_eq_of_alikeAt (Layout.fields_list hfits)
        (Layout.fields_list (hlength ▸ hfits)) fun n l' hn => ?_
      rw [fieldsInOrder, fieldsInOrder, zip_middle hnames, zip_middle hnames]
      exact alikeAt_middle _ _ hlookup h.alike hn
    · have hnone (items : List Value) (hitems : items.length = (before ++ v :: after).length) :
          json.config (.list items) = none := by
        have hfields : json.fields root.names (.list items) = none := if_neg (hitems ▸ hfits)
        exact congrArg (· >>= _) hfields
      rw [hnone _ rfl, hnone _ hlength]

/-- **All spellings are read alike**, also those that are no configuration. -/
theorem config_sameSpelling (h : SameSpelling v w) : json.config v = json.config w := by
  induction h with
  | rel _ _ h => exact config_respells h
  | refl _ => rfl
  | symm _ _ _ ih => exact ih.symm
  | trans _ _ _ _ _ ih ih' => exact ih.trans ih'

/-! ### What is written is read back -/

theorem oneOf_nameValue_toneType (t : ToneType) : json.oneOf (nameValue t) = some t := by
  cases t <;> rfl

theorem oneOf_nameValue_logFormat (f : LogFormat) : json.oneOf (nameValue f) = some f := by
  cases f <;> rfl

theorem word32_toNat (n : UInt32) : json.word32 (.int n.toNat) = some n := by
  have hfits : (0 : Int) ≤ n.toNat ∧ (n.toNat : Int) ≤ (UInt32.size - 1 : ℕ) := by
    have := n.toNat_lt
    simp only [UInt32.size]
    omega
  simp only [Dialect.word32, json, if_pos hfits, Option.map_some, Int.toNat_natCast,
    UInt32.ofNat_toNat]

theorem word64_toNat (n : UInt64) : json.word64 (.int n.toNat) = some n := by
  have hfits : (0 : Int) ≤ n.toNat ∧ (n.toNat : Int) ≤ (UInt64.size - 1 : ℕ) := by
    have := n.toNat_lt
    simp only [UInt64.size]
    omega
  simp only [Dialect.word64, json, if_pos hfits, Option.map_some, Int.toNat_natCast,
    UInt64.ofNat_toNat]

theorem Dialect.mapM_text {d : Dialect} (htext : ∀ s, d.text (.text s) = some s)
    (ns : List String) : (ns.map Value.text).mapM d.text = some ns := by
  induction ns with
  | nil => rfl
  | cons n ns ih =>
    rw [List.map_cons, List.mapM_cons, ih, htext]
    rfl

theorem texts_map_text (ns : List String) : json.texts (.list (ns.map .text)) = some ns :=
  Dialect.mapM_text (fun _ => rfl) ns

theorem dtmf_written (d : Dtmf) :
    json.dtmf (.table (optionalField "tone_type" nameValue d.toneType ++ [
      ("burst_on_length_ms", .int d.onLength.toNat),
      ("burst_off_length_ms", .int d.offLength.toNat)])) = some d := by
  obtain ⟨tone, on, off⟩ := d
  cases tone with
  | none =>
    show ((json.word32 (.int on.toNat)).bind fun on' =>
      (json.word32 (.int off.toNat)).bind fun off' => some (Dtmf.mk none on' off')) = _
    rw [word32_toNat, word32_toNat]
    rfl
  | some t =>
    show (((json.oneOf (nameValue t)).map some).bind fun t' =>
      (json.word32 (.int on.toNat)).bind fun on' =>
      (json.word32 (.int off.toNat)).bind fun off' => some (Dtmf.mk t' on' off')) = _
    rw [oneOf_nameValue_toneType, word32_toNat, word32_toNat]
    rfl

theorem logging_written (l : Logging) :
    json.logging (.table ([("level", .text l.level)] ++
      optionalField "directory" .text l.directory ++ [
      ("file_prefix", .text l.filePrefix), ("format", nameValue l.format)])) = some l := by
  obtain ⟨level, directory, filePrefix, format⟩ := l
  cases directory with
  | none =>
    show ((json.oneOf (nameValue format)).bind fun format' =>
      some (Logging.mk level none filePrefix format')) = _
    rw [oneOf_nameValue_logFormat]
    rfl
  | some d =>
    show ((json.oneOf (nameValue format)).bind fun format' =>
      some (Logging.mk level (some d) filePrefix format')) = _
    rw [oneOf_nameValue_logFormat]
    rfl

theorem config_toJson (c : Config) : json.config c.toJson = some c := by
  show ((json.dtmf (.table (optionalField "tone_type" nameValue c.dtmf.toneType ++ [
      ("burst_on_length_ms", .int c.dtmf.onLength.toNat),
      ("burst_off_length_ms", .int c.dtmf.offLength.toNat)]))).bind fun dtmf =>
    (json.word64 (.int c.timeout.toNat)).bind fun timeout =>
    (json.texts (.list (c.numbers.map .text))).bind fun numbers =>
    (json.logging (.table ([("level", .text c.logging.level)] ++
      optionalField "directory" .text c.logging.directory ++ [
      ("file_prefix", .text c.logging.filePrefix),
      ("format", nameValue c.logging.format)]))).bind fun logging =>
    some (Config.mk c.general dtmf timeout c.allowMute numbers logging)) = some c
  rw [dtmf_written, word64_toNat, texts_map_text, logging_written]
  rfl

theorem ofJson_eq_ok_iff : ofJson v = .ok c ↔ json.config v = some c := by
  rw [ofJson]
  cases json.config v <;> simp

/-- **A configuration that is written down is read back**, and every value that is read as some
configuration is one of many spellings, all of which are read as the same one. -/
theorem json_round_trip :
    (∀ c : Config, ofJson c.toJson = .ok c) ∧
    ∀ (v : Value) (c : Config), ofJson v = .ok c →
      ofJson c.toJson = .ok c ∧ ∀ w, SameSpelling v w → ofJson w = .ok c := by
  have hwritten (c : Config) : ofJson c.toJson = .ok c := ofJson_eq_ok_iff.2 (config_toJson c)
  refine ⟨hwritten, fun v c h => ⟨hwritten c, fun w hw => ?_⟩⟩
  rw [ofJson_eq_ok_iff] at h ⊢
  rw [← config_sameSpelling hw, h]

/-- The standard configuration with its sections in reverse, an unknown field, a tone type of `null`
and without the first burst length. -/
theorem json_round_trip_reversed :
    let sections := [
      ("comment", .text "no setting"),
      ("logging", .table [("level", .text "info"), ("file_prefix", .text "cdma-connection"),
        ("format", .text "full")]),
      ("emergency", .table [("numbers", .list [.text "911", .text "112"])]),
      ("connection", .table [("allow_mute", .bool true)]),
      ("call_waiting", .table [("timeout_ms", .int 20000)]),
      ("dtmf", .table [("tone_type", .null), ("burst_off_length_ms", .int 0)]),
      ("general", .table [("node_id", .text "cdma-connection-1"),
        ("description", .text "CDMA call signaling controller")])]
    SameSpelling standard.toJson (.table sections) ∧ ofJson standard.toJson = .ok standard ∧
      ofJson (.table sections) = .ok standard := by
  intro sections
  have hsame : SameSpelling standard.toJson (.table sections) := by
    have hfirst : Layout.dtmf.Respells (.table [("burst_off_length_ms", .int 0)])
        (.table [("burst_on_length_ms", .int 0), ("burst_off_length_ms", .int 0)]) :=
      .silent (by decide) rfl
    have htone : Layout.dtmf.Respells (.table [("burst_off_length_ms", .int 0)])
        (.table [("tone_type", .null), ("burst_off_length_ms", .int 0)]) :=
      .silent (by decide) rfl
    have hcomment : root.Respells (.table (sections.drop 1).reverse)
        (.table (("comment", .text "no setting") :: (sections.drop 1).reverse)) :=
      .unknown _ _ (by decide)
    have hreverse : root.Respells
        (.table (("comment", .text "no setting") :: (sections.drop 1).reverse))
        (.table sections) := .reorder (by decide) (List.Perm.cons _ (List.reverse_perm _))
    exact .trans _ _ _ (.symm _ _ (.rel _ _ (.field [_] _ rfl hfirst)))
      (.trans _ _ _ (.rel _ _ (.field [_] _ rfl htone))
      (.trans _ _ _ (.rel _ _ (.root hcomment)) (.rel _ _ (.root hreverse))))
  have hread := json_round_trip.1 standard
  exact ⟨hsame, hread, (json_round_trip.2 _ _ hread).2 _ hsame⟩

end Spellings

end Config

end CdmaCall
