import FieldGraph.Config.Reader
import FieldGraph.Proofs.Json.Written
import FieldGraph.Proofs.Outcome

/-!
# Reloading a configuration

The JSON text of a configuration is read as that configuration with its timeout in whole seconds.
A timeout that comes from a file has no more than that, so only one that a caller gives can lose a
fraction of a second.
-/
namespace FieldGraph

/-! ### Reading written settings -/

theorem SettingKey.ofName?_name (key : SettingKey) : ofName? key.name = some key := by
  cases key <;> decide

namespace Config

variable {s t : Settings} {key : SettingKey} {value : Json} {entries : List (SettingKey × Json)}
  {cs rest : List Char}

def fieldsOf (entries : List (SettingKey × Json)) : List (String × Json) :=
  entries.map fun entry => (entry.1.name, entry.2)

theorem addFields?_fieldsOf_cons (s : Settings) (entry : SettingKey × Json)
    (entries : List (SettingKey × Json)) :
    s.addFields? (fieldsOf (entry :: entries)) =
      (s.add? entry.1 entry.2).bind (·.addFields? (fieldsOf entries)) := by
  rw [fieldsOf, List.map_cons, Settings.addFields?, SettingKey.ofName?_name]
  rfl

theorem readField?_written (hvalue : value.isSimple = true) (hrest : Json.EndsNumber rest) :
    readField? s (Json.stringText key.name ++ ':' :: (value.chars ++ rest)) =
      (s.add? key value).map (·, rest) := by
  have hread := Json.readScalar?_chars hvalue hrest
  simp only [readField?, Json.readKey?_stringText, SettingKey.ofName?_name, readSetting?,
    Json.skipSpaces_chars hvalue, hread, bind, Option.bind_some, pure, Option.map_eq_bind,
    Function.comp_def]

theorem fieldChars_single (entry : SettingKey × Json) (rest : List Char) :
    Json.fieldChars (fieldsOf [entry]) ++ rest =
      Json.stringText entry.1.name ++ ':' :: (entry.2.chars ++ rest) := by
  simp only [fieldsOf, List.map_cons, List.map_nil, Json.fieldChars, List.append_assoc,
    List.cons_append]

theorem fieldChars_cons (entry second : SettingKey × Json) (entries : List (SettingKey × Json))
    (rest : List Char) :
    Json.fieldChars (fieldsOf (entry :: second :: entries)) ++ rest =
      Json.stringText entry.1.name ++ ':' ::
        (entry.2.chars ++ ',' :: (Json.fieldChars (fieldsOf (second :: entries)) ++ rest)) := by
  simp only [fieldsOf, List.map_cons, Json.fieldChars, List.append_assoc, List.cons_append]

theorem readFields?_written (hne : entries ≠ []) {limit : Nat} (hlimit : entries.length ≤ limit)
    (hvalues : ∀ entry ∈ entries, entry.2.isSimple = true) (rest : List Char) :
    readFields? limit s (Json.fieldChars (fieldsOf entries) ++ '\x7d' :: rest) =
      (s.addFields? (fieldsOf entries)).map (·, rest) := by
  induction entries generalizing limit s with
  | nil => exact absurd rfl hne
  | cons entry entries ih =>
    obtain ⟨hvalue, hothers⟩ := List.forall_mem_cons.mp hvalues
    cases limit with
    | zero => simp at hlimit
    | succ limit =>
      rw [addFields?_fieldsOf_cons, readFields?]
      cases entries with
      | nil =>
        have hclose : Json.EndsNumber ('\x7d' :: rest) := Json.endsNumber_cons rest (by decide)
        rw [fieldChars_single, readField?_written hvalue hclose]
        cases s.add? entry.1 entry.2 <;> rfl
      | cons second entries =>
        have hcomma : Json.EndsNumber (',' :: (Json.fieldChars (fieldsOf (second :: entries)) ++
            '\x7d' :: rest)) := Json.endsNumber_cons _ (by decide)
        rw [fieldChars_cons, readField?_written hvalue hcomma]
        cases s.add? entry.1 entry.2 with
        | none => rfl
        | some t => exact ih (List.cons_ne_nil _ _) (Nat.le_of_succ_le_succ hlimit) hothers

theorem length_le_fieldChars (hne : entries ≠ []) :
    entries.length ≤ (Json.fieldChars (fieldsOf entries)).length := by
  induction entries with
  | nil => exact absurd rfl hne
  | cons entry entries ih =>
    cases entries with
    | nil =>
      have h := fieldChars_single entry []
      rw [List.append_nil] at h
      simp only [h, List.length_append, List.length_cons, List.length_nil]
      omega
    | cons second entries =>
      have h := fieldChars_cons entry second entries []
      have hlater := ih (List.cons_ne_nil _ _)
      rw [List.append_nil] at h
      simp only [h, List.length_append, List.length_cons, List.length_nil] at hlater ⊢
      omega

theorem fieldChars_eq_cons (hne : entries ≠ []) (rest : List Char) :
    ∃ cs, Json.fieldChars (fieldsOf entries) ++ rest = '\x22' :: cs := by
  cases entries with
  | nil => exact absurd rfl hne
  | cons entry entries =>
    cases entries with
    | nil => exact ⟨_, fieldChars_single entry rest⟩
    | cons second entries => exact ⟨_, fieldChars_cons entry second entries rest⟩

theorem readSettings?_written (hne : entries ≠ [])
    (hvalues : ∀ entry ∈ entries, entry.2.isSimple = true) (rest : List Char) :
    readSettings? ('\x7b' :: (Json.fieldChars (fieldsOf entries) ++ '\x7d' :: rest)) =
      (Settings.empty.addFields? (fieldsOf entries)).map (·, rest) := by
  have hlimit : entries.length ≤
      (Json.fieldChars (fieldsOf entries) ++ '\x7d' :: rest).length + 1 := by
    have hlength := length_le_fieldChars hne
    rw [List.length_append]
    omega
  have hread := readFields?_written (s := .empty) hne hlimit hvalues rest
  obtain ⟨cs, hcs⟩ := fieldChars_eq_cons hne ('\x7d' :: rest)
  rw [hcs] at hread ⊢
  exact hread

theorem parse?_render (hvalues : ∀ entry ∈ entries, entry.2.isSimple = true) :
    parse? (Json.render (.object (fieldsOf entries))) = ofJson? (.object (fieldsOf entries)) := by
  by_cases hne : entries = []
  · subst hne
    decide
  · have hread := readSettings?_written hne hvalues []
    have htext : (Json.render (.object (fieldsOf entries))).toList =
        '\x7b' :: (Json.fieldChars (fieldsOf entries) ++ ['\x7d']) := by
      rw [Json.render, String.toList_ofList, Json.chars, List.cons_append]
    rw [parse?, htext, hread, ofJson?]
    cases Settings.empty.addFields? (fieldsOf entries) <;> rfl

/-! ### The settings of a configuration -/

variable {c : Config}

def inWholeSeconds (c : Config) : Config :=
  { c with timeout := c.timeout.map fun limit => .ofSeconds limit.seconds }

theorem integerRange_toNat (n : UInt64) : IntegerRange n.toNat := by
  have hn := n.toNat_lt
  unfold IntegerRange
  omega

theorem ofNat_toNat (n : UInt64) : Json.ofNat n.toNat = .integer n.toNat (integerRange_toNat n) := by
  rw [Json.ofNat, Json.ofInt, dif_pos (integerRange_toNat n)]

theorem isSimple_settingJson (c : Config) (key : SettingKey) :
    (c.settingJson key).isSimple = true := by
  cases key with
  | graphName | defaultLabel | ingestWhenEmpty => rfl
  | timeout =>
    rw [settingJson]
    cases c.timeout with
    | none => rfl
    | some limit =>
      dsimp only
      rw [ofNat_toNat]
      rfl
  | dataset =>
    rw [settingJson]
    cases c.dataset <;> rfl

theorem toJson_eq (c : Config) :
    c.toJson = .object (fieldsOf (SettingKey.all.map fun key => (key, c.settingJson key))) := by
  rw [toJson, fieldsOf, List.map_map]
  rfl

theorem add?_timeout (c : Config) (hs : s.timeout = none) :
    s.add? .timeout (c.settingJson .timeout) =
      some { s with timeout := some c.inWholeSeconds.timeout } := by
  cases htimeout : c.timeout with
  | none => simp [settingJson, inWholeSeconds, Settings.add?, Settings.has, hs, htimeout]
  | some limit =>
    simp [settingJson, inWholeSeconds, Settings.add?, Settings.has, hs, htimeout, ofNat_toNat]

theorem add?_dataset (c : Config) (hs : s.dataset = none) :
    s.add? .dataset (c.settingJson .dataset) = some { s with dataset := some c.dataset } := by
  cases hdataset : c.dataset <;>
    simp [settingJson, Settings.add?, Settings.has, hs, hdataset]

theorem ofJson?_toJson (c : Config) : ofJson? c.toJson = some c.inWholeSeconds := by
  have hsettings : Settings.empty.addFields?
      (fieldsOf (SettingKey.all.map fun key => (key, c.settingJson key))) =
        some ⟨some c.graphName, some c.defaultLabel, some c.inWholeSeconds.timeout, some c.dataset,
          some c.ingestWhenEmpty⟩ := by
    simp only [SettingKey.all, List.map_cons, List.map_nil, addFields?_fieldsOf_cons]
    show ((Settings.add? ⟨some c.graphName, some c.defaultLabel, none, none, none⟩ .timeout
      (c.settingJson .timeout)).bind _) = _
    rw [add?_timeout c rfl, Option.bind_some, add?_dataset c rfl]
    rfl
  rw [toJson_eq, ofJson?, hsettings]
  rfl

theorem parse?_toJson (c : Config) : parse? c.toJson.render = some c.inWholeSeconds := by
  have hvalues : ∀ entry ∈ SettingKey.all.map fun key => (key, c.settingJson key),
      entry.2.isSimple = true := by
    intro entry hentry
    obtain ⟨key, -, rfl⟩ := List.mem_map.mp hentry
    exact isSimple_settingJson c key
  rw [toJson_eq, parse?_render hvalues, ← toJson_eq, ofJson?_toJson]

theorem load_toUTF8 {text : String} (path : String) (hparse : parse? text = some c) :
    load path (some text.toUTF8) = .ok c := by
  simp only [load, FileContent.text_toUTF8, hparse, bind, Except.bind, pure, Except.pure]

/-! ### Whole seconds -/

theorem ofSeconds_seconds_eq_iff (limit : Duration) :
    .ofSeconds limit.seconds = limit ↔ limit.nanoseconds = 0 := by
  obtain ⟨seconds, nanoseconds, _⟩ := limit
  simp [Duration.ofSeconds, eq_comm]

theorem inWholeSeconds_eq_self_iff :
    c.inWholeSeconds = c ↔ ∀ limit ∈ c.timeout, limit.nanoseconds = 0 := by
  obtain ⟨graphName, defaultLabel, timeout, dataset, ingestWhenEmpty⟩ := c
  cases timeout with
  | none => simp [inWholeSeconds]
  | some limit => simp [inWholeSeconds, ofSeconds_seconds_eq_iff]

/-- No timeout among the settings has a fraction of a second. -/
def IsWhole (s : Settings) : Prop :=
  ∀ limit, s.timeout = some (some limit) → limit.nanoseconds = 0

theorem isWhole_empty : IsWhole .empty := by
  intro limit h
  cases h

/-- A setting keeps the timeout, takes it away or gives one in whole seconds. -/
theorem timeout_of_add (h : s.add? key value = some t) :
    t.timeout = s.timeout ∨ t.timeout = some none ∨
      ∃ n, t.timeout = some (some (.ofSeconds n)) := by
  simp only [Settings.add?] at h
  split at h
  case isTrue => cases h
  case isFalse =>
    split at h
    case h_3 =>
      cases h
      exact .inr (.inl rfl)
    case h_4 =>
      split_ifs at h
      cases h
      exact .inr (.inr ⟨_, rfl⟩)
    case h_8 => cases h
    -- The other settings leave the timeout as it is.
    all_goals
      cases h
      exact .inl rfl

theorem isWhole_add (hs : IsWhole s) (h : s.add? key value = some t) : IsWhole t := by
  intro limit hlimit
  rcases timeout_of_add h with hkept | hnone | ⟨n, hgiven⟩
  · exact hs limit (hkept ▸ hlimit)
  · rw [hnone] at hlimit
    cases hlimit
  · rw [hgiven] at hlimit
    cases hlimit
    rfl

theorem isWhole_readSetting (hs : IsWhole s) (h : readSetting? s key cs = some (t, rest)) :
    IsWhole t := by
  simp only [readSetting?, bind, pure, Option.bind_eq_some_iff] at h
  obtain ⟨⟨value, others⟩, -, next, hadd, h⟩ := h
  cases h
  exact isWhole_add hs hadd

theorem isWhole_readField (hs : IsWhole s) (h : readField? s cs = some (t, rest)) : IsWhole t := by
  simp only [readField?, bind, Option.bind_eq_some_iff] at h
  obtain ⟨⟨name, others⟩, -, h⟩ := h
  split at h
  · exact isWhole_readSetting hs h
  · obtain ⟨_, -, h⟩ := Option.bind_eq_some_iff.mp h
    cases h
    exact hs

theorem isWhole_readFields {limit : Nat} (hs : IsWhole s)
    (h : readFields? limit s cs = some (t, rest)) : IsWhole t := by
  induction limit generalizing s cs with
  | zero => cases h
  | succ limit ih =>
    simp only [readFields?, bind, Option.bind_eq_some_iff] at h
    obtain ⟨⟨next, others⟩, hfield, h⟩ := h
    have hnext := isWhole_readField hs hfield
    split at h
    · cases h
      exact hnext
    · exact ih hnext h
    · cases h

theorem isWhole_readItems {keys : List SettingKey} (hs : IsWhole s)
    (h : readItems? s keys cs = some (t, rest)) : IsWhole t := by
  induction keys generalizing s cs with
  | nil => cases h
  | cons key keys ih =>
    simp only [readItems?, bind, Option.bind_eq_some_iff] at h
    obtain ⟨⟨next, others⟩, hsetting, h⟩ := h
    have hnext := isWhole_readSetting hs hsetting
    split at h
    · cases h
      exact hnext
    · exact ih hnext h
    · cases h

theorem isWhole_readSettings (h : readSettings? cs = some (t, rest)) : IsWhole t := by
  simp only [readSettings?] at h
  split at h
  · split at h
    · cases h
      exact isWhole_empty
    · exact isWhole_readFields isWhole_empty h
  · split at h
    · cases h
      exact isWhole_empty
    · exact isWhole_readItems isWhole_empty h
  · cases h

theorem toConfig_whole (hs : IsWhole s) : ∀ limit ∈ s.toConfig.timeout, limit.nanoseconds = 0 := by
  intro limit hlimit
  cases htimeout : s.timeout with
  | none =>
    simp only [Settings.toConfig, htimeout, Option.getD_none, Option.mem_some_iff] at hlimit
    subst hlimit
    rfl
  | some given =>
    simp only [Settings.toConfig, htimeout, Option.getD_some, Option.mem_def] at hlimit
    exact hs limit (by rw [htimeout, hlimit])

/-- The timeout in a file is in whole seconds, and so is the one that holds without it. -/
theorem load_whole {path : String} {content : FileContent} (h : load path content = .ok c) :
    ∀ limit ∈ c.timeout, limit.nanoseconds = 0 := by
  obtain ⟨text, -, h⟩ := bind_eq_ok.mp h
  split at h
  case h_2 => cases h
  case h_1 config hparse =>
    cases h
    simp only [parse?] at hparse
    split at hparse
    · split_ifs at hparse
      cases hparse
      rename_i hread _
      exact toConfig_whole (isWhole_readSettings hread)
    · cases hparse

/-- The timeout after changes is the one before them or one that was given. -/
theorem timeout_changed (c : Config) (changes : List Change) :
    (c.changed changes).timeout = c.timeout ∨
      .timeout (c.changed changes).timeout ∈ changes := by
  induction changes generalizing c with
  | nil => exact .inl rfl
  | cons change changes ih =>
    rw [changed, List.foldl_cons, ← changed]
    rcases ih (c.change change) with hkept | hgiven
    · rw [hkept]
      cases change with
      | timeout limit => exact .inr List.mem_cons_self
      | graphName | defaultLabel | dataset | ingestWhenEmpty => exact .inl rfl
    · exact .inr (List.mem_cons_of_mem _ hgiven)

/-! ### Reloading -/

/-- A configuration that was read from a file and then changed is reloaded from its JSON text with
everything but fractions of a second in its timeout. Only a caller can have given such a fraction. -/
theorem reloaded_in_whole_seconds {path : String} {content : FileContent} {base : Config}
    (hload : load path content = .ok base) (changes : List Change) (file : String) :
    load file (some (base.changed changes).toJson.render.toUTF8) =
        .ok (base.changed changes).inWholeSeconds ∧
      ofJson? (base.changed changes).toJson = some (base.changed changes).inWholeSeconds ∧
      ((base.changed changes).inWholeSeconds = base.changed changes ↔
        ∀ limit ∈ (base.changed changes).timeout, limit.nanoseconds = 0) ∧
      ((∀ limit, .timeout (some limit) ∈ changes → limit.nanoseconds = 0) →
        (base.changed changes).inWholeSeconds = base.changed changes) := by
  refine ⟨load_toUTF8 file (parse?_toJson _), ofJson?_toJson _, inWholeSeconds_eq_self_iff, ?_⟩
  intro hchanges
  refine inWholeSeconds_eq_self_iff.mpr fun limit hlimit => ?_
  rcases timeout_changed base changes with hkept | hgiven
  · rw [hkept] at hlimit
    exact load_whole hload limit hlimit
  · rw [Option.mem_def.mp hlimit] at hgiven
    exact hchanges limit hgiven

def sayariText : String :=
  "\x7b\x22graph_name\x22: \x22sayari\x22, \x22statement_timeout\x22: 5, " ++
    "\x22dataset\x22: \x22data.json\x22\x7d"

def sayari : Config where
  graphName := "sayari"
  defaultLabel := FieldGraph.defaultLabel
  timeout := some (.ofSeconds 5)
  dataset := some "data.json"
  ingestWhenEmpty := true

/-- Five seconds from a file are kept; of a second and a half, one second is. -/
theorem sayari_reloaded :
    load "config.json" (some sayariText.toUTF8) = .ok sayari ∧
      load "config.json" (some sayari.toJson.render.toUTF8) = .ok sayari ∧
      load "config.json" (some (sayari.changed
          [.ingestWhenEmpty false, .timeout (some (.ofMilliseconds 1500))]).toJson.render.toUTF8) =
        .ok { sayari with timeout := some (.ofSeconds 1), ingestWhenEmpty := false } := by
  have hload : load "config.json" (some sayariText.toUTF8) = .ok sayari :=
    load_toUTF8 _ (by decide +kernel)
  refine ⟨hload, ?_, ?_⟩
  · obtain ⟨hreloaded, -, -, hkept⟩ := reloaded_in_whole_seconds hload [] "config.json"
    rw [hkept (by simp)] at hreloaded
    exact hreloaded
  · exact (reloaded_in_whole_seconds hload
      [.ingestWhenEmpty false, .timeout (some (.ofMilliseconds 1500))] "config.json").1

/-- A timeout of half a second is reloaded as no time at all. -/
theorem half_second_lost :
    load "config.json" (some "\x7b\x7d".toUTF8) = .ok Config.default ∧
      load "config.json" (some (Config.default.changed
          [.timeout (some (.ofMilliseconds 500))]).toJson.render.toUTF8) =
        .ok { Config.default with timeout := some (.ofSeconds 0) } ∧
      { Config.default with timeout := some (.ofSeconds 0) } ≠
        Config.default.changed [.timeout (some (.ofMilliseconds 500))] :=
  ⟨load_toUTF8 _ (by decide), load_toUTF8 _ (parse?_toJson _), by decide⟩

end Config

end FieldGraph
