import Chip8.Proofs.Choices

/-!
# Settings of a configuration

A configuration is read from settings, and tells its own. What it is read from need not be written
as it tells it: a choice may be given as anything that is equal to it, options have names of their
own, and what is left out or null is the default. Settings that are refused are so with a text that
names the first value that is wrong, if that value has a text.

* `Acceptable`, `Follows`: settings that are read, and what a configuration has from them;
* `ConfigError.Concerns`: the first thing that is wrong with settings that are refused;
* `RestatedBy`: options that say what a configuration says;
* `Reported`, `Unnamed`: settings that are read or refused with a text, and those whose refusal has
  to name a value that has no text;
* `settings_round_trip`: which settings are read and which are refused with a text, and that a
  configuration is read back from its own settings and from options that restate it.
-/

namespace Chip8

namespace Config

/-! ### Settings -/

/-- Settings are acceptable if the load offset, if it is given, is the number of an address, and
    each choice that is given is equal to one of the two that there are. -/
structure Acceptable (settings : Dictionary) : Prop where
  offset : ∀ v, (loadOffsetName, v) ∈ settings.fields → IsLoadOffset v
  choices : ∀ t v, (Topic.settingName t, v) ∈ settings.fields → t.Allows v

/-- A configuration follows settings: it has the load offset and the choices that are given, and
    the defaults of what is not given. -/
structure Follows (c : Config) (settings : Dictionary) : Prop extends Acceptable settings where
  givenOffset : ∀ v, (loadOffsetName, v) ∈ settings.fields → v = .number (.whole c.loadOffset)
  standardOffset : loadOffsetName ∉ settings.names → c.loadOffset = standardLoadOffset
  givenChoice : ∀ t v, (Topic.settingName t, v) ∈ settings.fields → c.choice t = t.kept v
  standardChoice : ∀ t, Topic.settingName t ∉ settings.names → c.choice t = t.kept t.choices.1

end Config

/-- A refusal is for the first thing that is wrong: the load offset that is given, or a choice
    while the load offset and the choices looked at before are fine. -/
def ConfigError.Concerns (settings : Dictionary) : ConfigError → Prop
  | loadOffset => ∃ v, (Config.loadOffsetName, v) ∈ settings.fields ∧ ¬Config.IsLoadOffset v
  | choice t v =>
    (∀ w, (Config.loadOffsetName, w) ∈ settings.fields → Config.IsLoadOffset w) ∧
      (∀ u ∈ t.earlier, ∀ w, (u.settingName, w) ∈ settings.fields → u.Allows w) ∧
      (t.settingName, v) ∈ settings.fields ∧ ¬t.Allows v
  | unknownSetting _ => False

/-- There is one first thing that is wrong. -/
theorem ConfigError.Concerns.unique {settings : Dictionary} {e e' : ConfigError}
    (h : e.Concerns settings) (h' : e'.Concerns settings) : e = e' := by
  cases e with
  | unknownSetting => exact h.elim
  | loadOffset =>
    cases e' with
    | unknownSetting => exact h'.elim
    | loadOffset => rfl
    | choice t v =>
      obtain ⟨w, hw, hnot⟩ := h
      exact absurd (h'.1 w hw) hnot
  | choice t v =>
    obtain ⟨hoffset, hearlier, hv, hnot⟩ := h
    cases e' with
    | unknownSetting => exact h'.elim
    | loadOffset =>
      obtain ⟨w, hw, hnot'⟩ := h'
      exact absurd (hoffset w hw) hnot'
    | choice u w =>
      obtain ⟨-, hearlier', hw, hnot'⟩ := h'
      rcases Topic.eq_or_earlier t u with rfl | hlt | hlt
      · have hsame := Dictionary.lookup_eq_some_iff.2 hw
        rw [Dictionary.lookup_eq_some_iff.2 hv] at hsame
        rw [Option.some_inj.1 hsame]
      -- Otherwise the later of the two was looked at while the earlier one was fine.
      · exact absurd (hearlier' t hlt v hv) hnot
      · exact absurd (hearlier u hlt w hw) hnot'

namespace Config

variable {settings d : Dictionary} {c : Config} {e : ConfigError} {name : String} {v : Value}
  {t : Topic}

theorem ofSettings_eq_read (hnames : settings.names ⊆ settingNames) :
    ofSettings settings.fields =
      read (lookup settings.fields loadOffsetName) fun t =>
        lookup settings.fields t.settingName := by
  have hknown : settings.fields.find? (fun field => !settingNames.contains field.1) = none := by
    rw [List.find?_eq_none]
    intro field hfield
    have hmem : field.1 ∈ settingNames := hnames (List.mem_map_of_mem hfield)
    simp [hmem]
  rw [ofSettings, hknown]

/-- A configuration that is read follows its settings. -/
theorem follows_of_ofSettings (hnames : settings.names ⊆ settingNames)
    (h : ofSettings settings.fields = .ok c) : c.Follows settings := by
  rw [ofSettings_eq_read hnames] at h
  have hcase := readCase (lookup settings.fields loadOffsetName) fun t =>
    lookup settings.fields t.settingName
  rw [h] at hcase
  cases hcase with
  | read hfirst hchoices =>
    have hoffset := readLoadOffset_eq_ok_iff.1 hfirst
    have hgiven : ∀ v, (loadOffsetName, v) ∈ settings.fields →
        v = .number (.whole c.loadOffset) := by
      intro v hv
      rwa [Dictionary.lookup_eq_some_iff.2 hv] at hoffset
    have hchosen : ∀ t v, (Topic.settingName t, v) ∈ settings.fields →
        readChoice t v = .ok (c.takesSecond t) := by
      intro t v hv
      have hchoice := hchoices t
      rwa [chosen, Dictionary.lookup_eq_some_iff.2 hv] at hchoice
    refine ⟨⟨fun v hv => ?_, fun t v hv => (readChoice_eq_ok (hchosen t v hv)).1⟩, hgiven,
      fun hnone => ?_, fun t v hv => ?_, fun t hnone => ?_⟩
    · rw [Dictionary.lookup_eq_some_iff.2 hv] at hfirst
      exact isLoadOffset_of_read hfirst
    · rw [Dictionary.lookup_eq_none_iff.2 hnone] at hoffset
      injection hoffset with hoffset
      injection hoffset with hoffset
      exact (Int.natCast_inj.1 hoffset).symm
    · rw [choice_eq, (readChoice_eq_ok (hchosen t v hv)).2]
    · have hchoice := hchoices t
      rw [chosen, Dictionary.lookup_eq_none_iff.2 hnone] at hchoice
      rw [choice_eq, ← (readChoice_eq_ok hchoice).2]
      rfl

theorem concerns_of_ofSettings (hnames : settings.names ⊆ settingNames)
    (h : ofSettings settings.fields = .error e) : e.Concerns settings := by
  rw [ofSettings_eq_read hnames] at h
  have hcase := readCase (lookup settings.fields loadOffsetName) fun t =>
    lookup settings.fields t.settingName
  rw [h] at hcase
  cases hcase with
  | offset hoffset =>
    obtain ⟨v, hgiven, rfl, hnot⟩ := offset_eq_error hoffset
    exact ⟨v, Dictionary.lookup_eq_some_iff.1 hgiven, hnot⟩
  | choice hfirst hearlier hchoice =>
    obtain ⟨v, hgiven, rfl, hnot⟩ := chosen_eq_error hchoice
    refine ⟨fun w hw => ?_, fun u hu w hw => ?_, Dictionary.lookup_eq_some_iff.1 hgiven, hnot⟩
    · obtain ⟨a, ha⟩ := hfirst
      rw [Dictionary.lookup_eq_some_iff.2 hw] at ha
      exact isLoadOffset_of_read ha
    · obtain ⟨b, hb⟩ := hearlier u hu
      rw [chosen, Dictionary.lookup_eq_some_iff.2 hw] at hb
      exact (readChoice_eq_ok hb).1

theorem Acceptable.not_concerns (h : Acceptable settings) : ¬e.Concerns settings := by
  cases e with
  | loadOffset => exact fun ⟨v, hv, hnot⟩ => hnot (h.offset v hv)
  | choice t v => exact fun ⟨_, _, hv, hnot⟩ => hnot (h.choices t v hv)
  | unknownSetting => exact id

/-- Settings are refused just for the first that is wrong. -/
theorem ofSettings_eq_error_iff (hnames : settings.names ⊆ settingNames) :
    ofSettings settings.fields = .error e ↔ e.Concerns settings := by
  refine ⟨concerns_of_ofSettings hnames, fun h => ?_⟩
  rcases hread : ofSettings settings.fields with e' | c
  · rw [(concerns_of_ofSettings hnames hread).unique h]
  · exact absurd h (follows_of_ofSettings hnames hread).toAcceptable.not_concerns

/-! ### Settings told by a configuration -/

/-- The name of the option that stands for a setting. -/
def optionFor (name : String) : String :=
  if "_quirk".toList <:+ name.toList then name ++ "s" else name

theorem optionFor_settingName (t : Topic) : optionFor t.settingName = t.optionName := by
  cases t <;> decide

theorem renamed_settings (c : Config) :
    c.settings.map (fun field => (optionFor field.1, field.2)) =
      (loadOffsetName, .number (.whole c.loadOffset)) ::
        Topic.all.map fun t => (t.optionName, c.choice t) := by
  have hoffset : optionFor loadOffsetName = loadOffsetName := by decide
  rw [settings, List.map_cons, List.map_map, hoffset]
  refine congrArg _ (List.map_congr_left fun t _ => ?_)
  rw [Function.comp_apply, optionFor_settingName]

/-- The settings of a configuration under the names of options. -/
def options (c : Config) : Dictionary where
  fields := c.settings.map fun field => (optionFor field.1, field.2)
  nodup := by
    rw [renamed_settings]
    change (loadOffsetName :: Topic.all.map Topic.optionName).Nodup
    decide

theorem fields_options (c : Config) :
    c.options.fields =
      (loadOffsetName, .number (.whole c.loadOffset)) ::
        Topic.all.map fun t => (t.optionName, c.choice t) :=
  c.renamed_settings

/-- Options restate a configuration if they have all of its settings, but for those at their
    default, which may be left out or null. They may have others, which do not matter. -/
def RestatedBy (c : Config) (d : Dictionary) : Prop :=
  ∀ field ∈ c.options.fields, field ∈ d.fields ∨
    field ∈ ({} : Config).options.fields ∧
      (field.1 ∉ d.names ∨ (field.1, .null) ∈ d.fields)

theorem readChoice_choice (c : Config) (t : Topic) :
    readChoice t (c.choice t) = .ok (c.takesSecond t) := by
  obtain ⟨_, ⟨shift, advance, edges, flags, jump⟩, _, _⟩ := c
  cases t with
  | shift => cases shift <;> rfl
  | storeLoad => cases advance <;> rfl
  | drawWrap => cases edges <;> rfl
  | addIndex => cases flags <;> rfl
  | jump => cases jump <;> rfl

theorem mem_options_offset_iff :
    (loadOffsetName, v) ∈ c.options.fields ↔ v = .number (.whole c.loadOffset) := by
  have hlookup : lookup c.options.fields loadOffsetName = some (.number (.whole c.loadOffset)) := by
    rw [fields_options]
    rfl
  rw [← Dictionary.lookup_eq_some_iff, hlookup, Option.some_inj, eq_comm]

theorem mem_options_choice_iff : (t.optionName, v) ∈ c.options.fields ↔ v = c.choice t := by
  have hlookup : lookup c.options.fields t.optionName = some (c.choice t) := by
    rw [fields_options]
    cases t <;> rfl
  rw [← Dictionary.lookup_eq_some_iff, hlookup, Option.some_inj, eq_comm]

/-- A setting that is restated is given, or it is the default and nothing is given. -/
theorem RestatedBy.given (h : c.RestatedBy d) (hfield : (name, v) ∈ c.options.fields)
    (hv : v ≠ .null) :
    Config.given (lookup d.fields name) = some v ∨
      Config.given (lookup d.fields name) = none ∧ (name, v) ∈ ({} : Config).options.fields := by
  rcases h _ hfield with hgiven | ⟨hdefault, hmissing | hnull⟩
  · rw [Dictionary.lookup_eq_some_iff.2 hgiven]
    refine .inl ?_
    cases v <;> first | rfl | exact absurd rfl hv
  · rw [Dictionary.lookup_eq_none_iff.2 hmissing]
    exact .inr ⟨rfl, hdefault⟩
  · rw [Dictionary.lookup_eq_some_iff.2 hnull]
    exact .inr ⟨rfl, hdefault⟩

theorem choice_ne_null (c : Config) (t : Topic) : c.choice t ≠ .null := by
  cases t <;> nofun

/-- A configuration is read from its own settings. -/
theorem ofSettings_settings (c : Config) : ofSettings c.settings = .ok c := by
  have hread : ofSettings c.settings =
      read (lookup c.settings loadOffsetName) fun t => lookup c.settings t.settingName := rfl
  rw [hread]
  refine read_eq_ok (readLoadOffset_eq_ok_iff.2 rfl) fun t => ?_
  have hlookup : lookup c.settings t.settingName = some (c.choice t) := by
    cases t <;> rfl
  rw [chosen, hlookup]
  exact c.readChoice_choice t

/-- A configuration is read from options that restate it. -/
theorem RestatedBy.ofOptions (h : c.RestatedBy d) : ofOptions d.fields = .ok c := by
  refine read_eq_ok (readLoadOffset_eq_ok_iff.2 ?_) fun t => ?_
  · rcases h.given (mem_options_offset_iff.2 rfl) nofun with hgiven | ⟨hnone, hdefault⟩
    · rw [hgiven]
      rfl
    · rw [hnone]
      exact (mem_options_offset_iff.1 hdefault).symm
  · rcases h.given (mem_options_choice_iff.2 rfl) (c.choice_ne_null t) with
      hgiven | ⟨hnone, hdefault⟩
    · rw [chosen, hgiven]
      exact c.readChoice_choice t
    · have hfirst : c.takesSecond t = false := by
        have hread := c.readChoice_choice t
        rw [mem_options_choice_iff.1 hdefault, readChoice_choice] at hread
        rw [← Except.ok.inj hread]
        cases t <;> rfl
      rw [chosen, hnone, hfirst]
      cases t <;> rfl

/-! ### Refusals with a text -/

/-- Settings are read, or refused with a text. -/
def Reported (settings : Dictionary) : Prop :=
  (∃ c, ofSettings settings.fields = .ok c) ∨
    ∃ e message, ofSettings settings.fields = .error e ∧ e.message? = some message

/-- The first thing that is wrong is a choice given as a value that has no text. -/
def Unnamed (settings : Dictionary) : Prop :=
  ∃ t v, (ConfigError.choice t v).Concerns settings ∧ v.Overlong

theorem exists_shown_choices (t : Topic) :
    (∃ first, t.choices.1.shown? = some first) ∧ ∃ second, t.choices.2.shown? = some second := by
  rw [← Option.ne_none_iff_exists', ← Option.ne_none_iff_exists', ne_eq, ne_eq,
    Value.shown?_eq_none_iff, Value.shown?_eq_none_iff]
  exact t.not_overlong_choices

/-- The refusal of a choice has a text if the value does. -/
theorem message_choice_eq_none_iff :
    (ConfigError.choice t v).message? = none ↔ v.Overlong := by
  obtain ⟨⟨first, hfirst⟩, second, hsecond⟩ := exists_shown_choices t
  rw [← Value.shown?_eq_none_iff, ConfigError.message?, hfirst, hsecond]
  cases v.shown? <;> simp

theorem reported_iff_not_unnamed (hnames : settings.names ⊆ settingNames) :
    Reported settings ↔ ¬Unnamed settings := by
  constructor
  · rintro hreported ⟨t, v, hconcerns, hlong⟩
    have herror := (ofSettings_eq_error_iff hnames).2 hconcerns
    rcases hreported with ⟨c, hok⟩ | ⟨e, message, he, hmessage⟩
    · cases herror.symm.trans hok
    · cases herror.symm.trans he
      cases hmessage.symm.trans (message_choice_eq_none_iff.2 hlong)
  · intro hnot
    rcases hread : ofSettings settings.fields with e | c
    · have hconcerns := concerns_of_ofSettings hnames hread
      cases e with
      | unknownSetting => exact hconcerns.elim
      | loadOffset => exact .inr ⟨_, _, hread, rfl⟩
      | choice t v =>
        have hshort : ¬v.Overlong := fun hlong => hnot ⟨t, v, hconcerns, hlong⟩
        rw [← message_choice_eq_none_iff (t := t), ← ne_eq, Option.ne_none_iff_exists'] at hshort
        obtain ⟨message, hmessage⟩ := hshort
        exact .inr ⟨_, message, hread, hmessage⟩
    · exact .inl ⟨c, hread⟩

/-- Configurations and their settings. Settings of known names, with values of any kind, are read
    if and only if the load offset that is given is an address for programs and each choice that
    is given is equal to one of the two that there are. The configuration then follows them; else
    the refusal is for the first of the values given that is wrong, and has a text unless that is a
    choice with a number of too many digits in it. And every configuration is read back, the very
    same, from the settings that it tells and from options that restate them. -/
theorem settings_round_trip (settings : Dictionary) (hnames : settings.names ⊆ settingNames) :
    (Reported settings ↔ ¬Unnamed settings) ∧
      ((∃ c, ofSettings settings.fields = .ok c) ↔ Acceptable settings) ∧
      (∀ c, ofSettings settings.fields = .ok c → c.Follows settings) ∧
      (∀ e, ofSettings settings.fields = .error e ↔ e.Concerns settings) ∧
      ∀ c : Config, ofSettings c.settings = .ok c ∧
        ∀ d : Dictionary, c.RestatedBy d → ofOptions d.fields = .ok c := by
  refine ⟨reported_iff_not_unnamed hnames,
    ⟨fun ⟨c, hc⟩ => (follows_of_ofSettings hnames hc).toAcceptable, fun h => ?_⟩,
    fun c => follows_of_ofSettings hnames, fun e => ofSettings_eq_error_iff hnames,
    fun c => ⟨c.ofSettings_settings, fun d hd => hd.ofOptions⟩⟩
  rcases hread : ofSettings settings.fields with e | c
  · exact absurd (concerns_of_ofSettings hnames hread) h.not_concerns
  · exact ⟨c, rfl⟩

/-- Settings for programs of an ETI 660, one of them given as a fraction. -/
def etiSettings : Dictionary where
  fields := [("jump_quirk", .text "vx"), ("load_offset", .number (.whole 0x600)),
    ("store_load_increment_quirk", .number (.real 1.0))]
  nodup := by decide

/-- The configuration that they give. -/
def eti : Config where
  loadOffset := 0x600
  dialect := { advanceIndex := true, jump := .vx }

/-- Options of a command line for it: defaults are null or left out, and there is another one. -/
def etiOptions : Dictionary where
  fields := [("filename", .text "game.ch8"), ("shift_quirks", .null), ("jump_quirks", .text "vx"),
    ("store_load_increment_quirks", .flag true), ("load_offset", .number (.whole 0x600))]
  nodup := by decide

/-- The settings are read, and the options as the same configuration. -/
theorem settings_round_trip_eti :
    etiSettings.names ⊆ settingNames ∧ ofSettings etiSettings.fields = .ok eti ∧
      Acceptable etiSettings ∧ eti.RestatedBy etiOptions ∧
      ofOptions etiOptions.fields = .ok eti := by
  have hnames : etiSettings.names ⊆ settingNames := by decide
  have hread : ofSettings etiSettings.fields = .ok eti := rfl
  have hrestated : eti.RestatedBy etiOptions := by
    intro field hfield
    rw [fields_options] at hfield
    simp only [Topic.all, List.map_cons, List.map_nil, List.mem_cons, List.not_mem_nil,
      or_false] at hfield
    rcases hfield with rfl | rfl | rfl | rfl | rfl | rfl
    · exact .inl (.tail _ (.tail _ (.tail _ (.tail _ (.head _)))))
    · exact .inr ⟨mem_options_choice_iff.2 rfl, .inr (.tail _ (.head _))⟩
    · exact .inl (.tail _ (.tail _ (.tail _ (.head _))))
    · exact .inr ⟨mem_options_choice_iff.2 rfl, .inl (by decide)⟩
    · exact .inr ⟨mem_options_choice_iff.2 rfl, .inl (by decide)⟩
    · exact .inl (.tail _ (.tail _ (.head _)))
  obtain ⟨-, hiff, -, -, hback⟩ := settings_round_trip etiSettings hnames
  exact ⟨hnames, hread, hiff.1 ⟨eti, hread⟩, hrestated, (hback eti).2 etiOptions hrestated⟩

/-- A shift given as a number with one digit too many. -/
def longShift : Dictionary where
  fields := [("shift_quirk", .number (.whole (10 ^ Numeral.digitLimit)))]
  nodup := List.nodup_singleton _

/-- It is refused, as it should be, but without a text. -/
theorem not_reported_longShift :
    longShift.names ⊆ settingNames ∧ ¬Acceptable longShift ∧ ¬Reported longShift := by
  have hnames : longShift.names ⊆ settingNames := by decide
  have hlong : (Value.number (.whole (10 ^ Numeral.digitLimit))).Overlong := by
    refine .whole ?_
    rw [Nat.lt_digits_length_iff (by decide), Int.natAbs_pow]
    exact Nat.pow_le_pow_left (by decide) _
  have hgiven : (Topic.shift.settingName, .number (.whole (10 ^ Numeral.digitLimit))) ∈
      longShift.fields := List.mem_singleton_self _
  have hconcerns : (ConfigError.choice .shift (.number (.whole (10 ^ Numeral.digitLimit)))).Concerns
      longShift := by
    refine ⟨fun w hw => ?_, List.forall_mem_nil _, hgiven, hlong.not_allows⟩
    have hname : loadOffsetName = "shift_quirk" := congrArg Prod.fst (List.mem_singleton.1 hw)
    exact absurd hname (by decide)
  refine ⟨hnames, fun h => hlong.not_allows (h.choices .shift _ hgiven), ?_⟩
  rw [reported_iff_not_unnamed hnames, not_not]
  exact ⟨.shift, _, hconcerns, hlong⟩

end Config

end Chip8
