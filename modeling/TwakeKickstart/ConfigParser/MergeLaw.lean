import TwakeKickstart.ConfigParser.Steps
import TwakeKickstart.Library.KeyOrder

namespace TwakeKickstart.ConfigParser

open Library

/-! When the configuration is the merge of its sources. -/

structure Inputs where
  host : Host
  desc : NewConfigDescription
  file : Option ConfigurationFile
  useEnv : Bool

def Inputs.result (inputs : Inputs) : Except ConfigError Configuration :=
  twakeConfig inputs.host inputs.desc inputs.file inputs.useEnv

/-- The fields of the file. -/
def Inputs.content (inputs : Inputs) : List (String × Value) :=
  match inputs.file with
  | none => []
  | some (.path filePath) => (inputs.host.readFile filePath).toOption.getD []
  | some (.object fields) => fields

/-- The variable of a key, where variables are used. -/
def Inputs.variable (inputs : Inputs) (key : String) : Option String :=
  if inputs.useEnv = true then inputs.host.env (inputs.host.toUpperCase key)
  else none

/-- Where the value of a key is to come from. -/
inductive Source where
  | environment (text : String)
  | file (value : Value)
  | default (value : Value)
  | missing

def Source.ofDefault (configProp : ConfigProperty) : Source :=
  match configProp.default with
  | some value => .default value
  | none => .missing

def Inputs.source (inputs : Inputs) (entry : String × ConfigProperty) :
    Source :=
  match inputs.variable entry.1 with
  | some text => .environment text
  | none =>
      match inputs.content.lookup entry.1 with
      | some value =>
          if value.isNull = true then .ofDefault entry.2 else .file value
      | none => .ofDefault entry.2

/-- The text that is turned into the value. -/
def Source.text : Source → Option String
  | .environment text => some text
  | .default (.str text) => some text
  | _ => none

/-- The key has the value of its source; without one it has none, or the
`null` of the file. -/
def Source.Gives (host : Host) (configProp : ConfigProperty)
    (held : Option Value) : Source → Prop
  | .environment text => ∃ value,
      coerceValue host text configProp.type = .ok value ∧ held = some value
  | .file value => held = some value
  | .default given => ∃ value,
      configProp.coerced host given = .ok value ∧ held = some value
  | .missing => held = none ∨ held = some .null

/-- The law of the merge: the keys are declared ones and nothing but
`Object.prototype` is inherited, each has the value of its source, and none
that is required is nullish. -/
structure Inputs.Merged (inputs : Inputs) (result : Configuration) : Prop where
  plain : result.prototype = .object
  closed : ∀ field ∈ result.own, field.1 ∈ inputs.desc.keys
  given : ∀ entry ∈ inputs.desc.entries,
    (inputs.source entry).Gives inputs.host entry.2
      (result.own.lookup entry.1)
  /-- A number is what the whole of its text reads. -/
  whole : ∀ entry ∈ inputs.desc.entries, entry.2.type = .number →
    ∀ text, (inputs.source entry).text = some text →
      result.own.lookup entry.1 = some (.num text)
  required : ∀ entry ∈ inputs.desc.entries, entry.2.required = some true →
    ∃ value, result.own.lookup entry.1 = some value ∧ value ≠ .null

def Source.MeansNull (host : Host) (type : ConfigValueType) : Source → Prop
  | .environment text => ReadsNull host type text
  | .file _ => False
  | .default value => value.MeansNull host type
  | .missing => True

/-- The key is no member of `Object.prototype`, or the file has it, or a
variable does and the key is not the one of the accessor, or nothing does. -/
def Inputs.Unhidden (inputs : Inputs) (entry : String × ConfigProperty) :
    Prop :=
  entry.1 ∈ objectPrototype → inputs.content.lookup entry.1 = none →
    (∃ text, inputs.variable entry.1 = some text ∧ entry.1 ≠ "__proto__") ∨
      inputs.variable entry.1 = none ∧ entry.2.default = none

/-- No default takes the place of a variable that is `null`. -/
def Inputs.KeepsNull (inputs : Inputs) (entry : String × ConfigProperty) :
    Prop :=
  ∀ text, inputs.variable entry.1 = some text →
    ReadsNull inputs.host entry.2.type text →
      ∀ given, entry.2.default = some given →
        given.MeansNull inputs.host entry.2.type

structure Inputs.Regular (inputs : Inputs) : Prop where
  unwanted : ∀ field ∈ inputs.content, field.1 ∉ inputs.desc.keys →
    field.1 ∉ objectPrototype
  unhidden : ∀ entry ∈ inputs.desc.entries, inputs.Unhidden entry
  nulls : ∀ entry ∈ inputs.desc.entries, inputs.KeepsNull entry
  numerals : ∀ entry ∈ inputs.desc.entries, entry.2.type = .number →
    ∀ text, (inputs.source entry).text = some text →
      strDecimalLiteral.test text = true
  required : ∀ entry ∈ inputs.desc.entries, entry.2.required = some true →
    ¬ (inputs.source entry).MeansNull inputs.host entry.2.type

/-! Where the value of a key comes from. -/

section Values

open ConfigParser.Configuration

variable {inputs : Inputs} {entry : String × ConfigProperty}
  {middle held : Option Value}

/-- What the loop over the variables makes of the file's value. -/
def Inputs.Overridden (inputs : Inputs) (entry : String × ConfigProperty)
    (middle : Option Value) : Prop :=
  inputs.variable entry.1 = none ∧
      middle = inputs.content.lookup entry.1 ∨
    ∃ text value, inputs.variable entry.1 = some text ∧
      coerceValue inputs.host text entry.2.type = .ok value ∧
      (Takes entry.1 (inputs.content.lookup entry.1) → middle = some value) ∧
      (¬ Takes entry.1 (inputs.content.lookup entry.1) → middle = none)

/-- What the loop over the defaults makes of it. -/
def Inputs.Defaulted (inputs : Inputs) (entry : String × ConfigProperty)
    (middle held : Option Value) : Prop :=
  held = middle ∧ (Lacks entry.1 middle → entry.2.default = none) ∨
    ∃ given value, Lacks entry.1 middle ∧ entry.2.default = some given ∧
      entry.2.coerced inputs.host given = .ok value ∧ held = some value

theorem Inputs.Defaulted.of_value {value : Value}
    (h : inputs.Defaulted entry (some value) held) (hvalue : value ≠ .null) :
    held = some value := by
  obtain ⟨hheld, _⟩ | ⟨_, _, hlacks, _⟩ := h
  · exact hheld
  · obtain hnull | ⟨hnone, _⟩ := hlacks
    · exact absurd (Option.some.inj hnull) hvalue
    · cases hnone

theorem Inputs.Defaulted.of_hidden (h : inputs.Defaulted entry none held)
    (hidden : entry.1 ∈ objectPrototype) : held = none := by
  obtain ⟨hheld, _⟩ | ⟨_, _, hlacks, _⟩ := h
  · exact hheld
  · obtain hnull | ⟨_, hmember⟩ := hlacks
    · cases hnull
    · exact absurd hidden hmember

theorem Inputs.Defaulted.of_lacks (h : inputs.Defaulted entry middle held)
    (lacks : Lacks entry.1 middle) :
    entry.2.default = none ∧ held = middle ∨
      ∃ given value, entry.2.default = some given ∧
        entry.2.coerced inputs.host given = .ok value ∧ held = some value := by
  obtain ⟨hheld, hdefault⟩ | ⟨given, value, _, hgiven, hvalue, hheld⟩ := h
  · exact .inl ⟨hdefault lacks, hheld⟩
  · exact .inr ⟨given, value, hgiven, hvalue, hheld⟩

theorem gives_ofDefault (h : inputs.Defaulted entry middle held)
    (lacks : Lacks entry.1 middle) :
    (Source.ofDefault entry.2).Gives inputs.host entry.2 held := by
  obtain ⟨hdefault, rfl⟩ | ⟨given, value, hgiven, hvalue, hheld⟩ :=
    h.of_lacks lacks
  · rw [Source.ofDefault, hdefault]
    exact lacks.symm.imp And.left id
  · rw [Source.ofDefault, hgiven]
    exact ⟨value, hvalue, hheld⟩

theorem gives_iff_of_unset (unset : inputs.variable entry.1 = none)
    (h : inputs.Defaulted entry (inputs.content.lookup entry.1) held) :
    (inputs.source entry).Gives inputs.host entry.2 held ↔
      inputs.Unhidden entry ∧ inputs.KeepsNull entry := by
  have hnulls : inputs.KeepsNull entry := by
    intro text hset
    rw [unset] at hset
    cases hset
  rw [and_iff_left hnulls, Inputs.source, unset]
  cases hfile : inputs.content.lookup entry.1 with
  | some value =>
      rw [hfile] at h
      have hunhidden : inputs.Unhidden entry := by
        intro _ hnone
        rw [hfile] at hnone
        cases hnone
      rw [iff_true_intro hunhidden, iff_true]
      by_cases hnull : value = .null
      · rw [hnull] at h ⊢
        exact gives_ofDefault h (.inl rfl)
      · have hisNull : ¬ value.isNull = true := mt Value.isNull_iff.mp hnull
        dsimp only
        rw [if_neg hisNull]
        exact h.of_value hnull
  | none =>
      rw [hfile] at h
      dsimp only
      by_cases hmember : entry.1 ∈ objectPrototype
      · have hheld := h.of_hidden hmember
        rw [Source.ofDefault]
        cases hdefault : entry.2.default with
        | none =>
            exact ⟨fun _ _ _ => .inr ⟨unset, hdefault⟩, fun _ => .inl hheld⟩
        | some given =>
            constructor
            · rintro ⟨value, _, hsome⟩
              rw [hheld] at hsome
              cases hsome
            · intro hunhidden
              obtain ⟨text, hset, _⟩ | ⟨_, hnone⟩ := hunhidden hmember hfile
              · rw [unset] at hset
                cases hset
              · rw [hdefault] at hnone
                cases hnone
      · exact ⟨fun _ h => absurd h hmember,
          fun _ => gives_ofDefault h (.inr ⟨rfl, hmember⟩)⟩

theorem gives_iff_of_set {text : String} {value : Value}
    (set : inputs.variable entry.1 = some text)
    (coerced : coerceValue inputs.host text entry.2.type = .ok value)
    (takes : Takes entry.1 (inputs.content.lookup entry.1))
    (h : inputs.Defaulted entry (some value) held) :
    (inputs.source entry).Gives inputs.host entry.2 held ↔
      inputs.Unhidden entry ∧ inputs.KeepsNull entry := by
  have hunhidden : inputs.Unhidden entry :=
    fun _ hnone => .inl ⟨text, set, fun hkey => takes hkey hnone⟩
  have hgives : (inputs.source entry).Gives inputs.host entry.2 held ↔
      held = some value := by
    rw [Inputs.source, set]
    constructor
    · rintro ⟨other, hother, hheld⟩
      rw [coerced] at hother
      cases hother
      exact hheld
    · intro hheld
      exact ⟨value, coerced, hheld⟩
  rw [and_iff_right hunhidden, hgives]
  by_cases hnull : value = .null
  · rw [hnull] at coerced h ⊢
    obtain ⟨hdefault, hheld⟩ | ⟨given, other, hgiven, hother, hheld⟩ :=
      h.of_lacks (.inl rfl)
    · refine iff_of_true hheld ?_
      intro _ _ _ given hgiven
      rw [hdefault] at hgiven
      cases hgiven
    · rw [hheld, Option.some_inj]
      constructor
      · rintro rfl _ _ _ another hanother
        rw [hgiven] at hanother
        cases hanother
        exact coerced_eq_null_iff.mp hother
      · intro hkeeps
        have hmeans := hkeeps text set (coerceValue_eq_null_iff.mp coerced)
          given hgiven
        rw [coerced_eq_null_iff.mpr hmeans] at hother
        cases hother
        rfl
  · refine iff_of_true (h.of_value hnull) ?_
    intro other hother hreads
    rw [set] at hother
    cases hother
    rw [coerceValue_eq_null_iff.mpr hreads] at coerced
    cases coerced
    exact absurd rfl hnull

theorem gives_iff (overridden : inputs.Overridden entry middle)
    (defaulted : inputs.Defaulted entry middle held) :
    (inputs.source entry).Gives inputs.host entry.2 held ↔
      inputs.Unhidden entry ∧ inputs.KeepsNull entry := by
  obtain ⟨hunset, rfl⟩ | ⟨text, value, hset, hvalue, htakes, hlost⟩ :=
    overridden
  · exact gives_iff_of_unset hunset defaulted
  · by_cases htake : Takes entry.1 (inputs.content.lookup entry.1)
    · rw [htakes htake] at defaulted
      exact gives_iff_of_set hset hvalue htake defaulted
    · rw [hlost htake] at defaulted
      rw [Takes, Classical.not_imp, Classical.not_not] at htake
      have hmember : entry.1 ∈ objectPrototype := by
        rw [htake.1]
        decide
      have hheld := defaulted.of_hidden hmember
      refine iff_of_false ?_ ?_
      · rw [Inputs.source, hset]
        rintro ⟨other, _, hother⟩
        rw [hheld] at hother
        cases hother
      · rintro ⟨hunhidden, _⟩
        obtain ⟨_, _, hne⟩ | ⟨hnone, _⟩ := hunhidden hmember htake.2
        · exact hne htake.1
        · rw [hset] at hnone
          cases hnone

theorem Source.Gives.whole_iff {host : Host} {configProp : ConfigProperty}
    {source : Source} {text : String}
    (gives : source.Gives host configProp held)
    (number : configProp.type = .number) (h : source.text = some text) :
    held = some (.num text) ↔ strDecimalLiteral.test text = true := by
  have hcoerced : ∃ value,
      coerceValue host text configProp.type = .ok value ∧
        held = some value := by
    cases source with
    | environment other =>
        cases h
        exact gives
    | default given =>
        cases given with
        | str other =>
            cases h
            rwa [Source.Gives, coerced_str] at gives
        | null => cases h
        | bool b => cases h
        | num numeral => cases h
        | arr items => cases h
        | obj fields => cases h
    | file value => cases h
    | missing => cases h
  obtain ⟨value, hvalue, rfl⟩ := hcoerced
  rw [number, coerceValue] at hvalue
  rw [← parseFloat_eq_self_iff]
  cases hparse : parseFloat text with
  | none =>
      rw [hparse] at hvalue
      cases hvalue
  | some numeral =>
      rw [hparse] at hvalue
      cases hvalue
      rw [Option.some_inj, Option.some_inj, Value.num.injEq]

theorem source_file_ne_null {value : Value}
    (h : inputs.source entry = .file value) : value ≠ .null := by
  rw [Inputs.source] at h
  have hdefault : Source.ofDefault entry.2 ≠ .file value := by
    rw [Source.ofDefault]
    cases entry.2.default with
    | none => simp
    | some given => simp
  cases hset : inputs.variable entry.1 with
  | some text =>
      rw [hset] at h
      cases h
  | none =>
      rw [hset] at h
      cases hfile : inputs.content.lookup entry.1 with
      | none =>
          rw [hfile] at h
          exact absurd h hdefault
      | some other =>
          rw [hfile] at h
          dsimp only at h
          split at h
          · exact absurd h hdefault
          · rename_i hisNull
            cases h
            exact mt Value.isNull_iff.mpr hisNull

theorem gives_nonnull_iff
    (gives : (inputs.source entry).Gives inputs.host entry.2 held) :
    (∃ value, held = some value ∧ value ≠ .null) ↔
      ¬ (inputs.source entry).MeansNull inputs.host entry.2.type := by
  have hsome : ∀ {value : Value}, held = some value →
      ((∃ value, held = some value ∧ value ≠ .null) ↔ ¬ value = .null) := by
    rintro value rfl
    constructor
    · rintro ⟨other, hother, hne⟩
      cases hother
      exact hne
    · intro hne
      exact ⟨value, rfl, hne⟩
  cases hsource : inputs.source entry with
  | environment text =>
      rw [hsource] at gives
      obtain ⟨value, hvalue, hheld⟩ := gives
      rw [hsome hheld, Source.MeansNull, ← coerceValue_eq_null_iff, hvalue,
        Except.ok.injEq]
  | file value =>
      rw [hsource] at gives
      rw [hsome gives]
      exact iff_of_true (source_file_ne_null hsource) id
  | default given =>
      rw [hsource] at gives
      obtain ⟨value, hvalue, hheld⟩ := gives
      rw [hsome hheld, Source.MeansNull, ← coerced_eq_null_iff, hvalue,
        Except.ok.injEq]
  | missing =>
      rw [hsource] at gives
      refine iff_of_false ?_ (not_not_intro trivial)
      rintro ⟨value, hvalue, hne⟩
      obtain hnone | hnull := gives
      · rw [hvalue] at hnone
        cases hnone
      · rw [hvalue] at hnull
        exact hne (Option.some.inj hnull)

end Values

/-! The parser. -/

/-- The configuration after each part of the parser. -/
structure Stages (inputs : Inputs) (result : Configuration) where
  environment : Configuration
  overridden : inputs.desc.entries.foldlM
    (applyEnvironmentVariable inputs.host inputs.useEnv)
    { own := inputs.content, prototype := .object } = .ok environment
  defaulted : inputs.desc.entries.foldlM (applyDefaultValue inputs.host)
    environment = .ok result
  wanted : validateUnwantedKeys result inputs.desc = .ok ()

theorem initialConfig_eq {inputs : Inputs} {initial : Configuration}
    (h : initialConfig inputs.host inputs.file = .ok initial) :
    initial = { own := inputs.content, prototype := .object } := by
  rw [Inputs.content]
  cases hfile : inputs.file with
  | none =>
      rw [hfile] at h
      cases h
      rfl
  | some file =>
      rw [hfile] at h
      cases file with
      | path filePath =>
          rw [initialConfig, loadConfigFromFile] at h
          cases hread : inputs.host.readFile filePath with
          | error cause =>
              rw [hread] at h
              cases h
          | ok fields =>
              rw [hread] at h
              cases h
              dsimp only
              rw [hread, Except.toOption, Option.getD_some]
      | object fields =>
          cases h
          rfl

theorem validateUnwantedKeys_ok_iff {config : Configuration}
    {desc : NewConfigDescription} : validateUnwantedKeys config desc = .ok () ↔
      ∀ field ∈ config.own, desc.has field.1 = true := by
  have hnone : (enumerated config.own).find? (fun field => !desc.has field.1) =
      none ↔ ∀ field ∈ config.own, desc.has field.1 = true := by
    simp [(enumerated_perm config.own).mem_iff]
  rw [← hnone, validateUnwantedKeys]
  split
  · rename_i field hsome
    simp [hsome]
  · rename_i hfound
    exact iff_of_true rfl hfound

theorem exists_stages {inputs : Inputs} {result : Configuration}
    (h : inputs.result = .ok result) : Nonempty (Stages inputs result) := by
  rw [Inputs.result, twakeConfig] at h
  obtain ⟨initial, hinitial, h⟩ := KeyedLoop.bind_ok_iff.mp h
  obtain ⟨environment, henvironment, h⟩ := KeyedLoop.bind_ok_iff.mp h
  obtain ⟨config, hconfig, h⟩ := KeyedLoop.bind_ok_iff.mp h
  obtain ⟨_, hwanted, h⟩ := KeyedLoop.bind_ok_iff.mp h
  obtain ⟨_, _, h⟩ := KeyedLoop.bind_ok_iff.mp h
  cases h
  rw [initialConfig_eq hinitial] at henvironment
  exact ⟨environment, henvironment, hconfig, hwanted⟩

namespace Stages

open ConfigParser.Configuration

variable {inputs : Inputs} {result : Configuration}
  {entry : String × ConfigProperty}

theorem plain_environment (stages : Stages inputs result)
    (plain : result.prototype = .object) :
    stages.environment.prototype = .object :=
  KeyedLoop.before_of_after (·.prototype = .object) default_assigns.back
    stages.defaulted plain

theorem lookup_of_not_mem (stages : Stages inputs result) {key : String}
    (h : key ∉ inputs.desc.keys) :
    result.own.lookup key = inputs.content.lookup key :=
  (default_assigns.lookup_of_not_mem stages.defaulted h).trans
    (environment_assigns.lookup_of_not_mem stages.overridden h)

theorem overridden_entry (stages : Stages inputs result)
    (plain : result.prototype = .object) (h : entry ∈ inputs.desc.entries) :
    inputs.Overridden entry (stages.environment.own.lookup entry.1) := by
  obtain ⟨before, after, hstep, hplain, hbefore, hafter⟩ :=
    environment_assigns.exists_step stages.overridden
      (stages.plain_environment plain) h
  rw [hafter]
  dsimp only at hbefore
  obtain ⟨hunset, rfl⟩ | ⟨text, value, hset, hvalue, rfl⟩ :=
    environment_cases hstep
  · exact .inl ⟨hunset, hbefore⟩
  · refine .inr ⟨text, value, hset, hvalue, ?_, ?_⟩
    · rw [← hbefore]
      exact lookup_assign_of_takes
    · rw [← hbefore]
      exact lookup_assign_of_not_takes hplain

theorem defaulted_entry (stages : Stages inputs result)
    (plain : result.prototype = .object) (h : entry ∈ inputs.desc.entries) :
    inputs.Defaulted entry (stages.environment.own.lookup entry.1)
      (result.own.lookup entry.1) := by
  obtain ⟨before, after, hstep, hplain, hbefore, hafter⟩ :=
    default_assigns.exists_step stages.defaulted plain h
  rw [hafter, ← hbefore]
  obtain ⟨rfl, hdefault⟩ | ⟨given, value, hnullish, hgiven, hvalue, rfl⟩ :=
    default_cases hstep
  · exact .inl ⟨rfl, fun h => hdefault ((isNullish_get_iff hplain).mpr h)⟩
  · have hlacks := (isNullish_get_iff hplain).mp hnullish
    exact .inr ⟨given, value, hlacks, hgiven, hvalue,
      lookup_assign_of_takes hlacks.takes⟩

theorem gives_iff (stages : Stages inputs result)
    (plain : result.prototype = .object) (h : entry ∈ inputs.desc.entries) :
    (inputs.source entry).Gives inputs.host entry.2
        (result.own.lookup entry.1) ↔
      inputs.Unhidden entry ∧ inputs.KeepsNull entry :=
  ConfigParser.gives_iff (stages.overridden_entry plain h)
    (stages.defaulted_entry plain h)

theorem plain_of_unhidden (stages : Stages inputs result)
    (unhidden : ∀ entry ∈ inputs.desc.entries, inputs.Unhidden entry) :
    result.prototype = .object := by
  have henvironment : stages.environment.prototype = .object := by
    apply environment_assigns.plain stages.overridden rfl
    intro entry h hkey before after hstep hplain hbefore
    obtain ⟨_, rfl⟩ | ⟨text, value, hset, _, rfl⟩ := environment_cases hstep
    · exact hplain
    · have htakes : Takes entry.1 (before.own.lookup entry.1) := by
        intro _ hnone
        rw [hbefore] at hnone
        have hmember : entry.1 ∈ objectPrototype := by
          rw [hkey]
          decide
        obtain ⟨_, _, hne⟩ | ⟨hunset, _⟩ := unhidden entry h hmember hnone
        · exact hne hkey
        · rw [Inputs.variable, hset] at hunset
          cases hunset
      rw [assign_of_takes htakes]
      exact hplain
  apply default_assigns.plain stages.defaulted henvironment
  intro entry _ _ before after hstep hplain _
  obtain ⟨rfl, _⟩ | ⟨_, _, hnullish, _, _, rfl⟩ := default_cases hstep
  · exact hplain
  · rw [assign_of_takes ((isNullish_get_iff hplain).mp hnullish).takes]
    exact hplain

theorem closed_iff (stages : Stages inputs result) :
    (∀ field ∈ result.own, field.1 ∈ inputs.desc.keys) ↔
      ∀ field ∈ inputs.content, field.1 ∉ inputs.desc.keys →
        field.1 ∉ objectPrototype := by
  have hmem : ∀ {key : String}, key ∉ inputs.desc.keys →
      (key ∈ result.own.map Prod.fst ↔
        key ∈ inputs.content.map Prod.fst) := by
    intro key hkey
    rw [← not_iff_not, ← Fields.lookup_eq_none_iff,
      ← Fields.lookup_eq_none_iff, stages.lookup_of_not_mem hkey]
  constructor
  · intro hclosed field hfield hkey
    obtain ⟨other, hother, hsame⟩ := List.mem_map.mp
      ((hmem hkey).mpr (List.mem_map_of_mem hfield))
    exact absurd (hsame ▸ hclosed other hother) hkey
  · intro hunwanted field hfield
    by_contra hkey
    obtain ⟨other, hother, hsame⟩ := List.mem_map.mp
      ((hmem hkey).mp (List.mem_map_of_mem hfield))
    have hhas := validateUnwantedKeys_ok_iff.mp stages.wanted field hfield
    rw [NewConfigDescription.has, Bool.or_eq_true, List.contains_iff_mem,
      List.contains_iff_mem] at hhas
    rw [← hsame] at hkey hhas
    exact hunwanted other hother hkey (hhas.resolve_left hkey)

end Stages

/-- A configuration that is returned is the merge of its sources if and only if
the inputs are regular. -/
theorem configuration_merged_iff {inputs : Inputs} {result : Configuration}
    (h : inputs.result = .ok result) :
    inputs.Merged result ↔ inputs.Regular := by
  obtain ⟨stages⟩ := exists_stages h
  constructor
  · intro merged
    have hgives := fun entry hentry =>
      (stages.gives_iff merged.plain hentry).mp (merged.given entry hentry)
    exact {
      unwanted := stages.closed_iff.mp merged.closed
      unhidden := fun entry hentry => (hgives entry hentry).1
      nulls := fun entry hentry => (hgives entry hentry).2
      numerals := fun entry hentry number text htext =>
        ((merged.given entry hentry).whole_iff number htext).mp
          (merged.whole entry hentry number text htext)
      required := fun entry hentry required =>
        (gives_nonnull_iff (merged.given entry hentry)).mp
          (merged.required entry hentry required) }
  · intro regular
    have hplain := stages.plain_of_unhidden regular.unhidden
    have hgives := fun entry hentry =>
      (stages.gives_iff hplain hentry).mpr
        ⟨regular.unhidden entry hentry, regular.nulls entry hentry⟩
    exact {
      plain := hplain
      closed := stages.closed_iff.mpr regular.unwanted
      given := hgives
      whole := fun entry hentry number text htext =>
        ((hgives entry hentry).whole_iff number htext).mpr
          (regular.numerals entry hentry number text htext)
      required := fun entry hentry required =>
        (gives_nonnull_iff (hgives entry hentry)).mpr
          (regular.required entry hentry required) }

/-- A port from the environment and a host that is required from the file. -/
def portAndHost (port : String) (fields : List (String × Value)) : Inputs where
  host :=
    { env := fun name => if name = "PORT" then some port else none
      readFile := fun _ => .error "ENOENT"
      parseJson := fun _ => .error "Unexpected token"
      toUpperCase := fun text => String.ofList (text.toList.map Char.toUpper)
      toLowerCase := fun text => String.ofList (text.toList.map Char.toLower)
      arrayMember := fun _ _ => .undefined }
  desc :=
    { entries :=
        [("port", { type := .number, default := none, required := none }),
          ("host",
            { type := .string, default := none, required := some true })]
      distinct := by decide }
  file := some (.object fields)
  useEnv := true

theorem portAndHost_result {port : String}
    {fields own : List (String × Value)}
    (sources : (portAndHost port fields).desc.entries.foldlM
      (applyEnvironmentVariable (portAndHost port fields).host true)
      ⟨fields, .object⟩ = .ok ⟨own, .object⟩)
    (defaults : (portAndHost port fields).desc.entries.foldlM
      (applyDefaultValue (portAndHost port fields).host) ⟨own, .object⟩ =
        .ok ⟨own, .object⟩)
    (wanted : own.all (fun field =>
      (portAndHost port fields).desc.has field.1) = true)
    (required : validateRequiredKeys (portAndHost port fields).host
      ⟨own, .object⟩ (portAndHost port fields).desc = .ok ()) :
    (portAndHost port fields).result = .ok ⟨own, .object⟩ := by
  have hwanted : validateUnwantedKeys ⟨own, .object⟩
      (portAndHost port fields).desc = .ok () :=
    validateUnwantedKeys_ok_iff.mpr (List.all_eq_true.mp wanted)
  exact KeyedLoop.bind_ok_iff.mpr ⟨_, rfl, KeyedLoop.bind_ok_iff.mpr
    ⟨_, sources, KeyedLoop.bind_ok_iff.mpr ⟨_, defaults,
      KeyedLoop.bind_ok_iff.mpr ⟨(), hwanted,
        KeyedLoop.bind_ok_iff.mpr ⟨(), required, rfl⟩⟩⟩⟩⟩

theorem portAndHost_merged_iff :
    (portAndHost "8080" [("host", .str "localhost")]).result =
        .ok ⟨[("host", .str "localhost"), ("port", .num "8080")], .object⟩ ∧
      ((portAndHost "8080" [("host", .str "localhost")]).Merged
          ⟨[("host", .str "localhost"), ("port", .num "8080")], .object⟩ ↔
        (portAndHost "8080" [("host", .str "localhost")]).Regular) :=
  ⟨portAndHost_result (by rfl) (by rfl) (by rfl) (by rfl),
    configuration_merged_iff
      (portAndHost_result (by rfl) (by rfl) (by rfl) (by rfl))⟩

/-- The port is cut off, a member of `Object.prototype` passes for a declared
key, and the host that is required is `null`. -/
theorem portAndHost_accepted :
    (portAndHost "8080abc" [("toString", .str "x"), ("host", .null)]).result =
        .ok ⟨[("toString", .str "x"), ("host", .null),
          ("port", .num "8080")], .object⟩ ∧
      ¬ (portAndHost "8080abc" [("toString", .str "x"),
        ("host", .null)]).Merged ⟨[("toString", .str "x"), ("host", .null),
          ("port", .num "8080")], .object⟩ := by
  refine ⟨portAndHost_result (by rfl) (by rfl) (by rfl) (by rfl), ?_⟩
  intro merged
  have hdeclared := merged.closed ("toString", .str "x") List.mem_cons_self
  exact absurd hdeclared (by decide)

end TwakeKickstart.ConfigParser
