import TwakeKickstart.ConfigParser.Parser
import TwakeKickstart.Library.Keyed

namespace TwakeKickstart.ConfigParser

open Library

/-! What the steps of the parser do. -/

/-! Numerals. -/

theorem isDigit_eq_false_of_isSpaceChar {c : Char} (space : isSpaceChar c = true) :
    c.isDigit = false := by
  rw [Bool.eq_false_iff]
  intro hdigit
  delta Char.isDigit at hdigit
  rw [Bool.and_eq_true, decide_eq_true_eq, decide_eq_true_eq] at hdigit
  have hleast : 48 ≤ c.toNat := hdigit.1
  have hmost : c.toNat < 58 := Nat.lt_succ_of_le hdigit.2
  have hspace : ∀ n < 58, 48 ≤ n → isSpaceChar (Char.ofNat n) = false := by
    decide
  have hfalse := hspace c.toNat hmost hleast
  rw [Char.ofNat_toNat, space] at hfalse
  cases hfalse

theorem strDecimalLiteral_rejects {c : Char} (space : isSpaceChar c = true) :
    strDecimalLiteral.rejects c = true := by
  have hother : ∀ d : Char, isSpaceChar d = false → (c == d) = false := by
    intro d hd
    rw [beq_eq_false_iff_ne]
    rintro rfl
    rw [space] at hd
    cases hd
  simp [strDecimalLiteral, sign, digits, exponentPart, Regex.rejects,
    Regex.sequence, Regex.anyOf, Regex.literal, Regex.one, Regex.many,
    Regex.some1, Regex.optional, Regex.literals,
    isDigit_eq_false_of_isSpaceChar space, hother '+' rfl, hother '-' rfl,
    hother 'e' rfl, hother 'E' rfl, hother '.' rfl, hother 'I' rfl,
    hother 'n' rfl, hother 'f' rfl, hother 'i' rfl, hother 't' rfl,
    hother 'y' rfl]

theorem find?_inits {p : List Char → Bool} {text : List Char}
    (h : p text = true) : text.inits.reverse.find? p = some text := by
  rw [List.inits_eq_tails, List.reverse_reverse]
  cases hreverse : text.reverse with
  | nil =>
    rw [List.reverse_eq_nil_iff] at hreverse
    subst hreverse
    exact List.find?_cons_of_pos h
  | cons last front =>
    rw [List.tails_cons, List.map_cons, ← hreverse, List.reverse_reverse]
    exact List.find?_cons_of_pos h

theorem parseFloat_eq_self_iff {text : String} :
    parseFloat text = some text ↔ strDecimalLiteral.test text = true := by
  rw [parseFloat, Option.map_eq_some_iff, Regex.test]
  constructor
  · rintro ⟨prefixes, hfound, htext⟩
    rw [← htext, String.toList_ofList]
    exact List.find?_some hfound
  · intro hnumeral
    have hspaces : text.toList.dropWhile isSpaceChar = text.toList := by
      cases htext : text.toList with
      | nil => rfl
      | cons c rest =>
        rw [List.dropWhile_cons_of_neg]
        intro hspace
        have hmem : c ∈ text.toList := htext ▸ List.mem_cons_self
        exact Regex.not_mem_of_rejects (Regex.matches_of_acceptsList hnumeral)
          (strDecimalLiteral_rejects hspace) hmem
    refine ⟨text.toList, ?_, String.ofList_toList⟩
    rw [hspaces]
    exact find?_inits hnumeral

/-! The value `null`. -/

/-- The text is the `null` of JSON, at a key whose texts are parsed. -/
def ReadsNull (host : Host) (type : ConfigValueType) (text : String) : Prop :=
  (type = .json ∨ type = .object) ∧ host.parseJson text = .ok .null

def Value.MeansNull (host : Host) (type : ConfigValueType) : Value → Prop
  | .null => True
  | .str text => ReadsNull host type text
  | _ => False

theorem Value.isNull_iff {value : Value} :
    value.isNull = true ↔ value = .null := by
  cases value with
  | null => simp [isNull]
  | bool b => simp [isNull]
  | num numeral => simp [isNull]
  | str s => simp [isNull]
  | arr items => simp [isNull]
  | obj fields => simp [isNull]

theorem coerceValue_eq_null_iff {host : Host} {type : ConfigValueType}
    {text : String} :
    coerceValue host text type = .ok .null ↔ ReadsNull host type text := by
  cases type with
  | string => simp [coerceValue, ReadsNull]
  | number =>
      rw [coerceValue, ReadsNull]
      cases parseFloat text with
      | none => simp
      | some numeral => simp
  | boolean =>
      simp only [coerceValue, ReadsNull]
      split
      · simp
      · split
        · simp
        · simp
  | array => simp [coerceValue, ReadsNull]
  | object =>
      rw [coerceValue, ReadsNull]
      cases host.parseJson text with
      | ok value => simp
      | error cause => simp
  | json =>
      rw [coerceValue, ReadsNull]
      cases host.parseJson text with
      | ok value => simp
      | error cause => simp

theorem coerced_str (host : Host) (configProp : ConfigProperty)
    (text : String) : configProp.coerced host (.str text) =
      coerceValue host text configProp.type := by
  rw [ConfigProperty.coerced]
  split
  · rfl
  · rename_i hplain
    split
    · rfl
    · rename_i harray
      have hstring : configProp.type = .string :=
        Decidable.byContradiction fun h => hplain ⟨h, harray⟩
      rw [hstring, coerceValue]

theorem coerced_eq_null_iff {host : Host} {configProp : ConfigProperty}
    {default : Value} : configProp.coerced host default = .ok .null ↔
      default.MeansNull host configProp.type := by
  cases default with
  | str text => rw [coerced_str, coerceValue_eq_null_iff, Value.MeansNull]
  | null => simp [ConfigProperty.coerced, Value.MeansNull]
  | bool b => simp [ConfigProperty.coerced, Value.MeansNull]
  | num numeral => simp [ConfigProperty.coerced, Value.MeansNull]
  | arr items => simp [ConfigProperty.coerced, Value.MeansNull]
  | obj fields => simp [ConfigProperty.coerced, Value.MeansNull]

/-! Assignments to the configuration. -/

namespace Configuration

variable {config : Configuration} {key name : String} {value : Value}

/-- What an assignment to the key can change: its own field, and the prototype
where the key is the one of the accessor. -/
def slot (config : Configuration) (key : String) :
    Option Value × Prototype :=
  (config.own.lookup key,
    if key = "__proto__" then config.prototype else .object)

theorem slot_assign_of_ne (h : name ≠ key) :
    (config.assign key value).slot name = config.slot name := by
  unfold assign
  split
  · rename_i hproto
    rw [hproto.1] at h
    rw [slot, slot, if_neg h, if_neg h]
  · rw [slot, slot, Fields.lookup_put, if_neg h]

theorem prototype_of_assign
    (h : (config.assign key value).prototype = .object) :
    config.prototype = .object := by
  unfold assign at h
  split at h
  · cases value with
    | null => cases h
    | arr items => cases h
    | obj fields => cases h
    | bool b => exact h
    | num numeral => exact h
    | str s => exact h
  · exact h

/-- An assignment makes or updates an own field. -/
def Takes (key : String) (held : Option Value) : Prop :=
  key = "__proto__" → held ≠ none

/-- Nothing is read but `null`. -/
def Lacks (key : String) (held : Option Value) : Prop :=
  held = some .null ∨ held = none ∧ key ∉ objectPrototype

theorem Lacks.takes {held : Option Value} (h : Lacks key held) :
    Takes key held := by
  rintro rfl hnone
  obtain hnull | hmissing := h
  · rw [hnone] at hnull
    cases hnull
  · exact hmissing.2 (by decide)

theorem assign_of_takes (h : Takes key (config.own.lookup key)) :
    config.assign key value =
      { config with own := Fields.put config.own key value } :=
  if_neg fun hproto => h hproto.1 hproto.2.1

theorem lookup_assign_of_takes (h : Takes key (config.own.lookup key)) :
    (config.assign key value).own.lookup key = some value := by
  rw [assign_of_takes h, Fields.lookup_put, if_pos rfl]

theorem lookup_assign_of_not_takes (plain : config.prototype = .object)
    (h : ¬ Takes key (config.own.lookup key)) :
    (config.assign key value).own.lookup key = none := by
  rw [Takes, Classical.not_imp, Classical.not_not] at h
  rw [assign, if_pos ⟨h.1, h.2, by rw [plain]; rfl⟩]
  exact h.2

theorem isNullish_get_iff (plain : config.prototype = .object) {host : Host} :
    (config.get host key).isNullish = true ↔
      Lacks key (config.own.lookup key) := by
  rw [get, Lacks, plain]
  cases config.own.lookup key with
  | some value => simp [Read.isNullish, Value.isNull_iff]
  | none =>
      by_cases hmember : key ∈ objectPrototype
      · simp [objectMember, hmember, Read.isNullish]
      · simp [objectMember, hmember, Read.isNullish]

end Configuration

/-! The two loops. -/

def NewConfigDescription.keys (desc : NewConfigDescription) : List String :=
  desc.entries.map Prod.fst

section Loops

open ConfigParser.Configuration

variable {host : Host} {useEnv : Bool} {config next : Configuration}
  {entry : String × ConfigProperty} {name : String}

theorem environment_cases
    (h : applyEnvironmentVariable host useEnv config entry = .ok next) :
    ((if useEnv = true then host.env (host.toUpperCase entry.1) else none) =
        none ∧ next = config) ∨
      ∃ text value, (if useEnv = true then
          host.env (host.toUpperCase entry.1) else none) = some text ∧
        coerceValue host text entry.2.type = .ok value ∧
        next = config.assign entry.1 value := by
  simp only [applyEnvironmentVariable] at h
  split at h
  · rename_i huse
    rw [if_pos huse]
    split at h
    · cases h
    · split at h
      · rename_i hnone
        cases h
        exact .inl ⟨hnone, rfl⟩
      · rename_i text hsome
        split at h
        · cases h
        · split at h
          · rename_i value hvalue
            cases h
            exact .inr ⟨text, value, hsome, hvalue, rfl⟩
          · cases h
  · rename_i huse
    rw [if_neg huse]
    cases h
    exact .inl ⟨rfl, rfl⟩

theorem default_cases (h : applyDefaultValue host config entry = .ok next) :
    next = config ∧ ((config.get host entry.1).isNullish = true →
        entry.2.default = none) ∨
      ∃ given value, (config.get host entry.1).isNullish = true ∧
        entry.2.default = some given ∧
        entry.2.coerced host given = .ok value ∧
        next = config.assign entry.1 value := by
  simp only [applyDefaultValue] at h
  split at h
  · rename_i hnullish
    split at h
    · rename_i hnone
      cases h
      exact .inl ⟨rfl, fun _ => hnone⟩
    · rename_i given hsome
      split at h
      · rename_i value hvalue
        cases h
        exact .inr ⟨given, value, hnullish, hsome, hvalue, rfl⟩
      · cases h
  · rename_i hnot
    cases h
    exact .inl ⟨rfl, fun hnullish => absurd hnullish hnot⟩

/-- A step leaves the configuration or assigns to the key of its entry. -/
def Assigns (step : Configuration → String × ConfigProperty →
    Except ConfigError Configuration) : Prop :=
  ∀ config entry next, step config entry = .ok next →
    next = config ∨ ∃ value, next = config.assign entry.1 value

theorem environment_assigns :
    Assigns (applyEnvironmentVariable host useEnv) := by
  intro config entry next h
  obtain ⟨_, hsame⟩ | ⟨_, value, _, _, hnext⟩ := environment_cases h
  · exact .inl hsame
  · exact .inr ⟨value, hnext⟩

theorem default_assigns : Assigns (applyDefaultValue host) := by
  intro config entry next h
  obtain ⟨hsame, _⟩ | ⟨_, value, _, _, _, hnext⟩ := default_cases h
  · exact .inl hsame
  · exact .inr ⟨value, hnext⟩

variable {step : Configuration → String × ConfigProperty →
    Except ConfigError Configuration} {desc : NewConfigDescription}
  {start finish : Configuration}

theorem Assigns.frame (assigns : Assigns step) :
    ∀ config entry next name, step config entry = .ok next →
      name ≠ entry.1 → next.slot name = config.slot name := by
  intro config entry next name h hne
  obtain rfl | ⟨value, rfl⟩ := assigns config entry next h
  · rfl
  · exact slot_assign_of_ne hne

theorem Assigns.back (assigns : Assigns step) :
    ∀ config entry next, step config entry = .ok next →
      next.prototype = .object → config.prototype = .object := by
  intro config entry next h hplain
  obtain rfl | ⟨value, rfl⟩ := assigns config entry next h
  · exact hplain
  · exact prototype_of_assign hplain

theorem Assigns.lookup_of_not_mem (assigns : Assigns step)
    (run : desc.entries.foldlM step start = .ok finish)
    (h : name ∉ desc.keys) :
    finish.own.lookup name = start.own.lookup name :=
  congrArg Prod.fst
    (KeyedLoop.slot_of_not_mem assigns.frame run h)

theorem Assigns.exists_step (assigns : Assigns step)
    (run : desc.entries.foldlM step start = .ok finish)
    (plain : finish.prototype = .object) (h : entry ∈ desc.entries) :
    ∃ before after, step before entry = .ok after ∧
      before.prototype = .object ∧
      before.own.lookup entry.1 = start.own.lookup entry.1 ∧
      finish.own.lookup entry.1 = after.own.lookup entry.1 := by
  obtain ⟨before, after, later, hstep, hlater, hbefore, hafter⟩ :=
    KeyedLoop.exists_step assigns.frame desc.distinct run h
  have hplain := KeyedLoop.before_of_after (·.prototype = .object)
    assigns.back hlater plain
  exact ⟨before, after, hstep, assigns.back before entry after hstep hplain,
    congrArg Prod.fst hbefore, congrArg Prod.fst hafter⟩

theorem Assigns.plain (assigns : Assigns step)
    (run : desc.entries.foldlM step start = .ok finish)
    (plain : start.prototype = .object)
    (keeps : ∀ entry ∈ desc.entries, entry.1 = "__proto__" →
      ∀ before after, step before entry = .ok after →
        before.prototype = .object →
        before.own.lookup entry.1 = start.own.lookup entry.1 →
          after.prototype = .object) :
    finish.prototype = .object := by
  have hslot : ∀ config : Configuration,
      (config.slot "__proto__").2 = config.prototype := fun _ => rfl
  by_cases hmem : "__proto__" ∈ desc.keys
  · obtain ⟨entry, hentry, hkey⟩ := List.mem_map.mp hmem
    obtain ⟨before, after, _, hstep, _, hbefore, hafter⟩ :=
      KeyedLoop.exists_step assigns.frame desc.distinct run hentry
    have hlookup := congrArg Prod.fst hbefore
    rw [hkey] at hbefore hafter
    have hplain : before.prototype = .object := by
      rw [← hslot, hbefore, hslot, plain]
    rw [← hslot, hafter, hslot]
    exact keeps entry hentry hkey before after hstep hplain hlookup
  · rw [← hslot, KeyedLoop.slot_of_not_mem assigns.frame run hmem, hslot,
      plain]

end Loops

end TwakeKickstart.ConfigParser
