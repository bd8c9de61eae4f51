import TwakeKickstart.Library.Text
import TwakeKickstart.Visio.Folding

namespace TwakeKickstart.Visio

open Library

/-! The event of a calendar file by the grammar of the format. -/

def isNameChar (c : Char) : Bool := c.isAlphanum || c == '-'

def isControl (c : Char) : Bool :=
  (decide (c.toNat < 32) && c != '\t') || c.toNat == 127

def isValueChar (c : Char) : Bool := !isControl c

/-- A character between quotes. -/
def isQuotedChar (c : Char) : Bool := !(isControl c || c == '"')

def isSafeChar (c : Char) : Bool :=
  isQuotedChar c && !(c == ';' || c == ':' || c == ',')

structure Name where
  text : List Char
  nonempty : text ≠ []
  chars : ∀ c ∈ text, isNameChar c = true

inductive ParamValue where
  | plain (text : List Char) (safe : ∀ c ∈ text, isSafeChar c = true)
  | quoted (text : List Char) (safe : ∀ c ∈ text, isQuotedChar c = true)

def ParamValue.text : ParamValue → List Char
  | plain text _ => text
  | quoted text _ => '"' :: (text ++ ['"'])

structure Param where
  name : Name
  first : ParamValue
  others : List ParamValue

def Param.text (param : Param) : List Char :=
  ';' :: (param.name.text ++ '=' :: (param.first.text ++
    param.others.flatMap fun value => ',' :: value.text))

def upper (text : List Char) : List Char := text.map Char.toUpper

structure Property where
  name : Name
  noMark : upper name.text ≠ "BEGIN".toList ∧ upper name.text ≠ "END".toList
  params : List Param
  value : List Char
  chars : ∀ c ∈ value, isValueChar c = true

namespace Property

def paramsText (property : Property) : List Char :=
  property.params.flatMap Param.text

def line (property : Property) : List Char :=
  property.name.text ++ (property.paramsText ++ ':' :: property.value)

def Named (property : Property) (name : String) : Prop :=
  upper property.name.text = name.toList

instance (property : Property) (name : String) :
    Decidable (property.Named name) :=
  inferInstanceAs (Decidable (_ = _))

end Property

/-- The name of a component inside of an event, which is no event. -/
structure ComponentName where
  name : Name
  noEvent : upper name.text ≠ "VEVENT".toList

def ComponentName.beginLine (component : ComponentName) : List Char :=
  "BEGIN:".toList ++ component.name.text

def ComponentName.endLine (component : ComponentName) : List Char :=
  "END:".toList ++ component.name.text

/-- What stands between the first and the last line of a component. -/
inductive Items where
  | nil
  | line (property : Property) (rest : Items)
  | component (name : ComponentName) (inside rest : Items)

/-- A line of a file, with what it is for the event. -/
inductive Entry where
  | own (property : Property)
  | nested (property : Property)
  | mark (line : List Char)

namespace Entry

def line : Entry → List Char
  | own property => property.line
  | nested property => property.line
  | mark line => line

def property? : Entry → Option Property
  | own property => some property
  | nested property => some property
  | mark _ => none

def Named (entry : Entry) (name : String) : Prop :=
  ∃ property, entry.property? = some property ∧ property.Named name

end Entry

namespace Items

def nested : Items → List Entry
  | nil => []
  | line property rest => .nested property :: rest.nested
  | component name inside rest =>
      .mark name.beginLine :: (inside.nested ++
        .mark name.endLine :: rest.nested)

def entries : Items → List Entry
  | nil => []
  | line property rest => .own property :: rest.entries
  | component name inside rest =>
      .mark name.beginLine :: (inside.nested ++
        .mark name.endLine :: rest.entries)

end Items

/-- A file with an event; names are the same in either case. -/
structure Calendar where
  before : List (List Char)
  beginLine : List Char
  items : Items
  endLine : List Char
  after : List (List Char)
  begins : upper beginLine = beginEvent
  ends : upper endLine = endEvent
  noEvent : ∀ line ∈ before,
    upper line ≠ beginEvent ∧ upper line ≠ endEvent
  hasUid : ∃ property, .own property ∈ items.entries ∧ property.Named "UID"
  clean : ∀ line ∈ before ++ after, Clean line

namespace Calendar

def entries (calendar : Calendar) : List Entry :=
  calendar.before.map .mark ++ .mark calendar.beginLine ::
    (calendar.items.entries ++ .mark calendar.endLine ::
      calendar.after.map .mark)

def lines (calendar : Calendar) : List (List Char) :=
  calendar.entries.map Entry.line

end Calendar

/-! The characters of a line. -/

theorem not_mem_name (name : Name) {c : Char} (h : isNameChar c = false) :
    c ∉ name.text := by
  intro hmem
  rw [name.chars c hmem] at h
  cases h

theorem range_of_isNameChar {c : Char} (h : isNameChar c = true) :
    45 ≤ c.toNat ∧ c.toNat ≤ 122 := by
  rw [isNameChar, Bool.or_eq_true, beq_iff_eq] at h
  obtain h | rfl := h
  · have := range_of_isAlphanum h
    omega
  · decide

theorem not_isControl_of_isNameChar {c : Char} (h : isNameChar c = true) :
    isControl c = false := by
  obtain ⟨hleast, hmost⟩ := range_of_isNameChar h
  have hlow : ¬ c.toNat < 32 := by omega
  have hdelete : c.toNat ≠ 127 := by omega
  rw [isControl, decide_eq_false hlow, Bool.false_and, Bool.false_or]
  exact beq_eq_false_iff_ne.mpr hdelete

theorem not_isControl_value (value : ParamValue) :
    ∀ c ∈ value.text, isControl c = false := by
  have hquoted {c : Char} (h : isQuotedChar c = true) :
      isControl c = false := by
    simp only [isQuotedChar, Bool.not_eq_true', Bool.or_eq_false_iff] at h
    exact h.1
  intro c hc
  cases value with
  | plain text safe =>
      have hsafe := safe c hc
      rw [isSafeChar, Bool.and_eq_true] at hsafe
      exact hquoted hsafe.1
  | quoted text safe =>
      obtain rfl | hc := List.mem_cons.mp hc
      · decide
      · obtain hc | hc := List.mem_append.mp hc
        · exact hquoted (safe c hc)
        · rw [List.mem_singleton.mp hc]
          decide

theorem not_isControl_param (param : Param) :
    ∀ c ∈ param.text, isControl c = false := by
  intro c hc
  obtain rfl | hc := List.mem_cons.mp hc
  · decide
  obtain hc | hc := List.mem_append.mp hc
  · exact not_isControl_of_isNameChar (param.name.chars c hc)
  obtain rfl | hc := List.mem_cons.mp hc
  · decide
  obtain hc | hc := List.mem_append.mp hc
  · exact not_isControl_value param.first c hc
  · obtain ⟨value, _, hc⟩ := List.mem_flatMap.mp hc
    obtain rfl | hc := List.mem_cons.mp hc
    · decide
    · exact not_isControl_value value c hc

theorem not_isControl_line (property : Property) :
    ∀ c ∈ property.line, isControl c = false := by
  intro c hc
  obtain hc | hc := List.mem_append.mp hc
  · exact not_isControl_of_isNameChar (property.name.chars c hc)
  obtain hc | hc := List.mem_append.mp hc
  · obtain ⟨param, _, hc⟩ := List.mem_flatMap.mp hc
    exact not_isControl_param param c hc
  obtain rfl | hc := List.mem_cons.mp hc
  · decide
  · have hvalue := property.chars c hc
    rwa [isValueChar, Bool.not_eq_true'] at hvalue

theorem clean_of_not_isControl {line : List Char}
    (chars : ∀ c ∈ line, isControl c = false)
    (noBlank : ∀ c, line.head? = some c → ¬ IsBlank c) : Clean line where
  noReturn := fun h => absurd (chars _ h) (by decide)
  noBreak := fun h => absurd (chars _ h) (by decide)
  noBlank := noBlank

theorem not_blank_of_isNameChar {c : Char} (h : isNameChar c = true) :
    ¬ IsBlank c := by
  rintro (rfl | rfl)
  · revert h
    decide
  · revert h
    decide

theorem clean_line (property : Property) : Clean property.line := by
  apply clean_of_not_isControl (not_isControl_line property)
  intro c hhead
  obtain ⟨first, rest, hname⟩ :=
    List.exists_cons_of_ne_nil property.name.nonempty
  rw [Property.line, hname] at hhead
  cases hhead
  apply not_blank_of_isNameChar (property.name.chars c _)
  rw [hname]
  exact List.mem_cons_self

theorem clean_of_upper {line other : List Char} (h : upper line = other)
    (plain : other.all (fun c => c != '\r' && c != '\n' && c != ' ' &&
      c != '\t') = true) : Clean line := by
  subst h
  have hmem (c : Char) (hc : c ∈ line) : c.toUpper ≠ '\r' ∧
      c.toUpper ≠ '\n' ∧ c.toUpper ≠ ' ' ∧ c.toUpper ≠ '\t' := by
    have hall := List.all_eq_true.mp plain _ (List.mem_map_of_mem hc)
    simpa [and_assoc] using hall
  refine ⟨fun h => (hmem _ h).1 (by decide),
    fun h => (hmem _ h).2.1 (by decide), ?_⟩
  intro c hhead
  have hc : c ∈ line := List.mem_of_mem_head? hhead
  rintro (rfl | rfl)
  · exact (hmem _ hc).2.2.1 (by decide)
  · exact (hmem _ hc).2.2.2 (by decide)

theorem clean_append_name {word : List Char} (name : Name)
    (plain : word.all (fun c => isControl c == false) = true)
    (first : ∃ c, word.head? = some c ∧ ¬ IsBlank c) :
    Clean (word ++ name.text) := by
  obtain ⟨first, hfirst, hblank⟩ := first
  obtain ⟨rest, rfl⟩ := List.head?_eq_some_iff.mp hfirst
  apply clean_of_not_isControl
  · intro c hc
    obtain hc | hc := List.mem_append.mp hc
    · exact beq_iff_eq.mp (List.all_eq_true.mp plain c hc)
    · exact not_isControl_of_isNameChar (name.chars c hc)
  · intro c hhead
    cases hhead
    exact hblank

theorem clean_mark (component : ComponentName) :
    Clean component.beginLine ∧ Clean component.endLine :=
  ⟨clean_append_name component.name (by decide) ⟨'B', by decide⟩,
    clean_append_name component.name (by decide) ⟨'E', by decide⟩⟩

/-! The lines between the first and the last line of an event. -/

theorem Items.mark_nested {items : Items} {line : List Char}
    (h : .mark line ∈ items.nested) :
    ∃ component : ComponentName,
      line = component.beginLine ∨ line = component.endLine := by
  induction items with
  | nil => cases h
  | line property rest ih =>
      obtain h | h := List.mem_cons.mp h
      · cases h
      · exact ih h
  | component name inside rest ihInside ihRest =>
      obtain h | h := List.mem_cons.mp h
      · cases h
        exact ⟨name, .inl rfl⟩
      obtain h | h := List.mem_append.mp h
      · exact ihInside h
      obtain h | h := List.mem_cons.mp h
      · cases h
        exact ⟨name, .inr rfl⟩
      · exact ihRest h

theorem Items.mark_entries {items : Items} {line : List Char}
    (h : .mark line ∈ items.entries) :
    ∃ component : ComponentName,
      line = component.beginLine ∨ line = component.endLine := by
  induction items with
  | nil => cases h
  | line property rest ih =>
      obtain h | h := List.mem_cons.mp h
      · cases h
      · exact ih h
  | component name inside rest ihInside ihRest =>
      obtain h | h := List.mem_cons.mp h
      · cases h
        exact ⟨name, .inl rfl⟩
      obtain h | h := List.mem_append.mp h
      · exact Items.mark_nested h
      obtain h | h := List.mem_cons.mp h
      · cases h
        exact ⟨name, .inr rfl⟩
      · exact ihRest h

theorem clean_entry {items : Items} :
    ∀ entry ∈ items.entries, Clean entry.line := by
  intro entry hentry
  cases entry with
  | own property => exact clean_line property
  | nested property => exact clean_line property
  | mark line =>
      obtain ⟨component, rfl | rfl⟩ := Items.mark_entries hentry
      · exact (clean_mark component).1
      · exact (clean_mark component).2

theorem Calendar.clean_lines (calendar : Calendar) :
    ∀ line ∈ calendar.lines, Clean line := by
  intro line hline
  obtain ⟨entry, hentry, rfl⟩ := List.mem_map.mp hline
  obtain hbefore | hentry := List.mem_append.mp hentry
  · obtain ⟨line, hmem, rfl⟩ := List.mem_map.mp hbefore
    exact calendar.clean line (List.mem_append_left _ hmem)
  obtain rfl | hentry := List.mem_cons.mp hentry
  · exact clean_of_upper calendar.begins (by decide)
  obtain hitem | hentry := List.mem_append.mp hentry
  · exact clean_entry entry hitem
  obtain rfl | hafter := List.mem_cons.mp hentry
  · exact clean_of_upper calendar.ends (by decide)
  · obtain ⟨line, hmem, rfl⟩ := List.mem_map.mp hafter
    exact calendar.clean line (List.mem_append_right _ hmem)

end TwakeKickstart.Visio
