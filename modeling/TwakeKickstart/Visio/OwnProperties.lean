import TwakeKickstart.Visio.Component
import TwakeKickstart.Visio.Duration

namespace TwakeKickstart.Visio

open Library

/-! The fields of an event are taken from its own lines. -/

/-- What comes after the first colon outside quotes. -/
def valueOutsideQuotes : Bool → List Char → Option (List Char)
  | _, [] => none
  | quoted, c :: rest =>
      if c = '"' then valueOutsideQuotes (!quoted) rest
      else if c = ':' ∧ quoted = false then some rest
      else valueOutsideQuotes quoted rest

def Entry.ownValue (name : String) : Entry → Option String
  | own property =>
      if property.Named name then
        (valueOutsideQuotes false property.line).map String.ofList
      else none
  | nested _ => none
  | mark _ => none

/-- The event's own line for a field: its place and its value. -/
def Calendar.own (calendar : Calendar) (name : String) :
    Option (Nat × String) :=
  latest (Entry.ownValue name) calendar.entries

def eventFields : List String :=
  ["SUMMARY", "DESCRIPTION", "DTSTART", "DTEND", "DURATION", "URL", "UID",
    "X-OPENPAAS-VIDEOCONFERENCE"]

/-! When the event's own lines are read. -/

/-- Of the lines named so, those of nested components too, the last is the
event's own, and no colon is in its parameters. -/
def Items.LastIsOwn (items : Items) (name : String) : Prop :=
  ∀ first entry rest, items.entries = first ++ entry :: rest →
    entry.Named name → (∀ other ∈ rest, ¬ other.Named name) →
      ∃ property, entry = .own property ∧ ':' ∉ property.paramsText

/-- The event ends in capitals, or nothing named so is read after it. -/
def Calendar.SilentAfter (page : Page) (calendar : Calendar) (name : String) :
    Prop :=
  calendar.endLine = endEvent ∨
    ∀ line ∈ calendar.after.takeWhile (· ≠ endEvent),
      valueAt name (readLine page line) = none

structure Calendar.Readable (page : Page) (calendar : Calendar) : Prop where
  begins : calendar.beginLine = beginEvent
  last : ∀ name ∈ eventFields, calendar.items.LastIsOwn name
  after : ∀ name ∈ eventFields, calendar.SilentAfter page name

/-! What is read on a line. -/

section ReadLine

variable {page : Page}

theorem readLine_append {name rest : List Char} (colon : ':' ∉ name)
    (semicolon : ';' ∉ name)
    (first : rest.head? = some ':' ∨ rest.head? = some ';')
    (some_colon : ':' ∈ rest) :
    readLine page (name ++ rest) =
      some (page.toUpperCase (String.ofList name),
        String.ofList (rest.dropWhile (· ≠ ':')).tail) := by
  have hname : ∀ c ∈ name, decide (c ≠ ':') = true := by
    intro c hc
    exact decide_eq_true fun h => colon (h ▸ hc)
  have hname' : ∀ c ∈ name, decide (c ≠ ';') = true := by
    intro c hc
    exact decide_eq_true fun h => semicolon (h ▸ hc)
  have hrest : (rest.takeWhile (· ≠ ':')).takeWhile (· ≠ ';') = [] := by
    obtain hhead | hhead := first
    · obtain ⟨rest, rfl⟩ := List.head?_eq_some_iff.mp hhead
      rfl
    · obtain ⟨rest, rfl⟩ := List.head?_eq_some_iff.mp hhead
      rfl
  rw [readLine, if_pos (List.mem_append_right _ some_colon)]
  simp only [List.takeWhile_append_of_pos hname,
    List.takeWhile_append_of_pos hname', List.dropWhile_append_of_pos hname,
    hrest, List.append_nil]

theorem toUpperCase_name (name : Name) :
    page.toUpperCase (String.ofList name.text) =
      String.ofList (upper name.text) := by
  have hascii : ∀ c ∈ (String.ofList name.text).toList, c.toNat < 128 := by
    intro c hc
    rw [String.toList_ofList] at hc
    have := range_of_isNameChar (name.chars c hc)
    omega
  rw [page.toUpperCase_ascii _ hascii, String.toList_ofList]
  rfl

theorem Property.head_rest (property : Property) :
    (property.paramsText ++ ':' :: property.value).head? = some ':' ∨
      (property.paramsText ++ ':' :: property.value).head? = some ';' := by
  rw [Property.paramsText]
  cases property.params with
  | nil => exact .inl rfl
  | cons param params => exact .inr rfl

theorem readLine_line (property : Property) :
    readLine page property.line =
      some (String.ofList (upper property.name.text),
        String.ofList ((property.paramsText ++
          ':' :: property.value).dropWhile (· ≠ ':')).tail) := by
  rw [Property.line, readLine_append (not_mem_name _ (by decide))
    (not_mem_name _ (by decide)) property.head_rest
    (List.mem_append_right _ List.mem_cons_self), toUpperCase_name]

theorem value_eq_iff (property : Property) :
    ((property.paramsText ++ ':' :: property.value).dropWhile
      (· ≠ ':')).tail = property.value ↔ ':' ∉ property.paramsText := by
  have hdrop {before : List Char} (colon : ':' ∉ before) (rest : List Char) :
      ((before ++ ':' :: rest).dropWhile (· ≠ ':')).tail = rest := by
    have hbefore : ∀ c ∈ before, decide (c ≠ ':') = true := by
      intro c hc
      exact decide_eq_true fun h => colon (h ▸ hc)
    rw [List.dropWhile_append_of_pos hbefore]
    rfl
  constructor
  · intro hvalue hcolon
    obtain ⟨before, after, hparams, hbefore⟩ :=
      List.eq_append_cons_of_mem hcolon
    rw [hparams, List.append_assoc, List.cons_append, hdrop hbefore] at hvalue
    have hlength := congrArg List.length hvalue
    rw [List.length_append, List.length_cons] at hlength
    omega
  · intro hcolon
    exact hdrop hcolon property.value

theorem readLine_of_upper {line word rest : List Char}
    (h : upper line = word ++ ':' :: rest)
    (plain : word.all (fun c => c != ':' && c != ';' &&
      decide (c.toNat < 128)) = true) :
    ∃ value, readLine page line = some (String.ofList word, value) := by
  obtain ⟨before, after, rfl, rfl, hafter⟩ := List.map_eq_append_iff.mp h
  obtain ⟨c, after, rfl, hc, rfl⟩ := List.map_eq_cons_iff.mp hafter
  have hcolon : c = ':' := by
    obtain hsame | ⟨_, _, hsum⟩ := toUpper_cases c
    · rw [← hsame, hc]
    · rw [hc] at hsum
      have : (':' : Char).toNat = 58 := rfl
      omega
  have hbefore (d : Char) (hd : d ∈ before) :
      d.toUpper ≠ ':' ∧ d.toUpper ≠ ';' ∧ d.toUpper.toNat < 128 := by
    have hall := List.all_eq_true.mp plain _ (List.mem_map_of_mem hd)
    simpa [and_assoc] using hall
  have hascii : ∀ d ∈ (String.ofList before).toList, d.toNat < 128 := by
    intro d hd
    rw [String.toList_ofList] at hd
    obtain hsame | ⟨_, hmost, _⟩ := toUpper_cases d
    · rw [← hsame]
      exact (hbefore d hd).2.2
    · omega
  subst hcolon
  refine ⟨String.ofList ((':' :: after).dropWhile (· ≠ ':')).tail, ?_⟩
  rw [readLine_append (fun hd => (hbefore _ hd).1 (by decide))
    (fun hd => (hbefore _ hd).2.1 (by decide)) (.inl rfl)
    List.mem_cons_self, page.toUpperCase_ascii _ hascii,
    String.toList_ofList]

theorem valueAt_mark {line word rest : List Char} {name : String}
    (h : upper line = word ++ ':' :: rest)
    (plain : word.all (fun c => c != ':' && c != ';' &&
      decide (c.toNat < 128)) = true)
    (other : String.ofList word ≠ name) :
    valueAt name (readLine page line) = none := by
  obtain ⟨value, hread⟩ := @readLine_of_upper page _ _ _ h plain
  rw [hread]
  exact if_neg other

theorem ne_begin_end (property : Property) (page : Page) :
    property.line ≠ beginEvent ∧ property.line ≠ endEvent := by
  have hword {line word rest : List Char}
      (h : upper line = word ++ ':' :: rest)
      (plain : word.all (fun c => c != ':' && c != ';' &&
        decide (c.toNat < 128)) = true)
      (other : upper property.name.text ≠ word) : property.line ≠ line := by
    intro hsame
    obtain ⟨value, hread⟩ := @readLine_of_upper page _ _ _ h plain
    rw [← hsame, readLine_line] at hread
    have hname := (Prod.mk.inj (Option.some.inj hread)).1
    exact other (String.ofList_injective hname)
  exact ⟨@hword beginEvent "BEGIN".toList "VEVENT".toList (by decide)
      (by decide) property.noMark.1,
    @hword endEvent "END".toList "VEVENT".toList (by decide) (by decide)
      property.noMark.2⟩

theorem mark_ne_begin_end (component : ComponentName) :
    (component.beginLine ≠ beginEvent ∧ component.beginLine ≠ endEvent) ∧
      component.endLine ≠ beginEvent ∧ component.endLine ≠ endEvent := by
  have hname {word : List Char}
      (h : word ++ component.name.text = word ++ "VEVENT".toList) : False := by
    have hname := List.append_cancel_left h
    apply component.noEvent
    rw [hname]
    decide
  have hhead {word other rest : List Char} (hword : word.head? ≠ other.head?)
      (nonempty : word ≠ []) (nonempty' : other ≠ []) :
      word ++ component.name.text ≠ other ++ rest := by
    intro h
    have hheads := congrArg List.head? h
    rw [List.head?_append_of_ne_nil _ nonempty,
      List.head?_append_of_ne_nil _ nonempty'] at hheads
    exact hword hheads
  refine ⟨⟨fun h => hname h, ?_⟩, ?_, fun h => hname h⟩
  · exact @hhead "BEGIN:".toList "END:".toList "VEVENT".toList (by decide)
      (by decide) (by decide)
  · exact @hhead "END:".toList "BEGIN:".toList "VEVENT".toList (by decide)
      (by decide) (by decide)

theorem entry_ne_begin_end (page : Page) {items : Items} :
    ∀ entry ∈ items.entries,
      entry.line ≠ beginEvent ∧ entry.line ≠ endEvent := by
  intro entry hentry
  cases entry with
  | own property => exact ne_begin_end property page
  | nested property => exact ne_begin_end property page
  | mark line =>
      obtain ⟨component, rfl | rfl⟩ := Items.mark_entries hentry
      · exact (mark_ne_begin_end component).1
      · exact (mark_ne_begin_end component).2

/-! What the event's own reading gives. -/

theorem valueOutsideQuotes_append {text rest : List Char} {quoted : Bool}
    (quote : '"' ∉ text) (colon : quoted = true ∨ ':' ∉ text) :
    valueOutsideQuotes quoted (text ++ rest) =
      valueOutsideQuotes quoted rest := by
  induction text with
  | nil => rfl
  | cons c text ih =>
      obtain ⟨hquote, hquotes⟩ := not_or.mp (List.mem_cons.not.mp quote)
      have hcolon : ¬ (c = ':' ∧ quoted = false) := by
        rintro ⟨rfl, rfl⟩
        obtain hfalse | hcolon := colon
        · cases hfalse
        · exact hcolon List.mem_cons_self
      rw [List.cons_append, valueOutsideQuotes, if_neg (Ne.symm hquote),
        if_neg hcolon]
      exact ih hquotes (colon.imp id fun h hc =>
        h (List.mem_cons_of_mem c hc))

theorem valueOutsideQuotes_value (value : ParamValue) (rest : List Char) :
    valueOutsideQuotes false (value.text ++ rest) =
      valueOutsideQuotes false rest := by
  cases value with
  | plain text safe =>
      apply valueOutsideQuotes_append
      · intro h
        exact absurd (safe _ h) (by decide)
      · exact .inr fun h => absurd (safe _ h) (by decide)
  | quoted text safe =>
      have hquote : '"' ∉ text := fun h => absurd (safe _ h) (by decide)
      change valueOutsideQuotes false ('"' :: ((text ++ ['"']) ++ rest)) = _
      rw [valueOutsideQuotes, if_pos rfl, List.append_assoc, Bool.not_false,
        valueOutsideQuotes_append hquote (.inl rfl)]
      rfl

theorem valueOutsideQuotes_params (params : List Param) (rest : List Char) :
    valueOutsideQuotes false (params.flatMap Param.text ++ rest) =
      valueOutsideQuotes false rest := by
  have hothers (values : List ParamValue) (rest : List Char) :
      valueOutsideQuotes false
          (values.flatMap (fun value => ',' :: value.text) ++ rest) =
        valueOutsideQuotes false rest := by
    induction values with
    | nil => rfl
    | cons value values ih =>
        rw [List.flatMap_cons, List.append_assoc, List.cons_append,
          ← List.singleton_append,
          valueOutsideQuotes_append (by decide) (.inr (by decide)),
          valueOutsideQuotes_value, ih]
  induction params with
  | nil => rfl
  | cons param params ih =>
      have htext : param.text = [';'] ++ (param.name.text ++ (['='] ++
          (param.first.text ++ param.others.flatMap
            fun value => ',' :: value.text))) := rfl
      rw [List.flatMap_cons, List.append_assoc, htext]
      simp only [List.append_assoc]
      rw [valueOutsideQuotes_append (by decide) (.inr (by decide)),
        valueOutsideQuotes_append (not_mem_name _ (by decide))
          (.inr (not_mem_name _ (by decide))),
        valueOutsideQuotes_append (by decide) (.inr (by decide)),
        valueOutsideQuotes_value, hothers, ih]

theorem valueOutsideQuotes_line (property : Property) :
    valueOutsideQuotes false property.line = some property.value := by
  rw [Property.line, valueOutsideQuotes_append (not_mem_name _ (by decide))
    (.inr (not_mem_name _ (by decide))), Property.paramsText,
    valueOutsideQuotes_params]
  rfl

end ReadLine

/-! The lines that are read of an event. -/

section Own

variable {page : Page} {name : String}

def codeValue (page : Page) (name : String) (entry : Entry) : Option String :=
  valueAt name (readLine page entry.line)

theorem codeValue_property {property : Property} :
    valueAt name (readLine page property.line) =
      if property.Named name then
        some (String.ofList ((property.paramsText ++
          ':' :: property.value).dropWhile (· ≠ ':')).tail)
      else none := by
  have hnamed : String.ofList (upper property.name.text) = name ↔
      property.Named name := by
    rw [Property.Named, ← String.toList_inj, String.toList_ofList]
  rw [readLine_line, valueAt, Option.bind_some]
  by_cases h : property.Named name
  · rw [if_pos h]
    exact if_pos (hnamed.mpr h)
  · rw [if_neg h]
    exact if_neg (hnamed.not.mpr h)

theorem valueAt_of_mem {word line rest : List Char}
    (field : name ∈ eventFields) (h : upper line = word ++ ':' :: rest)
    (mark : word = "BEGIN".toList ∨ word = "END".toList) :
    valueAt name (readLine page line) = none := by
  have hnames : eventFields.all
      (fun name => "BEGIN" != name && "END" != name) = true := by
    decide
  have hname := List.all_eq_true.mp hnames name field
  rw [Bool.and_eq_true, bne_iff_ne, bne_iff_ne] at hname
  obtain rfl | rfl := mark
  · exact valueAt_mark h (by decide) hname.1
  · exact valueAt_mark h (by decide) hname.2

theorem codeValue_mark {items : Items} {line : List Char}
    (field : name ∈ eventFields) (h : .mark line ∈ items.entries) :
    codeValue page name (.mark line) = none := by
  obtain ⟨component, rfl | rfl⟩ := Items.mark_entries h
  · exact @valueAt_of_mem _ _ _ _ (upper component.name.text) field rfl
      (.inl rfl)
  · exact @valueAt_of_mem _ _ _ _ (upper component.name.text) field rfl
      (.inr rfl)

theorem codeValue_ne_none_iff {items : Items} {entry : Entry}
    (field : name ∈ eventFields) (h : entry ∈ items.entries) :
    codeValue page name entry ≠ none ↔ entry.Named name := by
  have hproperty (property : Property) :
      valueAt name (readLine page property.line) ≠ none ↔
        property.Named name := by
    rw [codeValue_property]
    split
    · exact iff_of_true (Option.some_ne_none _) ‹_›
    · exact iff_of_false (not_not.mpr rfl) ‹_›
  cases entry with
  | own property =>
      refine (hproperty property).trans ⟨fun h => ⟨property, rfl, h⟩, ?_⟩
      rintro ⟨_, hsame, hnamed⟩
      cases hsame
      exact hnamed
  | nested property =>
      refine (hproperty property).trans ⟨fun h => ⟨property, rfl, h⟩, ?_⟩
      rintro ⟨_, hsame, hnamed⟩
      cases hsame
      exact hnamed
  | mark line =>
      refine iff_of_false (not_not.mpr (codeValue_mark field h)) ?_
      rintro ⟨_, hnone, _⟩
      cases hnone

theorem ownValue_own {property : Property} :
    Entry.ownValue name (.own property) =
      if property.Named name then some (String.ofList property.value)
      else none := by
  rw [Entry.ownValue, valueOutsideQuotes_line]
  rfl

theorem ownValue_of_codeValue {entry : Entry}
    (h : codeValue page name entry = none) : entry.ownValue name = none := by
  cases entry with
  | own property =>
      rw [codeValue, Entry.line, codeValue_property] at h
      rw [ownValue_own]
      split
      · rw [if_pos ‹_›] at h
        cases h
      · rfl
  | nested property => rfl
  | mark line => rfl

theorem ownValue_eq_iff {entry : Entry} (named : entry.Named name) :
    entry.ownValue name = codeValue page name entry ↔
      ∃ property, entry = .own property ∧ ':' ∉ property.paramsText := by
  obtain ⟨property, hproperty, hnamed⟩ := named
  cases entry with
  | own other =>
      cases hproperty
      rw [ownValue_own, codeValue, Entry.line, codeValue_property,
        if_pos hnamed, if_pos hnamed, Option.some.injEq,
        String.ofList_inj, eq_comm, value_eq_iff]
      constructor
      · exact fun h => ⟨property, rfl, h⟩
      · rintro ⟨other, hsame, h⟩
        cases hsame
        exact h
  | nested other =>
      cases hproperty
      refine iff_of_false ?_ ?_
      · rw [codeValue, Entry.line, codeValue_property, if_pos hnamed]
        exact nofun
      · rintro ⟨_, hsame, _⟩
        cases hsame
  | mark line => cases hproperty

theorem latest_eq_own_iff {items : Items} (field : name ∈ eventFields) :
    latest (codeValue page name) items.entries =
        latest (Entry.ownValue name) items.entries ↔
      items.LastIsOwn name := by
  rw [latest_eq_iff fun _ _ => ownValue_of_codeValue]
  refine forall_congr' fun first => forall_congr' fun entry =>
    forall_congr' fun rest => forall_congr' fun hitems => ?_
  have hmem (other : Entry) (h : other ∈ entry :: rest) :
      other ∈ items.entries := by
    rw [hitems]
    exact List.mem_append_right _ h
  have hread := @codeValue_ne_none_iff page _ _ _ field
    (hmem entry List.mem_cons_self)
  have hrest : (∀ other ∈ rest, codeValue page name other = none) ↔
      ∀ other ∈ rest, ¬ other.Named name :=
    forall₂_congr fun other hother => by
      rw [← @codeValue_ne_none_iff page _ _ _ field
        (hmem other (List.mem_cons_of_mem _ hother)), not_not]
  rw [hread, hrest]
  exact forall_congr' fun named => forall_congr' fun _ =>
    ownValue_eq_iff named

theorem places_append {inEvent : Bool} {lines : List (List Char)}
    (others : ∀ line ∈ lines, line ≠ beginEvent ∧ line ≠ endEvent)
    (rest : List (List Char)) :
    places page inEvent (lines ++ rest) =
      lines.map (fun line => if inEvent = false then none
        else readLine page line) ++ places page inEvent rest := by
  induction lines with
  | nil => rfl
  | cons line lines ih =>
      obtain ⟨⟨hbegin, hend⟩, hlines⟩ := List.forall_mem_cons.mp others
      rw [List.cons_append, places, if_neg hbegin, if_neg hend, ih hlines,
        List.map_cons, List.cons_append]
      split <;> rfl

theorem latest_places_eq_none_iff (field : name ∈ eventFields)
    (lines : List (List Char)) :
    latest (valueAt name) (places page true (lines ++ [[]])) = none ↔
      ∀ line ∈ lines.takeWhile (· ≠ endEvent),
        valueAt name (readLine page line) = none := by
  rw [latest_eq_none_iff]
  induction lines with
  | nil =>
      refine iff_of_true (fun item hitem => ?_) (List.forall_mem_nil _)
      rw [List.mem_singleton.mp hitem]
      rfl
  | cons line lines ih =>
      rw [List.cons_append, places]
      by_cases hbegin : line = beginEvent
      · have hmark := @valueAt_of_mem page name _ line "VEVENT".toList field
          (by rw [hbegin]; decide) (.inl rfl)
        have hend : line ≠ endEvent := by
          rw [hbegin]
          decide
        rw [if_pos hbegin, List.forall_mem_cons, ih,
          List.takeWhile_cons_of_pos (by simpa using hend),
          List.forall_mem_cons]
        exact and_congr_left fun _ => iff_of_true rfl hmark
      by_cases hend : line = endEvent
      · rw [if_neg hbegin, if_pos hend, hend, List.takeWhile_cons_of_neg
          (by decide)]
        exact iff_of_true (List.forall_mem_nil _) (List.forall_mem_nil _)
      · rw [if_neg hbegin, if_neg hend, if_neg (by decide),
          List.forall_mem_cons, ih,
          List.takeWhile_cons_of_pos (by simpa using hend),
          List.forall_mem_cons]

end Own

namespace Calendar

variable {page : Page} {calendar : Calendar} {name : String}

/-- What is read on the last line of the event and after it. -/
def readAfter (page : Page) (calendar : Calendar) :
    List (Option (String × String)) :=
  places page true (calendar.endLine :: (calendar.after ++ [[]]))

theorem readAfter_eq_none_iff (field : name ∈ eventFields) :
    latest (valueAt name) (calendar.readAfter page) = none ↔
      calendar.SilentAfter page name := by
  have hends := calendar.ends
  have hbegin : calendar.endLine ≠ beginEvent := by
    intro h
    rw [h] at hends
    revert hends
    decide
  rw [readAfter, places, if_neg hbegin, SilentAfter]
  by_cases hend : calendar.endLine = endEvent
  · rw [if_pos hend]
    exact iff_of_true rfl (.inl hend)
  · have hmark := @valueAt_of_mem page name _ calendar.endLine
      "VEVENT".toList field (by rw [hends]; decide) (.inr rfl)
    rw [if_neg hend, if_neg (by decide), latest_cons, hmark, Option.map_none,
      Option.or_none, Option.map_eq_none_iff, latest_places_eq_none_iff field,
      or_iff_right hend]

/-- The place of a line from the first line of the event on. -/
def shift (calendar : Calendar) (read : Nat × String) : Nat × String :=
  (read.1 + (calendar.before.length + 1), read.2)

theorem own_eq (calendar : Calendar) (name : String) :
    calendar.own name =
      (latest (Entry.ownValue name) calendar.items.entries).map
        calendar.shift := by
  have hmarks (lines : List (List Char)) :
      ∀ entry ∈ lines.map Entry.mark, entry.ownValue name = none := by
    intro entry hentry
    obtain ⟨line, _, rfl⟩ := List.mem_map.mp hentry
    rfl
  have hafter : latest (Entry.ownValue name) (.mark calendar.endLine ::
      calendar.after.map .mark) = none :=
    latest_eq_none_iff.mpr
      (List.forall_mem_cons.mpr ⟨rfl, hmarks calendar.after⟩)
  have hentries : calendar.entries =
      (calendar.before ++ [calendar.beginLine]).map .mark ++
        (calendar.items.entries ++ .mark calendar.endLine ::
          calendar.after.map .mark) := by
    simp [entries]
  rw [own, hentries, latest_append_of_silent (hmarks _),
    latest_append_of_silent_rest hafter, List.length_map, List.length_append]
  rfl

theorem places_lines (calendar : Calendar) (inEvent : Bool)
    (h : inEvent = true ↔ calendar.beginLine = beginEvent) :
    places page false (calendar.lines ++ [[]]) =
      (calendar.before ++ [calendar.beginLine]).map (fun _ => none) ++
        (calendar.items.entries.map (fun entry => if inEvent = false then none
          else readLine page entry.line) ++
          places page inEvent
            (calendar.endLine :: (calendar.after ++ [[]]))) := by
  have hbefore : ∀ line ∈ calendar.before,
      line ≠ beginEvent ∧ line ≠ endEvent := by
    intro line hline
    obtain ⟨hbegin, hend⟩ := calendar.noEvent line hline
    constructor
    · rintro rfl
      revert hbegin
      decide
    · rintro rfl
      revert hend
      decide
  have hends : calendar.beginLine ≠ endEvent := by
    intro hend
    have hbegins := calendar.begins
    rw [hend] at hbegins
    revert hbegins
    decide
  have hitems : ∀ line ∈ calendar.items.entries.map Entry.line,
      line ≠ beginEvent ∧ line ≠ endEvent := by
    intro line hline
    obtain ⟨entry, hentry, rfl⟩ := List.mem_map.mp hline
    exact entry_ne_begin_end page entry hentry
  have hlines : calendar.lines ++ [[]] =
      calendar.before ++ calendar.beginLine ::
        (calendar.items.entries.map Entry.line ++
          calendar.endLine :: (calendar.after ++ [[]])) := by
    simp [lines, entries, Entry.line, Function.comp_def]
  have hbegin (rest : List (List Char)) :
      places page false (calendar.beginLine :: rest) =
        none :: places page inEvent rest := by
    rw [places, if_neg hends]
    by_cases hbegin : calendar.beginLine = beginEvent
    · rw [if_pos hbegin, h.mpr hbegin]
    · rw [if_neg hbegin, if_pos rfl,
        Bool.eq_false_iff.mpr fun hin => hbegin (h.mp hin)]
  rw [hlines, places_append hbefore, hbegin, places_append hitems]
  simp [Function.comp_def]

theorem taken_eq (calendar : Calendar) {ics : String}
    (written : Written (fun _ => True) ics.toList calendar.lines)
    (begins : calendar.beginLine = beginEvent) :
    taken page ics name =
      (((latest (valueAt name) (calendar.readAfter page)).map fun read =>
          (read.1 + calendar.items.entries.length, read.2)).or
        (latest (codeValue page name) calendar.items.entries)).map
          calendar.shift := by
  rw [taken, linesOf_written written calendar.clean_lines,
    calendar.places_lines true (iff_of_true rfl begins),
    latest_append_of_silent, latest_append, latest_map, List.length_map,
    List.length_map, List.length_append]
  · rfl
  · intro read hread
    obtain ⟨_, _, rfl⟩ := List.mem_map.mp hread
    rfl

theorem taken_eq_own_iff {ics : String} (field : name ∈ eventFields)
    (written : Written (fun _ => True) ics.toList calendar.lines)
    (begins : calendar.beginLine = beginEvent) :
    taken page ics name = calendar.own name ↔
      calendar.items.LastIsOwn name ∧ calendar.SilentAfter page name := by
  have hshift : Function.Injective calendar.shift := by
    rintro ⟨place, value⟩ ⟨place', value'⟩ hsame
    obtain ⟨hplace, hvalue⟩ := Prod.mk.inj hsame
    exact Prod.ext (Nat.add_right_cancel hplace) hvalue
  rw [calendar.taken_eq written begins, own_eq,
    (Option.map_injective hshift).eq_iff, ← @readAfter_eq_none_iff page _ _
      field, ← @latest_eq_own_iff page _ _ field]
  cases hafter : latest (valueAt name) (calendar.readAfter page) with
  | none => simp
  | some read =>
      refine iff_of_false ?_ (fun h => Option.some_ne_none _ h.2)
      intro hsame
      have hplace := place_lt hsame.symm
      exact absurd hplace (Nat.not_lt.mpr (Nat.le_add_left _ _))

theorem begins_of_taken_eq_own {ics : String}
    (written : Written (fun _ => True) ics.toList calendar.lines)
    (h : taken page ics "UID" = calendar.own "UID") :
    calendar.beginLine = beginEvent := by
  by_contra hbegin
  obtain ⟨property, hmem, hnamed⟩ := calendar.hasUid
  have hread : latest (Entry.ownValue "UID") calendar.items.entries ≠ none := by
    intro hnone
    have hsilent := latest_eq_none_iff.mp hnone _ hmem
    rw [ownValue_own, if_pos hnamed] at hsilent
    cases hsilent
  obtain ⟨read, hread⟩ := Option.ne_none_iff_exists'.mp hread
  have hplace := place_lt hread
  have hplaces := @places_lines page calendar false
    (iff_of_false nofun hbegin)
  rw [taken, linesOf_written written calendar.clean_lines, hplaces,
    ← List.append_assoc, latest_append_of_silent, own_eq, hread] at h
  · obtain ⟨other, _, hsame⟩ := Option.map_eq_some_iff.mp h
    have hplace' := (Prod.mk.inj hsame).1
    simp only [List.length_append, List.length_map, List.length_cons,
      List.length_nil] at hplace'
    omega
  · intro read hread
    obtain hread | hread := List.mem_append.mp hread
    · obtain ⟨_, _, rfl⟩ := List.mem_map.mp hread
      rfl
    · obtain ⟨_, _, rfl⟩ := List.mem_map.mp hread
      rfl

end Calendar

theorem Calendar.taken_of_readable {page : Page} {calendar : Calendar}
    {ics name : String} (readable : calendar.Readable page)
    (written : Written (fun _ => True) ics.toList calendar.lines)
    (field : name ∈ eventFields) : taken page ics name = calendar.own name :=
  (Calendar.taken_eq_own_iff field written readable.begins).mpr
    ⟨readable.last name field, readable.after name field⟩

/-- An event that is read as its own is given by its own start and duration. -/
theorem Calendar.givenBy_of_own {page : Page} {calendar : Calendar}
    {ics : String} {start : TimeValue} {duration : Duration}
    (readable : calendar.Readable page)
    (written : Written (fun _ => True) ics.toList calendar.lines)
    (dtstart : ∃ place v, calendar.own "DTSTART" = some (place, v) ∧
      parseICSDate page v = some start)
    (lasts : ∃ place, calendar.own "DURATION" = some (place, duration.text))
    (dtend : calendar.own "DTEND" = none) :
    GivenBy page ics start duration where
  dtstart := by
    rw [Calendar.taken_of_readable readable written (by decide)]
    exact dtstart
  duration := by
    rw [Calendar.taken_of_readable readable written (by decide)]
    exact lasts
  dtend := by
    rw [Calendar.taken_of_readable readable written (by decide)]
    exact dtend

/-- The fields of an event are those of its own lines just when it begins in
capitals and the last line of each name is its own. -/
theorem takes_own_iff (page : Page) (calendar : Calendar) (ics : String)
    (written : Written (fun _ => True) ics.toList calendar.lines) :
    parseEvent page ics =
        eventOf page (fun name => (taken page ics name).map Prod.snd) ∧
      ((∀ name ∈ eventFields, taken page ics name = calendar.own name) ↔
        calendar.Readable page) := by
  refine ⟨parseEvent_eq page ics, ?_, ?_⟩
  · intro h
    have hbegins := Calendar.begins_of_taken_eq_own written
      (h "UID" (by decide))
    have hnames (name : String) (hname : name ∈ eventFields) :=
      (Calendar.taken_eq_own_iff hname written hbegins).mp (h name hname)
    exact ⟨hbegins, fun name hname => (hnames name hname).1,
      fun name hname => (hnames name hname).2⟩
  · intro hreadable name hname
    exact Calendar.taken_of_readable hreadable written hname

/-! A meeting with a reminder. -/

def uidLine : Property where
  name := ⟨"UID".toList, by decide, List.all_eq_true.mp (by decide)⟩
  noMark := by decide
  params := []
  value := "1".toList
  chars := List.all_eq_true.mp (by decide)

def descriptionLine (params : List Param) (value : String)
    (chars : value.toList.all isValueChar = true) : Property where
  name := ⟨"DESCRIPTION".toList, by decide, List.all_eq_true.mp (by decide)⟩
  noMark := by decide
  params := params
  value := value.toList
  chars := List.all_eq_true.mp chars

def alarm : ComponentName where
  name := ⟨"VALARM".toList, by decide, List.all_eq_true.mp (by decide)⟩
  noEvent := by decide

/-- The parameter `ALTREP="cid:1"`. -/
def altRep : Param where
  name := ⟨"ALTREP".toList, by decide, List.all_eq_true.mp (by decide)⟩
  first := .quoted "cid:1".toList (List.all_eq_true.mp (by decide))
  others := []

def reviewCalendar (rest : Items) : Calendar where
  before := ["BEGIN:VCALENDAR".toList]
  beginLine := "BEGIN:VEVENT".toList
  items := .line uidLine rest
  endLine := "END:VEVENT".toList
  after := ["END:VCALENDAR".toList]
  begins := by decide
  ends := by decide
  noEvent := by decide
  hasUid := ⟨uidLine, List.mem_cons_self, by decide⟩
  clean := by
    have hword {line : List Char} (hhead : line.head? = some 'B' ∨
        line.head? = some 'E') (c : Char) (hc : line.head? = some c) :
        ¬ IsBlank c := by
      rintro (rfl | rfl)
      · obtain h | h := hhead <;> simp [h] at hc
      · obtain h | h := hhead <;> simp [h] at hc
    intro line hline
    obtain rfl | hline := List.mem_cons.mp hline
    · exact ⟨by decide, by decide, hword (.inl (by decide))⟩
    · rw [List.mem_singleton.mp hline]
      exact ⟨by decide, by decide, hword (.inr (by decide))⟩

/-- The event's own description, and then that of its reminder. -/
def reminderCalendar : Calendar :=
  reviewCalendar (.line (descriptionLine [] "Review" (by decide))
    (.component alarm
      (.line (descriptionLine [] "Reminder" (by decide)) .nil) .nil))

def quotedCalendar : Calendar :=
  reviewCalendar (.line (descriptionLine [altRep] "Review" (by decide)) .nil)

def Calendar.ics (calendar : Calendar) : String :=
  String.ofList (calendar.lines.flatMap (· ++ LineEnd.long.text))

theorem Calendar.written_ics (calendar : Calendar) :
    Written (fun _ => True) calendar.ics.toList calendar.lines := by
  rw [Calendar.ics, String.toList_ofList]
  exact written_flatMap calendar.lines

theorem taken_ics (page : Page) (calendar : Calendar) (name : String) :
    taken page calendar.ics name =
      latest (valueAt name) (places page false (calendar.lines ++ [[]])) := by
  rw [taken, linesOf_written calendar.written_ics calendar.clean_lines]

def trigger : Property where
  name := ⟨"TRIGGER".toList, by decide, List.all_eq_true.mp (by decide)⟩
  noMark := by decide
  params := []
  value := "-PT15M".toList
  chars := List.all_eq_true.mp (by decide)

/-- The parameter `LANGUAGE="fr"`. -/
def language : Param where
  name := ⟨"LANGUAGE".toList, by decide, List.all_eq_true.mp (by decide)⟩
  first := .quoted "fr".toList (List.all_eq_true.mp (by decide))
  others := []

/-- A reminder without a description stands behind the event's own. -/
def remindedCalendar : Calendar :=
  reviewCalendar (.line (descriptionLine [language] "Review" (by decide))
    (.component alarm (.line trigger .nil) .nil))

theorem takes_own_review :
    parseEvent meetingPage remindedCalendar.ics =
        eventOf meetingPage (fun name =>
          (taken meetingPage remindedCalendar.ics name).map Prod.snd) ∧
      (remindedCalendar.own "DESCRIPTION").map Prod.snd = some "Review" ∧
      remindedCalendar.Readable meetingPage := by
  obtain ⟨hparse, hiff⟩ := takes_own_iff meetingPage remindedCalendar
    remindedCalendar.ics remindedCalendar.written_ics
  refine ⟨hparse, by decide +kernel, hiff.mp fun name => ?_⟩
  rw [taken_ics]
  revert name
  decide +kernel

/-- The reminder's description is taken, and a value from the quotes on. -/
theorem reminder_taken :
    ((taken meetingPage reminderCalendar.ics "DESCRIPTION").map Prod.snd =
        some "Reminder" ∧
      (reminderCalendar.own "DESCRIPTION").map Prod.snd = some "Review") ∧
    (taken meetingPage quotedCalendar.ics "DESCRIPTION").map Prod.snd =
        some "1\":Review" ∧
      (quotedCalendar.own "DESCRIPTION").map Prod.snd = some "Review" := by
  rw [taken_ics, taken_ics]
  exact ⟨⟨by decide +kernel, by decide +kernel⟩, by decide +kernel,
    by decide +kernel⟩

end TwakeKickstart.Visio
