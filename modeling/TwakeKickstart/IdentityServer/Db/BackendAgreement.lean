import TwakeKickstart.IdentityServer.Db.Backends

namespace TwakeKickstart.IdentityServer

open Library

/-! When the two backends do the same with a call. -/

/-- The statements that a backend writes on its own. -/
structure Backend where
  matchLike : List String → SqlValue → Option Query
  deleteEqual : String → SqlValue → Option Query
  deleteEqualAnd : String × SqlValue → String × SqlValue → Option Query
  deleteLowerThan : String → SqlValue → Option Query
  deleteWhere : List ISQLCondition → Option Query

def backend : SupportedDatabases → Backend
  | .pg =>
      { matchLike := Pg.matchLike
        deleteEqual := Pg.deleteEqual
        deleteEqualAnd := Pg.deleteEqualAnd
        deleteLowerThan := Pg.deleteLowerThan
        deleteWhere := Pg.deleteWhere }
  | .sqlite =>
      { matchLike := Sqlite.matchLike
        deleteEqual := Sqlite.deleteEqual
        deleteEqualAnd := Sqlite.deleteEqualAnd
        deleteLowerThan := Sqlite.deleteLowerThan
        deleteWhere := Sqlite.deleteWhere }

inductive BackendCall where
  | matchLike (fields searchFields : List String) (value : SqlValue)
      (order : Option String)
  | deleteEqual (field : String) (value : SqlValue)
  | deleteEqualAnd (condition1 condition2 : String × SqlValue)
  | deleteLowerThan (field : String) (value : SqlValue)
  | deleteWhere (conditions : List ISQLCondition)
  | get (fields : List String) (filter : Filter) (order : Option String)

namespace BackendCall

section Calls

variable (engines : Engines) (engine : SupportedDatabases)

/-- The rows that the call returns or deletes, unless it is rejected. -/
def run {columns : Columns} (rows : List (StoredRow columns)) :
    BackendCall → Option (List (StoredRow columns))
  | matchLike fields searchFields value order =>
      -- SQLite's text has no blank before ORDER BY, and needs none there
      if engines.selectable columns
          (if fields.isEmpty then ["*"] else fields) order then
        ((backend engine).matchLike searchFields value).bind
          (·.run engines engine rows)
      else none
  | deleteEqual field value =>
      ((backend engine).deleteEqual field value).bind
        (·.run engines engine rows)
  | deleteEqualAnd condition1 condition2 =>
      ((backend engine).deleteEqualAnd condition1 condition2).bind
        (·.run engines engine rows)
  | deleteLowerThan field value =>
      ((backend engine).deleteLowerThan field value).bind
        (·.run engines engine rows)
  | deleteWhere conditions =>
      ((backend engine).deleteWhere conditions).bind
        (·.run engines engine rows)
  | get fields filter order =>
      SQL.get engines engine fields filter order rows

def selectable (columns : Columns) : BackendCall → Bool
  | matchLike fields _ _ order =>
      engines.selectable columns (if fields.isEmpty then ["*"] else fields)
        order
  | get fields _ order =>
      engines.selectable columns (SQL.projection fields) order
  | _ => true

/-- PostgreSQL's backend writes no value that is falsy into a pattern. -/
def pattern (value : SqlValue) : SupportedDatabases → String
  | .pg => if value.falsy then "%" else "%" ++ value.toText ++ "%"
  | .sqlite => "%" ++ value.toText ++ "%"

/-- What the call asks of a row. -/
def asked : BackendCall → Option Query
  | matchLike _ searchFields value _ =>
      whereAny (searchFields.map fun field =>
        .like field (pattern value engine))
  | deleteEqual field value => some [[.compare field .eq value]]
  | deleteEqualAnd condition1 condition2 =>
      some [[.compare condition1.1 .eq condition1.2],
        [.compare condition2.1 .eq condition2.2]]
  | deleteLowerThan field value => some [[.compare field .lt value]]
  | deleteWhere conditions => whereAll (conditions.map (·.condition))
  | get _ filter _ => filter.resolve.map queryOf

/-- A field and a value that the guard of PostgreSQL's backend lets through. -/
def Given (field : String) (value : SqlValue) : Prop :=
  field ≠ "" ∧ value.falsy = false

def Guarded : BackendCall → Prop
  | deleteEqual field value => Given field value
  | deleteEqualAnd condition1 condition2 =>
      Given condition1.1 condition1.2 ∧ Given condition2.1 condition2.2
  | deleteLowerThan field value => Given field value
  | _ => True

/-- The call has conditions, on columns of the table. -/
structure Usable (columns : Columns) (call : BackendCall) : Prop where
  selectable : call.selectable engines columns = true
  asks : ∃ query, call.asked .sqlite = some query ∧
    ∀ group ∈ query, ∀ condition ∈ group,
      (columns.lookup condition.field).isSome = true

/-- The guards let the call through, PostgreSQL reads its values, and no row
is told apart by what the two engines read. -/
structure Alike {columns : Columns} (call : BackendCall)
    (rows : List (StoredRow columns)) : Prop where
  guarded : call.Guarded
  readable : ∀ query, call.asked .pg = some query →
    ∀ group ∈ query, ∀ condition ∈ group,
      (condition.reading engines .pg columns).isSome = true
  told : ∀ row ∈ rows, ∀ query other, call.asked .pg = some query →
    call.asked .sqlite = some other →
    query.selects engines .pg row = other.selects engines .sqlite row

end Calls

end BackendCall

/-! The guards. -/

theorem Pg.invalid_eq_false {field : String} {value : SqlValue} :
    Pg.invalid field value = false ↔ BackendCall.Given field value := by
  unfold Pg.invalid BackendCall.Given
  constructor
  · intro h
    simp only [Bool.or_eq_false_iff, beq_eq_false_iff_ne] at h
    exact h.1
  · rintro ⟨hfield, hvalue⟩
    have htext : value.toText ≠ "" := by
      intro hempty
      rw [SqlValue.falsy_of_toText hempty] at hvalue
      cases hvalue
    simp [hfield, hvalue, htext]

theorem Pg.invalid_eq_true {field : String} {value : SqlValue}
    (h : ¬ BackendCall.Given field value) : Pg.invalid field value = true := by
  rw [← Pg.invalid_eq_false, Bool.not_eq_false] at h
  exact h

/-! What a reading needs. -/

theorem Condition.known_of_reading {engines : Engines}
    {engine : SupportedDatabases} {columns : Columns} {condition : Condition}
    (h : (condition.reading engines engine columns).isSome = true) :
    (columns.lookup condition.field).isSome = true := by
  unfold Condition.reading at h
  cases hlookup : columns.lookup condition.field with
  | none =>
      rw [hlookup] at h
      cases h
  | some type => rfl

theorem Condition.reading_sqlite {engines : Engines} {columns : Columns}
    {condition : Condition}
    (h : (columns.lookup condition.field).isSome = true) :
    (condition.reading engines .sqlite columns).isSome = true := by
  obtain ⟨type, htype⟩ := Option.isSome_iff_exists.mp h
  rw [Condition.reading, htype]
  cases condition with
  | compare field op value => rfl
  | like field pattern => cases type <;> rfl

theorem Query.accepted_iff {engines : Engines} {engine : SupportedDatabases}
    {columns : Columns} {query : Query} :
    query.accepted engines engine columns = true ↔
      ∀ group ∈ query, ∀ condition ∈ group,
        (condition.reading engines engine columns).isSome = true := by
  simp only [Query.accepted, List.all_eq_true]

theorem Query.accepted_sqlite {engines : Engines} {columns : Columns}
    {query : Query} :
    query.accepted engines .sqlite columns = true ↔
      ∀ group ∈ query, ∀ condition ∈ group,
        (columns.lookup condition.field).isSome = true := by
  rw [Query.accepted_iff]
  constructor
  · intro h group hgroup condition hcondition
    exact Condition.known_of_reading (h group hgroup condition hcondition)
  · intro h group hgroup condition hcondition
    exact Condition.reading_sqlite (h group hgroup condition hcondition)

theorem Query.selects_congr {engines : Engines}
    {engine other : SupportedDatabases} {columns : Columns} {query : Query}
    {row : StoredRow columns}
    (h : ∀ group ∈ query, ∀ condition ∈ group,
      condition.holds engines engine row = condition.holds engines other row) :
    query.selects engines engine row = query.selects engines other row := by
  induction query with
  | nil => rfl
  | cons group rest ih =>
      rw [List.forall_mem_cons] at h
      obtain ⟨hgroup, hrest⟩ := h
      have hany : group.any (·.holds engines engine row) =
          group.any (·.holds engines other row) := by
        rw [Bool.eq_iff_iff, List.any_eq_true, List.any_eq_true]
        apply exists_congr
        intro condition
        apply and_congr_right
        intro hcondition
        rw [hgroup condition hcondition]
      have hall := ih hrest
      simp only [Query.selects] at hall
      rw [Query.selects, Query.selects, List.all_cons, List.all_cons, hany,
        hall]

namespace BackendCall

section Agreement

variable {columns : Columns} (engines : Engines)

/-! What the backends make of a call. -/

theorem run_sqlite (call : BackendCall) (rows : List (StoredRow columns)) :
    call.run engines .sqlite rows =
      if call.selectable engines columns then
        (call.asked .sqlite).bind (·.run engines .sqlite rows)
      else none := by
  cases call with
  | matchLike fields searchFields value order => rfl
  | deleteEqual field value => rfl
  | deleteEqualAnd condition1 condition2 => rfl
  | deleteLowerThan field value => rfl
  | deleteWhere conditions => rfl
  | get fields filter order =>
      rw [run, get_eq, asked, Option.bind_map]
      rfl

theorem run_pg {call : BackendCall} (rows : List (StoredRow columns))
    (guarded : call.Guarded) :
    call.run engines .pg rows =
      if call.selectable engines columns then
        (call.asked .pg).bind (·.run engines .pg rows)
      else none := by
  cases call with
  | matchLike fields searchFields value order => rfl
  | deleteEqual field value =>
      have hguard := Pg.invalid_eq_false.mpr guarded
      simp [run, backend, Pg.deleteEqual, hguard, asked, selectable, whereAll]
  | deleteEqualAnd condition1 condition2 =>
      have hguard1 := Pg.invalid_eq_false.mpr guarded.1
      have hguard2 := Pg.invalid_eq_false.mpr guarded.2
      simp [run, backend, Pg.deleteEqualAnd, hguard1, hguard2, asked,
        selectable, whereAll]
  | deleteLowerThan field value =>
      have hguard := Pg.invalid_eq_false.mpr guarded
      simp [run, backend, Pg.deleteLowerThan, hguard, asked, selectable,
        whereAll]
  | deleteWhere conditions => rfl
  | get fields filter order =>
      rw [run, get_eq, asked, Option.bind_map]
      rfl

theorem run_unguarded {call : BackendCall} (rows : List (StoredRow columns))
    (guarded : ¬ call.Guarded) : call.run engines .pg rows = none := by
  cases call with
  | matchLike fields searchFields value order => exact absurd trivial guarded
  | deleteEqual field value =>
      have hguard := Pg.invalid_eq_true guarded
      simp [run, backend, Pg.deleteEqual, hguard]
  | deleteEqualAnd condition1 condition2 =>
      have hguard : (Pg.invalid condition1.1 condition1.2 ||
          Pg.invalid condition2.1 condition2.2) = true := by
        rcases not_and_or.mp guarded with hgiven | hgiven
        · rw [Pg.invalid_eq_true hgiven, Bool.true_or]
        · rw [Pg.invalid_eq_true hgiven, Bool.or_true]
      simp only [run, backend, Pg.deleteEqualAnd, hguard, if_true,
        Option.bind_none]
  | deleteLowerThan field value =>
      have hguard := Pg.invalid_eq_true guarded
      simp [run, backend, Pg.deleteLowerThan, hguard]
  | deleteWhere conditions => exact absurd trivial guarded
  | get fields filter order => exact absurd trivial guarded

theorem asked_fields (call : BackendCall) :
    (call.asked .pg = none ∧ call.asked .sqlite = none) ∨
    ∃ query other, call.asked .pg = some query ∧
      call.asked .sqlite = some other ∧
      query.map (·.map Condition.field) = other.map (·.map Condition.field) := by
  cases call with
  | matchLike fields searchFields value order =>
      cases searchFields with
      | nil => exact .inl ⟨rfl, rfl⟩
      | cons field rest =>
          refine .inr ⟨_, _, rfl, rfl, ?_⟩
          simp [Function.comp_def, Condition.field]
  | deleteEqual field value => exact .inr ⟨_, _, rfl, rfl, rfl⟩
  | deleteEqualAnd condition1 condition2 => exact .inr ⟨_, _, rfl, rfl, rfl⟩
  | deleteLowerThan field value => exact .inr ⟨_, _, rfl, rfl, rfl⟩
  | deleteWhere conditions =>
      cases conditions with
      | nil => exact .inl ⟨rfl, rfl⟩
      | cons condition rest => exact .inr ⟨_, _, rfl, rfl, rfl⟩
  | get fields filter order =>
      cases hresolve : filter.resolve with
      | none => exact .inl (by simp [asked, hresolve])
      | some resolved =>
          exact .inr ⟨queryOf resolved, queryOf resolved,
            by simp [asked, hresolve], by simp [asked, hresolve], rfl⟩

theorem known_of_fields {query other : Query}
    (fields : query.map (·.map Condition.field) =
      other.map (·.map Condition.field))
    (known : ∀ group ∈ query, ∀ condition ∈ group,
      (columns.lookup condition.field).isSome = true) :
    ∀ group ∈ other, ∀ condition ∈ group,
      (columns.lookup condition.field).isSome = true := by
  intro group hgroup condition hcondition
  have hmem : group.map Condition.field ∈
      query.map (·.map Condition.field) := by
    rw [fields]
    exact List.mem_map_of_mem hgroup
  obtain ⟨others, hothers, hfields⟩ := List.mem_map.mp hmem
  have hfield : condition.field ∈ others.map Condition.field := by
    rw [hfields]
    exact List.mem_map_of_mem hcondition
  obtain ⟨twin, htwin, hsame⟩ := List.mem_map.mp hfield
  rw [← hsame]
  exact known others hothers twin htwin

theorem run_unusable {call : BackendCall} (rows : List (StoredRow columns))
    (unusable : ¬ Usable engines columns call) :
    call.run engines .pg rows = none ∧ call.run engines .sqlite rows = none := by
  by_cases hselect : call.selectable engines columns = true
  · rcases asked_fields call with ⟨hpg, hsqlite⟩ |
      ⟨query, other, hpg, hsqlite, hfields⟩
    · constructor
      · by_cases guarded : call.Guarded
        · rw [run_pg engines rows guarded, hpg, Option.bind_none, ite_self]
        · exact run_unguarded engines rows guarded
      · rw [run_sqlite, hsqlite, Option.bind_none, ite_self]
    · have hother : other.accepted engines .sqlite columns ≠ true := by
        intro haccept
        exact unusable
          ⟨hselect, other, hsqlite, Query.accepted_sqlite.mp haccept⟩
      have hquery : query.accepted engines .pg columns ≠ true := by
        intro haccept
        apply hother
        rw [Query.accepted_iff] at haccept
        rw [Query.accepted_sqlite]
        apply known_of_fields hfields
        intro group hgroup condition hcondition
        exact Condition.known_of_reading
          (haccept group hgroup condition hcondition)
      constructor
      · by_cases guarded : call.Guarded
        · rw [run_pg engines rows guarded, hpg, Option.bind_some, Query.run,
            if_neg hquery, ite_self]
        · exact run_unguarded engines rows guarded
      · rw [run_sqlite, hsqlite, Option.bind_some, Query.run, if_neg hother,
          ite_self]
  · constructor
    · by_cases guarded : call.Guarded
      · rw [run_pg engines rows guarded, if_neg hselect]
      · exact run_unguarded engines rows guarded
    · rw [run_sqlite, if_neg hselect]

/-- A usable call goes through on SQLite, and on PostgreSQL when the guards
and the readings allow. -/
theorem run_usable {call : BackendCall} (rows : List (StoredRow columns))
    (usable : Usable engines columns call) :
    ∃ query other, call.asked .pg = some query ∧
      call.asked .sqlite = some other ∧
      call.run engines .sqlite rows =
        some (rows.filter (other.selects engines .sqlite)) ∧
      (call.Guarded → call.run engines .pg rows =
        query.run engines .pg rows) := by
  obtain ⟨hselect, other, hother, hknown⟩ := usable
  rcases asked_fields call with ⟨-, hnone⟩ | ⟨query, -, hquery, -, -⟩
  · rw [hother] at hnone
    cases hnone
  · refine ⟨query, other, hquery, hother, ?_, ?_⟩
    · rw [run_sqlite, if_pos hselect, hother, Option.bind_some, Query.run,
        if_pos (Query.accepted_sqlite.mpr hknown)]
    · intro guarded
      rw [run_pg engines rows guarded, if_pos hselect, hquery,
        Option.bind_some]

theorem agree_of_alike {call : BackendCall} (rows : List (StoredRow columns))
    (alike : Usable engines columns call → Alike engines call rows) :
    call.run engines .pg rows = call.run engines .sqlite rows := by
  by_cases usable : Usable engines columns call
  · obtain ⟨query, other, hquery, hother, hsqlite, hpg⟩ :=
      run_usable engines rows usable
    obtain ⟨guarded, readable, told⟩ := alike usable
    rw [hsqlite, hpg guarded, Query.run,
      if_pos (Query.accepted_iff.mpr (readable query hquery)),
      Option.some.injEq, filter_eq_filter_iff]
    intro row hrow
    exact told row hrow query other hquery hother
  · obtain ⟨hpg, hsqlite⟩ := run_unusable engines rows usable
    rw [hpg, hsqlite]

theorem alike_of_agree {call : BackendCall} {rows : List (StoredRow columns)}
    (usable : Usable engines columns call)
    (agree : call.run engines .pg rows = call.run engines .sqlite rows) :
    Alike engines call rows := by
  obtain ⟨query, other, hquery, hother, hsqlite, hpg⟩ :=
    run_usable engines rows usable
  rw [hsqlite] at agree
  have guarded : call.Guarded := by
    by_contra hguard
    rw [run_unguarded engines rows hguard] at agree
    cases agree
  rw [hpg guarded, Query.run] at agree
  by_cases haccept : query.accepted engines .pg columns = true
  · rw [if_pos haccept, Option.some.injEq, filter_eq_filter_iff] at agree
    refine ⟨guarded, ?_, ?_⟩
    · intro found hfound
      rw [hquery, Option.some.injEq] at hfound
      subst hfound
      exact Query.accepted_iff.mp haccept
    · intro row hrow found twin hfound htwin
      rw [hquery, Option.some.injEq] at hfound
      rw [hother, Option.some.injEq] at htwin
      subst hfound htwin
      exact agree row hrow
  · rw [if_neg haccept] at agree
    cases agree

/-- The backends accept or reject alike, and take the same rows. -/
theorem agree_iff (call : BackendCall) (rows : List (StoredRow columns)) :
    call.run engines .pg rows = call.run engines .sqlite rows ↔
      (Usable engines columns call → Alike engines call rows) :=
  ⟨fun agree usable => alike_of_agree engines usable agree,
    agree_of_alike engines rows⟩

/-! The calls that the backends take alike on every table. -/

/-- The two engines make the same of the condition. -/
def PlainCondition (columns : Columns) : Condition → Prop
  | .compare field _ value =>
      ∃ type, columns.lookup field = some type ∧
        engines.pgReads value type = some (engines.sqliteReads value type)
  | .like field pattern =>
      columns.lookup field = some .text ∧
        Engines.pgText pattern = some pattern ∧ '\\' ∉ pattern.toList

/-- No condition is read in two ways, and a search is for a value that is not
falsy. -/
structure Plain (columns : Columns) (call : BackendCall) : Prop where
  guarded : call.Guarded
  searched : ∀ fields searchFields value order,
    call = .matchLike fields searchFields value order → value.falsy = false
  conditions : ∀ query, call.asked .sqlite = some query →
    ∀ group ∈ query, ∀ condition ∈ group,
      PlainCondition engines columns condition

theorem plainCondition_reading {condition : Condition}
    (plain : PlainCondition engines columns condition) :
    (condition.reading engines .pg columns).isSome = true := by
  cases condition with
  | compare field op value =>
      obtain ⟨type, htype, hreads⟩ := plain
      simp [Condition.reading, Condition.field, htype, Engines.reads, hreads]
  | like field pattern =>
      obtain ⟨htype, htext, -⟩ := plain
      simp [Condition.reading, Condition.field, htype, Engines.likes, htext]

theorem plainCondition_holds {condition : Condition}
    (plain : PlainCondition engines columns condition)
    {row : StoredRow columns} (whole : row.Whole) :
    condition.holds engines .pg row = condition.holds engines .sqlite row := by
  cases condition with
  | compare field op value =>
      obtain ⟨type, htype, hreads⟩ := plain
      simp [Condition.holds, Condition.reading, Condition.field, htype,
        Engines.reads, hreads]
  | like field pattern =>
      obtain ⟨htype, htext, hescape⟩ := plain
      have hread : nul ∉ pattern.toList := by
        intro hnul
        rw [Engines.pgText, if_pos (List.contains_iff_mem.mpr hnul)] at htext
        cases htext
      have halike : ∀ text ∈ cellText (row.cells field),
          LikeRules.like ⟨true, engines.fold, false⟩ pattern.toList
              text.toList =
            LikeRules.like ⟨false, engines.fold, true⟩ pattern.toList
              text.toList := by
        intro text hcell
        rw [LikeRules.like_whole _ hread (whole field text hcell),
          LikeRules.like_whole _ hread (whole field text hcell)]
        exact LikeRules.accepts_escapes hescape _
      simp only [Condition.holds, Condition.reading, Condition.field, htype,
        Option.bind_some, Engines.likes, htext, Option.map_some,
        Option.any_some]
      cases hcell : row.cells field with
      | null => rfl
      | int n => exact halike _ (by rw [hcell]; rfl)
      | text s => exact halike _ (by rw [hcell]; rfl)

theorem asked_same {call : BackendCall}
    (searched : ∀ fields searchFields value order,
      call = .matchLike fields searchFields value order →
        value.falsy = false) :
    call.asked .pg = call.asked .sqlite := by
  cases call with
  | matchLike fields searchFields value order =>
      have hvalue := searched fields searchFields value order rfl
      simp [asked, pattern, hvalue]
  | deleteEqual field value => rfl
  | deleteEqualAnd condition1 condition2 => rfl
  | deleteLowerThan field value => rfl
  | deleteWhere conditions => rfl
  | get fields filter order => rfl

theorem plain_agree {call : BackendCall} (plain : Plain engines columns call)
    {rows : List (StoredRow columns)} (whole : ∀ row ∈ rows, row.Whole) :
    call.run engines .pg rows = call.run engines .sqlite rows := by
  apply agree_of_alike
  intro _
  obtain ⟨guarded, searched, conditions⟩ := plain
  rw [← asked_same searched] at conditions
  refine ⟨guarded, ?_, ?_⟩
  · intro query hquery group hgroup condition hcondition
    exact plainCondition_reading engines
      (conditions query hquery group hgroup condition hcondition)
  · intro row hrow query other hquery hother
    rw [← asked_same searched, hquery, Option.some.injEq] at hother
    subst hother
    apply Query.selects_congr
    intro group hgroup condition hcondition
    exact plainCondition_holds engines
      (conditions query hquery group hgroup condition hcondition)
      (whole row hrow)

end Agreement

end BackendCall

/-- SQLite deletes the row with an empty value, PostgreSQL's backend rejects
the call. -/
theorem empty_value_disagrees :
    BackendCall.run Engines.plain .pg [userRow ""]
      (.deleteEqual "id" (.text "")) = none ∧
    BackendCall.run Engines.plain .sqlite [userRow ""]
      (.deleteEqual "id" (.text "")) = some [userRow ""] :=
  ⟨rfl, rfl⟩

end TwakeKickstart.IdentityServer
