import TwakeKickstart.IdentityServer.Db.Backends

namespace TwakeKickstart.IdentityServer

open Library

/-! When the rows that `get` returns are exactly those that its filter asks
for. -/

section Semantics

variable {columns : Columns} (engines : Engines) (engine : SupportedDatabases)

/-- `column op value`, on the engine. -/
def compares (op : Operator) (row : StoredRow columns) (column : String)
    (value : JsValue) : Bool :=
  value.text?.any fun text =>
    (Condition.compare column (comparisonOf op) (.text text)).holds engines
      engine row

/-- The comparison holds of the value, or of one in the list. -/
def meets (op : Operator) (row : StoredRow columns) : String × JsValue → Bool
  | (column, .arr items) =>
      items.any (compares engines engine op row column)
  | (column, value) => compares engines engine op row column value

/-- `column = value`, on the engine. -/
def isValue (row : StoredRow columns) (column : String) (value : JsValue) :
    Bool :=
  value.text?.any fun text =>
    (Condition.compare column .eq (.text text)).holds engines engine row

/-- The column has the value, or is in the list. -/
def satisfies (row : StoredRow columns) : String × JsValue → Bool
  | (column, .arr items) => items.any (isValue engines engine row column)
  | (column, value) => isValue engines engine row column value

def satisfiesAll (filter : Filter) (row : StoredRow columns) : Bool :=
  filter.all fun entry =>
    entry.2.isNullish || satisfies engines engine row entry

/-- The value has a text form that is not empty, or none. -/
def isKept (entry : String × JsValue) : Bool :=
  !entry.2.isNullish && entry.2.text? != some ""

/-- `''`, `[]` and `['']` have an empty text form. -/
def isDropped (entry : String × JsValue) : Bool :=
  !entry.2.isNullish && entry.2.text? == some ""

/-- The engine reads the text as a value of the column. -/
def Readable (columns : Columns) (column text : String) : Prop :=
  ((Condition.compare column .eq (.text text)).reading engines engine
    columns).isSome = true

/-- The values of the entry have text forms, which the engine reads. -/
def Compared (columns : Columns) (entry : String × JsValue) : Prop :=
  ∃ texts, boundTexts entry.2 = some texts ∧
    ∀ text ∈ texts, Readable engines engine columns entry.1 text

/-- Every key that is kept can be compared, and the keys that are dropped would
not have told any row apart. -/
structure Heeded (filter : Filter) (rows : List (StoredRow columns)) :
    Prop where
  compared : ∀ entry ∈ filter, isKept entry = true →
    Compared engines engine columns entry
  dropped : ∀ row ∈ rows,
    (∀ entry ∈ filter, isKept entry = true →
      satisfies engines engine row entry = true) →
    ∀ entry ∈ filter, isDropped entry = true →
      satisfies engines engine row entry = true

end Semantics

/-! What a filter resolves to, entry by entry. -/

def entryTexts (entry : String × JsValue) : Option (String × List String) :=
  (boundTexts entry.2).map (entry.1, ·)

theorem boundTexts_of_text?_none {value : JsValue} (h : value.text? = none) :
    boundTexts value = none := by
  cases hbound : boundTexts value with
  | none => rfl
  | some texts =>
      obtain ⟨text, htext⟩ := text?_of_boundTexts hbound
      rw [h] at htext
      cases htext

theorem resolve_eq_mapM (filter : Filter) :
    filter.resolve = (filter.filter isKept).mapM entryTexts := by
  induction filter with
  | nil => rfl
  | cons entry rest ih =>
      obtain ⟨key, value⟩ := entry
      cases hnullish : value.isNullish with
      | true =>
          rw [List.filter_cons_of_neg (by simp [isKept, hnullish]), ← ih]
          simp [Filter.resolve, hnullish]
      | false =>
          cases htext : value.text? with
          | none =>
              rw [List.filter_cons_of_pos (by simp [isKept, hnullish, htext]),
                List.mapM_cons]
              simp [Filter.resolve, hnullish, htext, entryTexts,
                boundTexts_of_text?_none htext]
          | some text =>
              by_cases hempty : text = ""
              · rw [List.filter_cons_of_neg
                  (by simp [isKept, htext, hempty]), ← ih]
                simp [Filter.resolve, hnullish, htext, hempty]
              · rw [List.filter_cons_of_pos
                  (by simp [isKept, hnullish, htext, hempty]),
                  List.mapM_cons, ← ih]
                simp only [Filter.resolve, hnullish, Bool.false_eq_true,
                  if_false, htext, Option.bind_some, hempty, entryTexts]
                cases boundTexts value with
                | none => rfl
                | some texts =>
                    cases Filter.resolve rest with
                    | none => rfl
                    | some resolved => rfl

section Entries

variable {columns : Columns} (engines : Engines) (engine : SupportedDatabases)

theorem any_compares {op : Operator} {row : StoredRow columns}
    {column : String} {items : List JsValue} {texts : List String}
    (h : texts? items = some texts) :
    items.any (compares engines engine op row column) =
      texts.any fun text =>
        (Condition.compare column (comparisonOf op) (.text text)).holds engines
          engine row := by
  induction items generalizing texts with
  | nil =>
      cases h
      rfl
  | cons item rest ih =>
      simp only [texts?, Option.bind_eq_some_iff, Option.map_eq_some_iff] at h
      obtain ⟨head, hhead, tail, htail, rfl⟩ := h
      rw [List.any_cons, List.any_cons, ih htail, compares, hhead,
        Option.any_some]

theorem meets_eq_any {op : Operator} {row : StoredRow columns}
    {entry : String × JsValue} {texts : List String}
    (h : boundTexts entry.2 = some texts) :
    meets engines engine op row entry = texts.any fun text =>
      (Condition.compare entry.1 (comparisonOf op) (.text text)).holds engines
        engine row := by
  obtain ⟨column, value⟩ := entry
  by_cases scalar : ∀ items, value ≠ .arr items
  · rw [boundTexts_scalar scalar, Option.map_eq_some_iff] at h
    obtain ⟨text, htext, rfl⟩ := h
    have hvalue : meets engines engine op row (column, value) =
        compares engines engine op row column value := by
      unfold meets
      split
      · rename_i heq
        cases heq
        exact absurd rfl (scalar _)
      · rename_i heq
        cases heq
        rfl
    have htext' : value.text? = some text := htext
    rw [hvalue, compares, htext']
    simp
  · obtain ⟨items, rfl⟩ := not_forall_not.mp scalar
    exact any_compares engines engine h

theorem satisfies_eq_meets (row : StoredRow columns) :
    satisfies engines engine row = meets engines engine .eq row := by
  funext entry
  obtain ⟨column, value⟩ := entry
  cases value <;> rfl

theorem compared_iff {entry : String × JsValue} {texts : List String}
    (h : boundTexts entry.2 = some texts) :
    Compared engines engine columns entry ↔
      ∀ text ∈ texts, Readable engines engine columns entry.1 text := by
  refine ⟨?_, fun hread => ⟨texts, h, hread⟩⟩
  rintro ⟨others, hothers, hread⟩
  rw [h] at hothers
  cases hothers
  exact hread

theorem queryFor_spec (op : Operator) (entries : List (String × JsValue)) :
    (entries.mapM entryTexts = none ∧
      ∃ entry ∈ entries, ¬ Compared engines engine columns entry) ∨
    ∃ resolved, entries.mapM entryTexts = some resolved ∧
      ((queryFor op resolved).accepted engines engine columns = true ↔
        ∀ entry ∈ entries, Compared engines engine columns entry) ∧
      ∀ row : StoredRow columns,
        (queryFor op resolved).selects engines engine row =
          entries.all (meets engines engine op row) := by
  induction entries with
  | nil => exact .inr ⟨[], rfl, by simp [queryFor, Query.accepted], fun _ => rfl⟩
  | cons entry rest ih =>
      cases hbound : boundTexts entry.2 with
      | none =>
          refine .inl ⟨?_, entry, List.mem_cons_self, ?_⟩
          · simp [List.mapM_cons, entryTexts, hbound]
          · rintro ⟨texts, htexts, -⟩
            rw [hbound] at htexts
            cases htexts
      | some texts =>
          rcases ih with ⟨hfails, other, hother, hnot⟩ |
            ⟨resolved, hresolved, haccepted, hselects⟩
          · refine .inl ⟨?_, other, List.mem_cons_of_mem _ hother, hnot⟩
            simp [List.mapM_cons, entryTexts, hbound, hfails]
          · refine .inr ⟨(entry.1, texts) :: resolved, ?_, ?_, ?_⟩
            · simp [List.mapM_cons, entryTexts, hbound, hresolved]
            · rw [List.forall_mem_cons, ← haccepted,
                compared_iff engines engine hbound]
              simp [queryFor, Query.accepted, Readable, Condition.reading,
                Condition.field]
            · intro row
              rw [List.all_cons, ← hselects row,
                meets_eq_any engines engine hbound]
              simp [queryFor, Query.selects, List.any_map, Function.comp_def]

theorem queryOf_spec (entries : List (String × JsValue)) :
    (entries.mapM entryTexts = none ∧
      ∃ entry ∈ entries, ¬ Compared engines engine columns entry) ∨
    ∃ resolved, entries.mapM entryTexts = some resolved ∧
      ((queryOf resolved).accepted engines engine columns = true ↔
        ∀ entry ∈ entries, Compared engines engine columns entry) ∧
      ∀ row : StoredRow columns,
        (queryOf resolved).selects engines engine row =
          entries.all (satisfies engines engine row) := by
  simp only [satisfies_eq_meets]
  exact queryFor_spec engines engine .eq entries

theorem get_kept (fields : List String) (filter : Filter)
    (order : Option String) (rows : List (StoredRow columns)) :
    ((¬ ∀ entry ∈ filter.filter isKept,
        Compared engines engine columns entry) ∧
      SQL.get engines engine fields filter order rows = none) ∨
    ((∀ entry ∈ filter.filter isKept,
        Compared engines engine columns entry) ∧
      SQL.get engines engine fields filter order rows =
        if engines.selectable columns (SQL.projection fields) order then
          some (rows.filter fun row =>
            (filter.filter isKept).all (satisfies engines engine row))
        else none) := by
  rw [get_eq, resolve_eq_mapM]
  rcases queryOf_spec engines engine (filter.filter isKept) with
    ⟨hfails, entry, hentry, hnot⟩ |
    ⟨resolved, hresolved, haccepted, hselects⟩
  · refine .inl ⟨fun hall => hnot (hall entry hentry), ?_⟩
    rw [hfails, Option.bind_none, ite_self]
  · rw [hresolved, Option.bind_some, Query.run]
    by_cases hall : ∀ entry ∈ filter.filter isKept,
        Compared engines engine columns entry
    · refine .inr ⟨hall, ?_⟩
      rw [if_pos (haccepted.mpr hall)]
      congr 3
      funext row
      exact hselects row
    · refine .inl ⟨hall, ?_⟩
      rw [if_neg (fun haccept => hall (haccepted.mp haccept)), ite_self]

theorem satisfiesAll_eq (filter : Filter) (row : StoredRow columns) :
    satisfiesAll engines engine filter row =
      ((filter.filter isKept).all (satisfies engines engine row) &&
        (filter.filter isDropped).all (satisfies engines engine row)) := by
  induction filter with
  | nil => rfl
  | cons entry rest ih =>
      rw [satisfiesAll, List.all_cons, ← satisfiesAll, ih]
      cases hnullish : entry.2.isNullish with
      | true =>
          rw [List.filter_cons_of_neg (by simp [isKept, hnullish]),
            List.filter_cons_of_neg (by simp [isDropped, hnullish])]
          rfl
      | false =>
          by_cases hempty : entry.2.text? = some ""
          · rw [List.filter_cons_of_neg (by simp [isKept, hempty]),
              List.filter_cons_of_pos
                (by simp [isDropped, hnullish, hempty]), List.all_cons,
              Bool.false_or, Bool.and_left_comm]
          · rw [List.filter_cons_of_pos
                (by simp [isKept, hnullish, hempty]),
              List.filter_cons_of_neg (by simp [isDropped, hempty]),
              List.all_cons, Bool.false_or, Bool.and_assoc]

theorem heeded_iff (filter : Filter) (rows : List (StoredRow columns)) :
    Heeded engines engine filter rows ↔
      (∀ entry ∈ filter.filter isKept,
        Compared engines engine columns entry) ∧
      ∀ row ∈ rows,
        (filter.filter isKept).all (satisfies engines engine row) = true →
        (filter.filter isDropped).all (satisfies engines engine row) =
          true := by
  simp only [List.all_eq_true, List.mem_filter, and_imp]
  constructor
  · rintro ⟨compared, dropped⟩
    exact ⟨compared, dropped⟩
  · rintro ⟨compared, dropped⟩
    exact ⟨compared, dropped⟩

/-- `get` returns exactly the rows that satisfy every key of the filter. -/
theorem get_exact_iff (fields : List String) (filter : Filter)
    (order : Option String) (rows : List (StoredRow columns)) :
    SQL.get engines engine fields filter order rows =
        some (rows.filter (satisfiesAll engines engine filter)) ↔
      engines.selectable columns (SQL.projection fields) order = true ∧
        Heeded engines engine filter rows := by
  rw [heeded_iff]
  rcases get_kept engines engine fields filter order rows with
    ⟨hnot, hget⟩ | ⟨hall, hget⟩
  · rw [hget]
    constructor
    · rintro ⟨⟩
    · rintro ⟨-, hall, -⟩
      exact absurd hall hnot
  · rw [hget, and_iff_right hall]
    cases engines.selectable columns (SQL.projection fields) order with
    | false => simp
    | true =>
        rw [if_pos rfl, Option.some.injEq, filter_eq_filter_iff,
          and_iff_right rfl]
        apply forall_congr'
        intro row
        apply forall_congr'
        intro _
        rw [satisfiesAll_eq]
        cases (filter.filter isKept).all (satisfies engines engine row) with
        | true => simp
        | false => simp

end Entries

/-- Both engines are asked for no user, and return one. -/
theorem empty_value_ignored :
    SQL.get Engines.plain .pg ["id"] [("id", .str "")] none
      [userRow "@alice:twake.app"] = some [userRow "@alice:twake.app"] ∧
    satisfiesAll Engines.plain .pg [("id", .str "")]
      (userRow "@alice:twake.app") = false ∧
    SQL.get Engines.plain .sqlite ["id"] [("id", .arr [])] none
      [userRow "@alice:twake.app"] = some [userRow "@alice:twake.app"] ∧
    satisfiesAll Engines.plain .sqlite [("id", .arr [])]
      (userRow "@alice:twake.app") = false :=
  ⟨rfl, rfl, rfl, rfl⟩

end TwakeKickstart.IdentityServer
