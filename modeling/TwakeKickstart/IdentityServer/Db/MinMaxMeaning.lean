import Mathlib.Data.String.Basic
import TwakeKickstart.IdentityServer.Db.MinMax
import TwakeKickstart.Library.Least

namespace TwakeKickstart.IdentityServer

open Library
open StatementText (MinMax selectFields)

/-! What the engines make of the statements of `_getMinMax`, and when this is
the extreme that is asked for. -/

namespace MinMaxQuery

/-- Numbers sort before texts; NULL comes first or last. -/
def cellBelow (engines : Engines) (nullFirst : Bool) : Cell → Cell → Bool
  | .null, .null => false
  | .null, _ => nullFirst
  | _, .null => !nullFirst
  | .int m, .int n => decide (m < n)
  | .int _, .text _ => true
  | .text _, .int _ => false
  | .text s, .text t => engines.below s t

/-- The aggregate takes the first cell rather than the second one.  It takes
NULL only where there is nothing else. -/
def beats (engines : Engines) : MinMax → Cell → Cell → Bool
  | .min, cell, other => cellBelow engines false cell other
  | .max, cell, other => cellBelow engines true other cell

/-- NULL where there is no other cell. -/
def aggregate (engines : Engines) (minmax : MinMax) (cells : List Cell) :
    Cell :=
  (least (fun cell other => !beats engines minmax other cell) cells).getD .null

/-- The cell is the minimum or the maximum of the cells. -/
def IsExtreme (engines : Engines) (minmax : MinMax) (cell : Cell)
    (cells : List Cell) : Prop :=
  cell ∈ cells ∧ ∀ other ∈ cells, beats engines minmax other cell = false

section Run

variable {columns : Columns} (engines : Engines) (engine : SupportedDatabases)

/-- PostgreSQL has no equality of columns of different types. -/
def joinable (columns : Columns) (entry : String × String) : Bool :=
  match engine, columns.lookup entry.1, columns.lookup entry.2 with
  | .sqlite, some _, some _ => true
  | .pg, some .text, some .text => true
  | .pg, some .integer, some .integer => true
  | _, _, _ => false

/-- What a column is compared with; SQLite reads a text as a number where the
other column is one of integers. -/
def cellReading (numeric : Bool) : Cell → Option Reading
  | .null => none
  | .int n => some (.number n)
  | .text s =>
      some (if numeric then engines.sqliteReads (.text s) .integer
        else .text s)

def equalColumns (row : StoredRow columns) (entry : String × String) : Bool :=
  let left := row.cells entry.1
  let right := row.cells entry.2
  match columns.lookup entry.1, columns.lookup entry.2 with
  | some .text, some .integer =>
      (cellReading engines true left).any (engines.compare .eq right)
  | some .integer, some .text =>
      (cellReading engines true right).any (engines.compare .eq left)
  | _, _ => (cellReading engines false right).any (engines.compare .eq left)

/-- Beside an aggregate, without `GROUP BY`, PostgreSQL refuses every column;
SQLite shows those of a row that attains the extreme. -/
def bareColumns (fields : List String) : Bool :=
  match engine with
  | .sqlite => true
  | .pg => fields.isEmpty

namespace SqlClause

def query (values : List String) (groups : List (List Clause)) : Query :=
  groups.flatten.map (SQL.group values)

/-- The engine can carry the clause out.  A condition does not end in a link or
in `WHERE`. -/
def accepted (columns : Columns) (values : List String) : SqlClause → Bool
  | select fields _ targetField =>
      (columns.lookup targetField).isSome &&
        engines.selectable columns fields none && bareColumns engine fields
  | source _ => true
  | condition groups joined =>
      (query values groups).accepted engines engine columns &&
        joined.all fun joined =>
          !joined.isEmpty && joined.all (joinable engine columns)
  | having => true
  | orderBy order => engines.selectable columns [] (some order)

def passes (values : List String) (row : StoredRow columns) :
    SqlClause → Bool
  | condition groups joined =>
      (query values groups).selects engines engine row &&
        joined.all (·.all (equalColumns engines row))
  | _ => true

/-- `COUNT(*) > 0` -/
def keeps (count : Nat) : SqlClause → Bool
  | having => decide (0 < count)
  | _ => true

def aggregated : SqlClause → Option (MinMax × String)
  | select _ minmax targetField => some (minmax, targetField)
  | _ => none

end SqlClause

/-- The column `max_…` of the rows that the engine returns; `none` where it
refuses the statement. -/
def Statement.run (statement : Statement) (rows : List (StoredRow columns)) :
    Option (List Cell) :=
  if decide statement.InOrder && statement.clauses.all
      (SqlClause.accepted engines engine columns statement.values) then
    (statement.clauses.findSome? SqlClause.aggregated).map
      fun (minmax, targetField) =>
        let selected := rows.filter fun row =>
          statement.clauses.all
            (SqlClause.passes engines engine statement.values row)
        let cell := aggregate engines minmax
          (selected.map fun row => row.cells targetField)
        if statement.clauses.all (SqlClause.keeps selected.length) then [cell]
        else []
  else none

/-! What a call asks for. -/

def Call.joinedBy (call : Call) (row : StoredRow columns) : Bool :=
  (call.joinFields.bind Call.joinEntries).all
    (·.all (equalColumns engines row))

/-- Every key of a filter. -/
def asksFor (op : Operator) (filterFields : Option Filter)
    (row : StoredRow columns) : Bool :=
  filterFields.all (·.all fun entry =>
    entry.2.isNullish || meets engines engine op row entry)

def Call.asksFor (call : Call) (row : StoredRow columns) : Bool :=
  MinMaxQuery.asksFor engines engine .eq call.filterFields1 row &&
    (call.op2.all fun op =>
      MinMaxQuery.asksFor engines engine op call.filterFields2 row) &&
    call.joinedBy engines row

/-- The statement has its clauses in order, and it returns no row where no row
satisfies the filters and else one row, with the extreme of the target field
over the rows that satisfy them. -/
def Call.Exact (call : Call) (rows : List (StoredRow columns)) : Prop :=
  ∃ statement, call.statement = some statement ∧ statement.InOrder ∧
    ∃ shown, statement.run engines engine rows = some shown ∧
      (rows.filter (call.asksFor engines engine) = [] → shown = []) ∧
      (rows.filter (call.asksFor engines engine) ≠ [] →
        ∃ cell, shown = [cell] ∧ IsExtreme engines call.minmax cell
          ((rows.filter (call.asksFor engines engine)).map fun row =>
            row.cells call.targetField))

end Run

/-! The extreme of some cells. -/

/-- The collation of texts is a strict order in which every two texts are
comparable. -/
structure Collates (engines : Engines) : Prop where
  asymm : ∀ s t, engines.below s t = true → engines.below t s = false
  trans : ∀ s t u, engines.below s t = true → engines.below t u = true →
    engines.below s u = true
  connected : ∀ s t, engines.below s t = false → engines.below t s = false →
    s = t

section Extreme

variable {engines : Engines} (collates : Collates engines)

include collates

theorem cellBelow_asymm (nullFirst : Bool) (cell other : Cell)
    (h : cellBelow engines nullFirst cell other = true) :
    cellBelow engines nullFirst other cell = false := by
  cases cell <;> cases other <;>
    simp only [cellBelow, decide_eq_true_eq, decide_eq_false_iff_not,
      Bool.not_eq_true', Bool.not_eq_false', Bool.false_eq_true] at h ⊢
  · exact h
  · exact h
  · exact h
  · omega
  · exact h
  · exact collates.asymm _ _ h

theorem cellBelow_trans (nullFirst : Bool) (cell other third : Cell)
    (h : cellBelow engines nullFirst cell other = true)
    (h' : cellBelow engines nullFirst other third = true) :
    cellBelow engines nullFirst cell third = true := by
  cases cell <;> cases other <;> cases third <;>
    simp only [cellBelow, decide_eq_true_eq, Bool.not_eq_true',
      Bool.false_eq_true] at h h' ⊢
  case text.text.text => exact collates.trans _ _ _ h h'
  all_goals grind

theorem cellBelow_connected (nullFirst : Bool) (cell other : Cell)
    (h : cellBelow engines nullFirst cell other = false)
    (h' : cellBelow engines nullFirst other cell = false) : cell = other := by
  cases cell <;> cases other <;>
    simp only [cellBelow, decide_eq_false_iff_not, Bool.not_eq_false',
      Bool.true_eq_false] at h h' ⊢
  case text.text => exact congrArg Cell.text (collates.connected _ _ h h')
  all_goals grind

theorem beats_asymm (minmax : MinMax) (cell other : Cell)
    (h : beats engines minmax cell other = true) :
    beats engines minmax other cell = false := by
  cases minmax with
  | min => exact cellBelow_asymm collates false cell other h
  | max => exact cellBelow_asymm collates true other cell h

theorem beats_trans (minmax : MinMax) (cell other third : Cell)
    (h : beats engines minmax cell other = true)
    (h' : beats engines minmax other third = true) :
    beats engines minmax cell third = true := by
  cases minmax with
  | min => exact cellBelow_trans collates false cell other third h h'
  | max => exact cellBelow_trans collates true third other cell h' h

theorem beats_connected (minmax : MinMax) (cell other : Cell)
    (h : beats engines minmax cell other = false)
    (h' : beats engines minmax other cell = false) : cell = other := by
  cases minmax with
  | min => exact cellBelow_connected collates false cell other h h'
  | max => exact cellBelow_connected collates true cell other h' h

theorem isExtreme_aggregate (minmax : MinMax) {cells : List Cell}
    (nonempty : cells ≠ []) :
    IsExtreme engines minmax (aggregate engines minmax cells) cells := by
  rw [aggregate]
  cases hleast : least (fun cell other => !beats engines minmax other cell)
      cells with
  | none => exact absurd ((least_eq_none _).mp hleast) nonempty
  | some cell =>
      exact ⟨least_mem _ hleast,
        least_of_strict (beats_asymm collates minmax)
          (beats_trans collates minmax) (beats_connected collates minmax)
          hleast⟩

end Extreme

/-! What a statement selects. -/

section Clauses

theorem inOrder_iff (call : Call) (groups : List (List Clause))
    (joined : Option (List (String × String))) (values : List String) :
    (Statement.mk (call.clauses groups joined) values).InOrder ↔
      call.order = none := by
  rw [Statement.InOrder, Call.clauses]
  cases hempty : groups.isEmpty && joined.isNone <;>
    cases call.order <;> simp [SqlClause.rank]

theorem all_clauses (call : Call) (groups : List (List Clause))
    (joined : Option (List (String × String))) {p : SqlClause → Bool}
    (h : p (.condition [] none) = true) :
    (call.clauses groups joined).all p =
      (p (.select (selectFields call.fields) call.minmax call.targetField) &&
        p (.source call.tables) && p (.condition groups joined) &&
        call.order.all (fun order => p (.orderBy order)) && p .having) := by
  have hwhere : (if groups.isEmpty && joined.isNone then []
      else [SqlClause.condition groups joined]).all p =
        p (.condition groups joined) := by
    split
    · rename_i hempty
      rw [Bool.and_eq_true, List.isEmpty_iff, Option.isNone_iff_eq_none]
        at hempty
      rw [hempty.1, hempty.2, h]
      rfl
    · exact Bool.and_true _
  have horder : (call.order.map SqlClause.orderBy).toList.all p =
      call.order.all (fun order => p (.orderBy order)) := by
    cases call.order with
    | none => rfl
    | some order => exact Bool.and_true _
  rw [Call.clauses, List.all_cons, List.all_cons, List.all_append,
    List.all_append, hwhere, horder, List.all_cons, List.all_nil,
    Bool.and_true]
  simp only [Bool.and_assoc]

end Clauses

section Semantics

variable {columns : Columns} (engines : Engines) (engine : SupportedDatabases)

def keptEntries (filterFields : Option Filter) : Filter :=
  (filterFields.getD []).filter isKept

/-- Clauses that stand for the entries of a filter. -/
structure Serves (columns : Columns) (op : Operator) (entries : Filter)
    (clauses : List Clause) (values : List String) : Prop where
  accepted : Query.accepted engines engine columns
      (clauses.map (SQL.group values)) = true ↔
    ∀ entry ∈ entries, Compared engines engine columns entry
  selects : ∀ row : StoredRow columns,
    Query.selects engines engine (clauses.map (SQL.group values)) row =
      entries.all (meets engines engine op row)

theorem serves_nil (op : Operator) (values : List String) :
    Serves engines engine columns op [] [] values where
  accepted := iff_of_true rfl (fun _ h => absurd h List.not_mem_nil)
  selects _ := rfl

theorem group_serves (columns : Columns) (op : Operator)
    (filterFields : Option Filter) (builder : Builder)
    (aligned : builder.index = builder.values.length) :
    ((∃ entry ∈ keptEntries filterFields,
        ¬ Compared engines engine columns entry) ∧
      Call.group op filterFields builder = none) ∨
    ∃ clauses added, Call.group op filterFields builder =
        some (clauses, ⟨builder.index + added.length,
          builder.values ++ added⟩) ∧
      ∀ more, Serves engines engine columns op (keptEntries filterFields)
        clauses (builder.values ++ added ++ more) := by
  cases filterFields with
  | none =>
      refine .inr ⟨[], [], ?_, fun more => serves_nil engines engine op _⟩
      rw [List.append_nil]
      rfl
  | some filter =>
      have hspec :=
        @queryFor_spec columns engines engine op (filter.filter isKept)
      rw [← resolve_eq_mapM] at hspec
      rcases buildCondition_spec op filter builder aligned with
        ⟨hresolve, hbuild⟩ |
        ⟨resolved, clauses, added, hresolve, hbuild, hoperators, hasked⟩
      · left
        rcases hspec with ⟨_, hnot⟩ | ⟨resolved, hresolved, _⟩
        · exact ⟨hnot, hbuild⟩
        · rw [hresolve] at hresolved
          cases hresolved
      · right
        rcases hspec with ⟨hfails, _⟩ | ⟨_, hresolved, haccepted, hselects⟩
        · rw [hresolve] at hfails
          cases hfails
        · rw [hresolve] at hresolved
          obtain rfl := Option.some.inj hresolved
          refine ⟨clauses, added, hbuild, fun more => ⟨?_, ?_⟩⟩
          · rw [group_queryFor hoperators, hasked]
            exact haccepted
          · intro row
            rw [group_queryFor hoperators, hasked]
            exact hselects row

namespace Call

def secondEntries (call : Call) : Filter :=
  call.op2.elim [] fun _ => keptEntries call.filterFields2

def secondOp (call : Call) : Operator := call.op2.getD .lt

theorem secondGroup_serves (columns : Columns) (call : Call)
    (builder : Builder) (aligned : builder.index = builder.values.length) :
    ((∃ entry ∈ call.secondEntries,
        ¬ Compared engines engine columns entry) ∧
      call.secondGroup builder = none) ∨
    ∃ clauses added, call.secondGroup builder =
        some (clauses, ⟨builder.index + added.length,
          builder.values ++ added⟩) ∧
      Serves engines engine columns call.secondOp call.secondEntries clauses
        (builder.values ++ added) := by
  rw [secondEntries, secondOp, secondGroup]
  cases call.op2 with
  | none =>
      refine .inr ⟨[], [], ?_, serves_nil engines engine .lt _⟩
      rw [List.append_nil]
      rfl
  | some op =>
      rcases group_serves engines engine columns op call.filterFields2 builder
          aligned with hfails | ⟨clauses, added, hgroup, hserves⟩
      · exact .inl hfails
      · have hvalues := hserves []
        rw [List.append_nil] at hvalues
        exact .inr ⟨clauses, added, hgroup, hvalues⟩

/-- The clauses of a call's statement. -/
structure Built (columns : Columns) (call : Call) (statement : Statement)
    (first second : List Clause)
    (joined : Option (List (String × String))) : Prop where
  clauses : statement.clauses =
    call.clauses ([first, second].filter (!·.isEmpty)) joined
  first : Serves engines engine columns .eq (keptEntries call.filterFields1)
    first statement.values
  second : Serves engines engine columns call.secondOp call.secondEntries
    second statement.values
  joined : Call.joined call.joinFields = some joined

theorem statement_spec (columns : Columns) (call : Call) :
    (((∃ entry ∈ keptEntries call.filterFields1 ++ call.secondEntries,
          ¬ Compared engines engine columns entry) ∨
        Call.joined call.joinFields = none) ∧ call.statement = none) ∨
    ∃ statement first second joined, call.statement = some statement ∧
      Built engines engine columns call statement first second joined := by
  rcases group_serves engines engine columns .eq call.filterFields1 ⟨0, []⟩ rfl
    with ⟨⟨entry, hentry, hnot⟩, hgroup⟩ | ⟨first, added, hgroup, hfirst⟩
  · left
    refine ⟨.inl ⟨entry, List.mem_append_left _ hentry, hnot⟩, ?_⟩
    rw [statement, hgroup]
    rfl
  · have aligned : (Builder.mk (0 + added.length) ([] ++ added)).index =
        (Builder.mk (0 + added.length) ([] ++ added)).values.length :=
      Nat.zero_add _
    rcases call.secondGroup_serves engines engine columns _ aligned with
      ⟨⟨entry, hentry, hnot⟩, hsecond⟩ | ⟨second, more, hsecond, hserves⟩
    · left
      refine ⟨.inl ⟨entry, List.mem_append_right _ hentry, hnot⟩, ?_⟩
      rw [statement, hgroup, Option.bind_some]
      simp only [hsecond]
      rfl
    · cases hjoined : Call.joined call.joinFields with
      | none =>
          left
          refine ⟨.inr rfl, ?_⟩
          rw [statement, hgroup, Option.bind_some]
          simp only [hsecond, hjoined]
          rfl
      | some joined =>
          right
          refine ⟨⟨call.clauses ([first, second].filter (!·.isEmpty)) joined,
            [] ++ added ++ more⟩, first, second, joined, ?_,
            ⟨rfl, hfirst more, hserves, hjoined⟩⟩
          rw [statement, hgroup, Option.bind_some]
          simp only [hsecond, hjoined]
          rfl

/-- The rows that the statement selects: the keys that are kept decide. -/
def selects {columns : Columns} (call : Call) (row : StoredRow columns) :
    Bool :=
  (keptEntries call.filterFields1).all (meets engines engine .eq row) &&
    call.secondEntries.all (meets engines engine call.secondOp row) &&
    call.joinedBy engines row

/-- The engine carries every clause but `ORDER BY` out. -/
structure Accepted (columns : Columns) (call : Call)
    (joined : Option (List (String × String))) : Prop where
  target : (columns.lookup call.targetField).isSome = true
  fields : engines.selectable columns (selectFields call.fields) none = true
  bare : bareColumns engine (selectFields call.fields) = true
  compared : ∀ entry ∈ keptEntries call.filterFields1 ++ call.secondEntries,
    Compared engines engine columns entry
  joined : ∀ entries ∈ joined, entries ≠ [] ∧
    ∀ entry ∈ entries, joinable engine columns entry = true

section Built

variable {engines engine} {columns : Columns} {call : Call}
variable {statement : Statement} {first second : List Clause}
variable {joined : Option (List (String × String))}

theorem Built.query_eq
    (built : Built engines engine columns call statement first second joined) :
    SqlClause.query statement.values ([first, second].filter (!·.isEmpty)) =
      first.map (SQL.group statement.values) ++
        second.map (SQL.group statement.values) := by
  rw [SqlClause.query, ← List.map_append]
  cases first <;> cases second <;> simp

theorem Built.accepted_iff
    (built : Built engines engine columns call statement first second joined)
    (horder : call.order = none) :
    statement.clauses.all (SqlClause.accepted engines engine columns
        statement.values) = true ↔
      call.Accepted engines engine columns joined := by
  have hquery : Query.accepted engines engine columns
      (SqlClause.query statement.values
        ([first, second].filter (!·.isEmpty))) = true ↔
      ∀ entry ∈ keptEntries call.filterFields1 ++ call.secondEntries,
        Compared engines engine columns entry := by
    rw [built.query_eq, Query.accepted, List.all_append, Bool.and_eq_true,
      List.forall_mem_append]
    exact and_congr built.first.accepted built.second.accepted
  have hjoined : joined.all (fun joined =>
      !joined.isEmpty && joined.all (joinable engine columns)) = true ↔
      ∀ entries ∈ joined, entries ≠ [] ∧
        ∀ entry ∈ entries, joinable engine columns entry = true := by
    cases joined with
    | none => simp
    | some entries => simp
  rw [built.clauses, all_clauses call _ _ rfl, horder]
  simp only [SqlClause.accepted, Option.all_none, Bool.and_true,
    Bool.and_eq_true, hquery, hjoined]
  constructor
  · intro h
    obtain ⟨⟨⟨htarget, hfields⟩, hbare⟩, hcompared, hjoins⟩ := h
    exact ⟨htarget, hfields, hbare, hcompared, hjoins⟩
  · intro accepted
    exact ⟨⟨⟨accepted.target, accepted.fields⟩, accepted.bare⟩,
      accepted.compared, accepted.joined⟩

theorem Built.passes_eq
    (built : Built engines engine columns call statement first second joined)
    (row : StoredRow columns) :
    statement.clauses.all
        (SqlClause.passes engines engine statement.values row) =
      call.selects engines engine row := by
  have hjoined : joined.all (·.all (equalColumns engines row)) =
      call.joinedBy engines row := by
    have h := built.joined
    rw [joinedBy]
    cases hfields : call.joinFields with
    | none =>
        rw [hfields] at h
        cases h
        rfl
    | some joinFields =>
        rw [hfields] at h
        obtain ⟨entries, hentries, rfl⟩ := Option.map_eq_some_iff.mp h
        rw [Option.bind_some, hentries]
  rw [built.clauses, all_clauses call _ _ rfl]
  simp only [SqlClause.passes, Bool.true_and, hjoined, built.query_eq]
  have hfirst := built.first.selects row
  have hsecond := built.second.selects row
  rw [Query.selects] at hfirst hsecond
  rw [Query.selects, List.all_append, hfirst, hsecond, selects]
  cases call.order with
  | none => exact (Bool.and_true _).trans (Bool.and_true _)
  | some order => exact (Bool.and_true _).trans (Bool.and_true _)

theorem Built.run_eq_some_iff
    (built : Built engines engine columns call statement first second joined)
    (horder : call.order = none) (rows : List (StoredRow columns))
    (shown : List Cell) :
    statement.run engines engine rows = some shown ↔
      call.Accepted engines engine columns joined ∧
        shown = if rows.filter (call.selects engines engine) = [] then []
          else [aggregate engines call.minmax
            ((rows.filter (call.selects engines engine)).map fun row =>
              row.cells call.targetField)] := by
  have horderly : statement.InOrder := by
    rw [Statement.InOrder, built.clauses]
    exact (inOrder_iff call _ _ []).mpr horder
  have hfind : statement.clauses.findSome? SqlClause.aggregated =
      some (call.minmax, call.targetField) := by
    rw [built.clauses]
    rfl
  have hkeeps : ∀ count, statement.clauses.all (SqlClause.keeps count) =
      decide (0 < count) := by
    intro count
    rw [built.clauses, all_clauses call _ _ rfl, horder]
    rfl
  have hpasses : (fun row => statement.clauses.all
      (SqlClause.passes engines engine statement.values row)) =
        call.selects engines engine := funext built.passes_eq
  rw [Statement.run, decide_eq_true horderly, Bool.true_and]
  by_cases haccepted : call.Accepted engines engine columns joined
  · rw [if_pos ((built.accepted_iff horder).mpr haccepted), hfind, hpasses,
      Option.map_some, Option.some.injEq, and_iff_right haccepted]
    simp only [hkeeps, decide_eq_true_eq, List.length_pos_iff]
    by_cases hempty : rows.filter (call.selects engines engine) = []
    · rw [if_neg (not_not.mpr hempty), if_pos hempty]
      exact eq_comm
    · rw [if_pos hempty, if_neg hempty]
      exact eq_comm
  · rw [if_neg (mt (built.accepted_iff horder).mp haccepted)]
    exact iff_of_false (fun h => nomatch h) (fun h => haccepted h.1)

end Built

/-- No order is asked for, the engine is SQLite, the columns exist and the
values have texts, a join names columns, and one of the rows that satisfy the
filters attains the extreme of those that satisfy the keys that are kept. -/
structure Answerable {columns : Columns} (call : Call)
    (rows : List (StoredRow columns)) : Prop where
  order : call.order = none
  sqlite : engine = .sqlite
  target : (columns.lookup call.targetField).isSome = true
  fields : engines.selectable columns (selectFields call.fields) none = true
  compared : ∀ entry ∈ keptEntries call.filterFields1 ++ call.secondEntries,
    Compared engines engine columns entry
  joined : ∀ joinFields ∈ call.joinFields, ∃ entries,
    joinEntries joinFields = some entries ∧ entries ≠ [] ∧
      ∀ entry ∈ entries, (columns.lookup entry.1).isSome = true ∧
        (columns.lookup entry.2).isSome = true
  dropped : (∃ row ∈ rows, call.selects engines engine row = true) →
    ∃ row ∈ rows, call.asksFor engines engine row = true ∧
      ∀ other ∈ rows, call.selects engines engine other = true →
        beats engines call.minmax (other.cells call.targetField)
          (row.cells call.targetField) = false

section Exact

variable {engines engine} {columns : Columns} {call : Call}
variable {rows : List (StoredRow columns)}

theorem all_of_asksFor {op : Operator} {filterFields : Option Filter}
    {row : StoredRow columns}
    (h : MinMaxQuery.asksFor engines engine op filterFields row = true) :
    (keptEntries filterFields).all (meets engines engine op row) = true := by
  rw [List.all_eq_true]
  intro entry hentry
  cases filterFields with
  | none => cases hentry
  | some filter =>
      obtain ⟨hmem, hkept⟩ := List.mem_filter.mp hentry
      have hasked := List.all_eq_true.mp h entry hmem
      rw [isKept, Bool.and_eq_true, Bool.not_eq_true'] at hkept
      rw [hkept.1, Bool.false_or] at hasked
      exact hasked

theorem selects_of_asksFor {row : StoredRow columns}
    (h : call.asksFor engines engine row = true) :
    call.selects engines engine row = true := by
  rw [asksFor, Bool.and_eq_true, Bool.and_eq_true] at h
  obtain ⟨⟨hfirst, hsecond⟩, hjoined⟩ := h
  rw [selects, all_of_asksFor hfirst, hjoined, Bool.true_and, Bool.and_true,
    secondEntries, secondOp]
  cases hop : call.op2 with
  | none => rfl
  | some op =>
      rw [hop] at hsecond
      exact all_of_asksFor hsecond

theorem selectFields_ne_nil (fields : Option (List String)) :
    selectFields fields ≠ [] := by
  rw [selectFields]
  split
  · exact List.cons_ne_nil _ _
  · rename_i hne
    intro hnil
    exact hne (List.map_eq_nil_iff.mp hnil)

theorem bareColumns_iff (fields : Option (List String)) :
    bareColumns engine (selectFields fields) = true ↔ engine = .sqlite := by
  cases engine with
  | sqlite => exact iff_of_true rfl rfl
  | pg =>
      apply iff_of_false
      · intro h
        exact selectFields_ne_nil fields (List.isEmpty_iff.mp h)
      · exact fun h => nomatch h

theorem Built.inOrder_iff {statement : Statement} {first second : List Clause}
    {joined : Option (List (String × String))}
    (built : Built engines engine columns call statement first second joined) :
    statement.InOrder ↔ call.order = none := by
  rw [Statement.InOrder, built.clauses]
  exact MinMaxQuery.inOrder_iff call _ _ []

theorem joinable_sqlite_iff (entry : String × String) :
    joinable .sqlite columns entry = true ↔
      (columns.lookup entry.1).isSome = true ∧
        (columns.lookup entry.2).isSome = true := by
  rw [joinable.eq_def]
  cases columns.lookup entry.1 <;> cases columns.lookup entry.2 <;> simp

theorem joined_eq_none_iff (joinFields : Option JsObject) :
    Call.joined joinFields = none ↔
      ∃ fields ∈ joinFields, joinEntries fields = none := by
  cases joinFields with
  | none => simp [Call.joined]
  | some fields => simp [Call.joined]

theorem answerable_of_exact (collates : Collates engines)
    (h : call.Exact engines engine rows) :
    call.Answerable engines engine rows := by
  obtain ⟨statement, hstatement, horderly, shown, hrun, hnone, hone⟩ := h
  rcases call.statement_spec engines engine columns with
    ⟨_, hfails⟩ | ⟨built, first, second, joined, hbuilt, built⟩
  · rw [hstatement] at hfails
    cases hfails
  · rw [hstatement] at hbuilt
    obtain rfl := Option.some.inj hbuilt
    have horder := built.inOrder_iff.mp horderly
    obtain ⟨accepted, hshown⟩ :=
      (built.run_eq_some_iff horder rows shown).mp hrun
    have hsqlite := (bareColumns_iff call.fields).mp accepted.bare
    refine ⟨horder, hsqlite, accepted.target, accepted.fields,
      accepted.compared, ?_, ?_⟩
    · intro joinFields hfields
      have hjoined := built.joined
      rw [Option.mem_def.mp hfields] at hjoined
      obtain ⟨entries, hentries, rfl⟩ := Option.map_eq_some_iff.mp hjoined
      obtain ⟨hne, hall⟩ := accepted.joined entries rfl
      refine ⟨entries, hentries, hne, fun entry hentry => ?_⟩
      rw [← joinable_sqlite_iff, ← hsqlite]
      exact hall entry hentry
    · intro hsome
      obtain ⟨row, hrow, hselects⟩ := hsome
      have hselected : rows.filter (call.selects engines engine) ≠ [] :=
        List.ne_nil_of_mem (List.mem_filter.mpr ⟨hrow, hselects⟩)
      rw [if_neg hselected] at hshown
      have hasked : rows.filter (call.asksFor engines engine) ≠ [] := by
        intro hempty
        exact List.cons_ne_nil _ _ (hshown.symm.trans (hnone hempty))
      obtain ⟨cell, hcell, hextreme⟩ := hone hasked
      obtain ⟨rfl, _⟩ := List.cons.inj (hcell.symm.trans hshown)
      obtain ⟨row, hmem, hcells⟩ := List.mem_map.mp hextreme.1
      obtain ⟨hrow, hasks⟩ := List.mem_filter.mp hmem
      refine ⟨row, hrow, hasks, fun other hother hselected' => ?_⟩
      rw [hcells]
      have hmapped : (rows.filter (call.selects engines engine)).map
          (fun row => row.cells call.targetField) ≠ [] :=
        mt List.map_eq_nil_iff.mp hselected
      exact (isExtreme_aggregate collates call.minmax hmapped).2 _
        (List.mem_map_of_mem (List.mem_filter.mpr ⟨hother, hselected'⟩))

theorem Answerable.isExtreme (collates : Collates engines)
    (answerable : call.Answerable engines engine rows)
    (hasked : rows.filter (call.asksFor engines engine) ≠ []) :
    ∃ cell, (if rows.filter (call.selects engines engine) = [] then []
        else [aggregate engines call.minmax
          ((rows.filter (call.selects engines engine)).map fun row =>
            row.cells call.targetField)]) = [cell] ∧
      IsExtreme engines call.minmax cell
        ((rows.filter (call.asksFor engines engine)).map fun row =>
          row.cells call.targetField) := by
  obtain ⟨some, hsome⟩ := List.exists_mem_of_ne_nil _ hasked
  obtain ⟨hmem, hasks⟩ := List.mem_filter.mp hsome
  have hselected : rows.filter (call.selects engines engine) ≠ [] :=
    List.ne_nil_of_mem (List.mem_filter.mpr ⟨hmem, selects_of_asksFor hasks⟩)
  have hextreme := isExtreme_aggregate collates call.minmax
    (mt List.map_eq_nil_iff.mp hselected :
      (rows.filter (call.selects engines engine)).map
        (fun row => row.cells call.targetField) ≠ [])
  obtain ⟨row, hrow, hasks, hbest⟩ :=
    answerable.dropped ⟨some, hmem, selects_of_asksFor hasks⟩
  obtain ⟨attaining, hattaining, hcells⟩ := List.mem_map.mp hextreme.1
  obtain ⟨hattaining, hselects⟩ := List.mem_filter.mp hattaining
  -- no selected cell is better than the one that is asked for, and conversely
  have hcell := beats_connected collates call.minmax _ _
    (hcells ▸ hbest attaining hattaining hselects)
    (hextreme.2 (row.cells call.targetField)
      (List.mem_map_of_mem
        (List.mem_filter.mpr ⟨hrow, selects_of_asksFor hasks⟩)))
  refine ⟨_, if_neg hselected, ?_, fun other hother => ?_⟩
  · rw [hcell]
    exact List.mem_map_of_mem (List.mem_filter.mpr ⟨hrow, hasks⟩)
  · obtain ⟨other, hmem, rfl⟩ := List.mem_map.mp hother
    obtain ⟨hother, hasks⟩ := List.mem_filter.mp hmem
    exact hextreme.2 _ (List.mem_map_of_mem
      (List.mem_filter.mpr ⟨hother, selects_of_asksFor hasks⟩))

theorem exact_of_answerable (collates : Collates engines)
    (answerable : call.Answerable engines engine rows) :
    call.Exact engines engine rows := by
  rcases call.statement_spec engines engine columns with
    ⟨hbad, _⟩ | ⟨statement, first, second, joined, hstatement, built⟩
  · rcases hbad with ⟨entry, hentry, hnot⟩ | hjoined
    · exact absurd (answerable.compared entry hentry) hnot
    · obtain ⟨fields, hfields, hentries⟩ := (joined_eq_none_iff _).mp hjoined
      obtain ⟨entries, hsome, _⟩ := answerable.joined fields hfields
      rw [hentries] at hsome
      cases hsome
  · have accepted : call.Accepted engines engine columns joined := by
      refine ⟨answerable.target, answerable.fields,
        (bareColumns_iff call.fields).mpr answerable.sqlite,
        answerable.compared, ?_⟩
      intro entries hentries
      obtain rfl := Option.mem_def.mp hentries
      have hjoined := built.joined
      cases hfields : call.joinFields with
      | none =>
          rw [hfields] at hjoined
          cases hjoined
      | some fields =>
          obtain ⟨others, hothers, hne, hall⟩ :=
            answerable.joined fields hfields
          rw [hfields, Call.joined, hothers] at hjoined
          obtain rfl := Option.some.inj (Option.some.inj hjoined)
          refine ⟨hne, fun entry hentry => ?_⟩
          rw [answerable.sqlite, joinable_sqlite_iff]
          exact hall entry hentry
    refine ⟨statement, hstatement, built.inOrder_iff.mpr answerable.order, _,
      (built.run_eq_some_iff answerable.order rows _).mpr ⟨accepted, rfl⟩,
      fun hempty => ?_, fun hasked => ?_⟩
    · apply if_pos
      rw [List.filter_eq_nil_iff]
      intro row hrow hselects
      obtain ⟨asked, hmem, hasks, _⟩ := answerable.dropped ⟨row, hrow, hselects⟩
      exact List.filter_eq_nil_iff.mp hempty asked hmem hasks
    · exact answerable.isExtreme collates hasked

/-- A statement with `ORDER BY` is out of order, and PostgreSQL refuses every
statement for the columns beside the aggregate. -/
theorem getMinMax_exact_iff (collates : Collates engines) :
    call.Exact engines engine rows ↔
      call.Answerable engines engine rows :=
  ⟨answerable_of_exact collates, exact_of_answerable collates⟩

end Exact

theorem collates_plain : Collates Engines.plain where
  asymm s t h := by
    rw [Engines.plain, decide_eq_true_eq] at h
    rw [Engines.plain, decide_eq_false_iff_not]
    exact h.asymm
  trans s t u h h' := by
    rw [Engines.plain, decide_eq_true_eq] at h h' ⊢
    exact h.trans h'
  connected s t h h' := by
    rw [Engines.plain, decide_eq_false_iff_not, not_lt] at h h'
    exact le_antisymm h' h

def tokenRow (id data : String) :
    StoredRow [("id", .text), ("data", .text)] where
  cells column := .text (if column = "id" then id else data)

/-- The greatest token with the data that is given. -/
def greatestToken (order : Option String) : Call :=
  getMaxWhereEqual "accessTokens" "id" (some ["id", "data"]) order
    (some [("data", .str "{}")])

theorem greatestToken_exact_iff :
    (greatestToken none).Exact Engines.plain .sqlite
        [tokenRow "1" "{}", tokenRow "2" "{}"] ↔
      (greatestToken none).Answerable Engines.plain .sqlite
        [tokenRow "1" "{}", tokenRow "2" "{}"] :=
  getMinMax_exact_iff collates_plain

example : (greatestToken none).statement.bind (·.run Engines.plain .sqlite
    [tokenRow "1" "{}", tokenRow "2" "{}", tokenRow "3" "[]"]) =
      some [.text "2"] := by
  decide +kernel

/-- SQLite cannot parse the statement with an order, and PostgreSQL refuses the
one without. -/
theorem greatestToken_refused :
    (greatestToken (some "id")).statement.map Statement.text =
        some ("SELECT id,data, MAX(id) AS max_id FROM accessTokens " ++
          "WHERE data=$1 ORDER BY id HAVING COUNT(*) > 0") ∧
      ¬ (greatestToken (some "id")).Exact Engines.plain .sqlite
        [tokenRow "1" "{}"] ∧
      ¬ (greatestToken none).Exact Engines.plain .pg [tokenRow "1" "{}"] := by
  refine ⟨by decide +kernel, fun h => ?_, fun h => ?_⟩
  · cases (answerable_of_exact collates_plain h).order
  · cases (answerable_of_exact collates_plain h).sqlite

end Call

end Semantics

end MinMaxQuery

end TwakeKickstart.IdentityServer
