import TwakeKickstart.Library.Like
import TwakeKickstart.IdentityServer.Db.Store

namespace TwakeKickstart.IdentityServer

open Library

/-! The methods of the two backends that select or delete rows by conditions,
and what the two engines make of their statements. -/

inductive ColumnType where
  | text
  | integer

/-- The columns of a table, as its declaration lists them. -/
abbrev Columns := List (String × ColumnType)

/-- SQLite lets a cell hold a value of another type than its column's. -/
structure StoredRow (columns : Columns) where
  cells : String → Cell

/-- The text that `LIKE` looks at. -/
def cellText : Cell → Option String
  | .null => none
  | .text s => some s
  | .int n => some (toString n)

/-- No text of the row has a NUL character. -/
def StoredRow.Whole {columns : Columns} (row : StoredRow columns) : Prop :=
  ∀ field, ∀ text ∈ cellText (row.cells field), nul ∉ text.toList

def userRow (id : String) : StoredRow [("id", .text)] where
  cells _ := .text id

/-- A value of the type `string | number`. -/
inductive SqlValue where
  | text (s : String)
  | number (n : Int)

namespace SqlValue

def toText : SqlValue → String
  | text s => s
  | number n => toString n

def falsy : SqlValue → Bool
  | text s => s == ""
  | number n => n == 0

theorem falsy_of_toText {value : SqlValue} (h : value.toText = "") :
    value.falsy = true := by
  cases value with
  | text s => exact beq_iff_eq.mpr h
  | number n => exact absurd h (num_text_ne_empty n)

theorem eq_of_falsy {value : SqlValue} (h : value.falsy = true) :
    value = .text "" ∨ value = .number 0 := by
  cases value with
  | text s =>
      left
      rw [beq_iff_eq.mp h]
  | number n =>
      right
      rw [beq_iff_eq.mp h]

end SqlValue

inductive Comparison where
  | eq
  | ne
  | lt
  | le
  | gt
  | ge

namespace Comparison

def decide (op : Comparison) (equal less greater : Bool) : Bool :=
  match op with
  | eq => equal
  | ne => !equal
  | lt => less
  | le => less || equal
  | gt => greater
  | ge => greater || equal

end Comparison

def comparisonOf : Operator → Comparison
  | .eq => .eq
  | .ne => .ne
  | .gt => .gt
  | .lt => .lt

/-- What an engine compares a column with. -/
inductive Reading where
  | text (s : String)
  | number (q : Rat)
  | pattern (escapes terminated : Bool) (pattern : String)

/-- The code outside the repository.  `below` and `fold` are the collation and
the case rule of `LIKE`, and `selectable` tells which fields and order a SELECT
on the columns may name.  SQLite reads some texts as numbers and writes numbers
of more than 32 bits as `realText`; `int4` is the input of PostgreSQL's
integers. -/
structure Engines where
  below : String → String → Bool
  fold : Char → Char
  selectable : Columns → List String → Option String → Bool
  numeric : String → Option Rat
  realText : Int → String
  int4 : String → Option Int

namespace Engines

variable (engines : Engines)

/-- A comparison with NULL is never true, and numbers sort before texts. -/
def compare (op : Comparison) : Cell → Reading → Bool
  | .null, _ => false
  | .text c, .text s => op.decide (c == s) (engines.below c s)
      (engines.below s c)
  | .int c, .number q => op.decide (c == q) (decide (c < q)) (decide (q < c))
  | .int _, .text _ => op.decide false true false
  | .text _, .number _ => op.decide false false true
  | .text c, .pattern escapes terminated pattern =>
      LikeRules.like ⟨escapes, engines.fold, terminated⟩ pattern.toList
        c.toList
  | .int c, .pattern escapes terminated pattern =>
      LikeRules.like ⟨escapes, engines.fold, terminated⟩ pattern.toList
        (toString c).toList

-- PostgreSQL has no texts with a NUL character.
def pgText (s : String) : Option String :=
  if s.toList.contains nul then none else some s

def isInt32 (n : Int) : Bool := -2147483648 ≤ n && n ≤ 2147483647

/-- The driver of PostgreSQL passes every value as a text, which the server
reads as the type of the column; `none` when it cannot. -/
def pgReads (value : SqlValue) : ColumnType → Option Reading
  | .text => (pgText value.toText).map .text
  | .integer =>
      (pgText value.toText).bind fun s =>
        (engines.int4 s).map fun n => .number n

/-- SQLite binds a number that does not fit 32 bits as floating point, and
converts the value to the affinity of the column where that is possible. -/
def sqliteReads : SqlValue → ColumnType → Reading
  | .text s, .text => .text s
  | .number n, .text =>
      .text (if isInt32 n then toString n else engines.realText n)
  | .text s, .integer => (engines.numeric s).elim (.text s) .number
  | .number n, .integer => .number n

def reads (value : SqlValue) : SupportedDatabases → ColumnType →
    Option Reading
  | .pg, type => engines.pgReads value type
  | .sqlite, type => some (engines.sqliteReads value type)

/-- PostgreSQL has no `LIKE` on integers; SQLite's reads a pattern and a text up
to a NUL. -/
def likes (pattern : String) : SupportedDatabases → ColumnType →
    Option Reading
  | .pg, .text => (pgText pattern).map (.pattern true false)
  | .pg, .integer => none
  | .sqlite, _ => some (.pattern false true pattern)

/-- Engines that order texts by their characters and read no numerals but those
of integers. -/
def plain : Engines where
  below s t := decide (s < t)
  fold := Char.toLower
  selectable _ _ _ := true
  numeric s := s.toInt?.map fun n => n
  realText n := toString n ++ ".0"
  int4 s := s.toInt?.filter isInt32

end Engines

inductive Condition where
  | compare (field : String) (op : Comparison) (value : SqlValue)
  | like (field : String) (pattern : String)

namespace Condition

def field : Condition → String
  | compare field _ _ => field
  | like field _ => field

def op : Condition → Comparison
  | compare _ op _ => op
  | like _ _ => .eq

variable (engines : Engines) (engine : SupportedDatabases)

def reading (columns : Columns) (condition : Condition) : Option Reading :=
  (columns.lookup condition.field).bind fun type =>
    match condition with
    | compare _ _ value => engines.reads value engine type
    | like _ pattern => Engines.likes pattern engine type

def holds {columns : Columns} (condition : Condition)
    (row : StoredRow columns) : Bool :=
  (condition.reading engines engine columns).any
    (engines.compare condition.op (row.cells condition.field))

end Condition

/-- A `WHERE` as an AND of ORs. -/
abbrev Query := List (List Condition)

namespace Query

variable (engines : Engines) (engine : SupportedDatabases)

/-- A column that the table does not have, or a value that the engine cannot
read, makes the statement fail. -/
def accepted (columns : Columns) (query : Query) : Bool :=
  query.all (·.all fun condition =>
    (condition.reading engines engine columns).isSome)

def selects {columns : Columns} (query : Query) (row : StoredRow columns) :
    Bool :=
  query.all (·.any (·.holds engines engine row))

def run {columns : Columns} (query : Query)
    (rows : List (StoredRow columns)) : Option (List (StoredRow columns)) :=
  if query.accepted engines engine columns then
    some (rows.filter (query.selects engines engine))
  else none

end Query

/-! The statements.  `none` is a rejection before the engine runs one, or a
statement without a condition after `WHERE`, which no engine parses. -/

inductive SqlComparaisonOperator where
  | equal
  | bangEqual
  | greater
  | less
  | greaterEqual
  | lessEqual
  | lessGreater

def SqlComparaisonOperator.comparison : SqlComparaisonOperator → Comparison
  | equal => .eq
  | bangEqual => .ne
  | greater => .gt
  | less => .lt
  | greaterEqual => .ge
  | lessEqual => .le
  | lessGreater => .ne

structure ISQLCondition where
  field : String
  operator : Option SqlComparaisonOperator
  value : SqlValue

def ISQLCondition.condition (condition : ISQLCondition) : Condition :=
  .compare condition.field (condition.operator.elim .eq (·.comparison))
    condition.value

def whereAll (conditions : List Condition) : Option Query :=
  if conditions.isEmpty then none else some (conditions.map ([·]))

def whereAny (conditions : List Condition) : Option Query :=
  if conditions.isEmpty then none else some [conditions]

namespace Sqlite

def matchLike (searchFields : List String) (value : SqlValue) :
    Option Query :=
  whereAny (searchFields.map fun field =>
    .like field ("%" ++ value.toText ++ "%"))

def deleteEqual (field : String) (value : SqlValue) : Option Query :=
  whereAll [.compare field .eq value]

def deleteEqualAnd (condition1 condition2 : String × SqlValue) :
    Option Query :=
  whereAll [.compare condition1.1 .eq condition1.2,
    .compare condition2.1 .eq condition2.2]

def deleteLowerThan (field : String) (value : SqlValue) : Option Query :=
  whereAll [.compare field .lt value]

def deleteWhere (conditions : List ISQLCondition) : Option Query :=
  whereAll (conditions.map (·.condition))

end Sqlite

namespace Pg

def matchLike (searchFields : List String) (value : SqlValue) :
    Option Query :=
  whereAny (searchFields.map fun field =>
    .like field (if value.falsy then "%" else "%" ++ value.toText ++ "%"))

/-- The guard of the three deletions. -/
def invalid (field : String) (value : SqlValue) : Bool :=
  field == "" || value.falsy || value.toText == ""

def deleteEqual (field : String) (value : SqlValue) : Option Query :=
  if invalid field value then none else whereAll [.compare field .eq value]

def deleteEqualAnd (condition1 condition2 : String × SqlValue) :
    Option Query :=
  if invalid condition1.1 condition1.2 || invalid condition2.1 condition2.2
  then none
  else
    whereAll [.compare condition1.1 .eq condition1.2,
      .compare condition2.1 .eq condition2.2]

def deleteLowerThan (field : String) (value : SqlValue) : Option Query :=
  if invalid field value then none else whereAll [.compare field .lt value]

def deleteWhere (conditions : List ISQLCondition) : Option Query :=
  whereAll (conditions.map (·.condition))

end Pg

/-! The statements of `_get`, whose parameters are texts. -/

namespace SQL

variable (engines : Engines) (engine : SupportedDatabases)

/-- The comparisons of one clause, of which one has to hold. -/
def group (values : List String) (clause : Clause) : List Condition :=
  (clause.texts values).map fun text =>
    .compare clause.column (comparisonOf clause.operator) (.text text)

/-- A field with a period gets an alias. -/
def projection (fields : List String) : List String :=
  if fields.isEmpty then ["*"]
  else
    fields.map fun field =>
      if field.toList.contains '.' then
        field ++ " AS " ++ String.ofList
          (field.toList.map fun c => if c = '.' then '_' else c)
      else field

def run {columns : Columns} (statement : Library.Statement)
    (order : Option String) (rows : List (StoredRow columns)) :
    Option (List (StoredRow columns)) :=
  let queries : List Query :=
    statement.condition.map (·.map (group statement.values))
  if engines.selectable columns (projection statement.fields) order &&
      queries.all (·.accepted engines engine columns) then
    some (rows.filter fun row => queries.isEmpty ||
      queries.any (·.selects engines engine row))
  else none

/-- The method `get`, which the backends share up to the engine.  The fields
and the order decide what is shown of the rows. -/
def get {columns : Columns} (fields : List String) (filter : Filter)
    (order : Option String) (rows : List (StoredRow columns)) :
    Option (List (StoredRow columns)) :=
  (getStatement fields filter).bind fun statement =>
    run engines engine statement order rows

end SQL

/-- The query for what a filter resolves to, compared with one operator. -/
def queryFor (op : Operator) (resolved : List (String × List String)) :
    Query :=
  resolved.map fun (key, texts) =>
    texts.map fun text => .compare key (comparisonOf op) (.text text)

/-- The query for what a filter resolves to. -/
def queryOf (resolved : List (String × List String)) : Query :=
  resolved.map fun (key, texts) =>
    texts.map fun text => .compare key .eq (.text text)

theorem group_queryFor {op : Operator} {values : List String}
    {clauses : List Clause}
    (operators : ∀ clause ∈ clauses, clause.operator = op) :
    clauses.map (SQL.group values) = queryFor op (asked values clauses) := by
  rw [queryFor, asked, List.map_map]
  apply List.map_congr_left
  intro clause hmem
  rw [SQL.group, operators clause hmem]
  rfl

theorem group_asked {values : List String} {clauses : List Clause}
    (operators : ∀ clause ∈ clauses, clause.operator = .eq) :
    clauses.map (SQL.group values) = queryOf (asked values clauses) :=
  group_queryFor operators

theorem get_eq {columns : Columns} (engines : Engines)
    (engine : SupportedDatabases) (fields : List String) (filter : Filter)
    (order : Option String) (rows : List (StoredRow columns)) :
    SQL.get engines engine fields filter order rows =
      if engines.selectable columns (SQL.projection fields) order then
        filter.resolve.bind fun resolved =>
          (queryOf resolved).run engines engine rows
      else none := by
  unfold SQL.get getStatement
  rcases get_clauses .eq fields filter with
    ⟨hresolve, hget⟩ |
    ⟨resolved, clauses, values, hresolve, hget, hoperators, hasked⟩
  · rw [hresolve, hget, Option.bind_none, Option.bind_none, ite_self]
  · rw [hresolve, hget, Option.bind_some, Option.bind_some, ← hasked,
      ← group_asked hoperators]
    unfold SQL.run Query.run
    cases engines.selectable columns (SQL.projection fields) order with
    | false => rfl
    | true =>
        cases clauses with
        | nil => rfl
        | cons clause rest => simp [addGroup]

end TwakeKickstart.IdentityServer
