import Mathlib.Logic.Function.Basic
import TwakeKickstart.Library.Js
import TwakeKickstart.Library.Sql
import TwakeKickstart.Library.Traversal

namespace TwakeKickstart.Library

/-! Declared columns, the range of their types, and two stores: one that looks
at no range, and one that refuses what is out of range. -/

inductive SqlType where
  | text
  | varchar (limit : Nat)
  | integer
  | jsonb
  | textArray
  deriving DecidableEq

def isInt4 (n : Int) : Bool :=
  decide (-2147483648 ≤ n) && decide (n ≤ 2147483647)

@[simp] theorem isInt4_zero : isInt4 0 = true := rfl

@[simp] theorem isInt4_one : isInt4 1 = true := rfl

theorem isInt4_natCast (n : Nat) :
    isInt4 n = true ↔ n ≤ 2147483647 := by
  simp only [isInt4, Bool.and_eq_true, decide_eq_true_eq]
  omega

namespace SqlType

/-- The type that a word of a declaration names, in either case. -/
def ofWord (word : List Char) : Option SqlType :=
  match word.map Char.toLower with
  | ['t', 'e', 'x', 't'] => some .text
  | ['t', 'e', 'x', 't', '[', ']'] => some .textArray
  | ['i', 'n', 't'] => some .integer
  | ['i', 'n', 't', 'e', 'g', 'e', 'r'] => some .integer
  | ['j', 's', 'o', 'n', 'b'] => some .jsonb
  | 'v' :: 'a' :: 'r' :: 'c' :: 'h' :: 'a' :: 'r' :: '(' :: rest =>
      some (.varchar ((rest.takeWhile Char.isDigit).foldl
        (fun limit digit => 10 * limit + (digit.toNat - '0'.toNat)) 0))
  | _ => none

/-- The value is in the range of the type.  A text that is no numeral has no
range in an integer column: it is refused for its syntax. -/
def admits : SqlType → Cell → Bool
  | .varchar limit, .text s => decide (s.length ≤ limit)
  | .varchar limit, .int n => decide ((toString n).length ≤ limit)
  | .integer, .int n => isInt4 n
  | .integer, .text s => s.toInt?.all isInt4
  | _, _ => true

/-- What a column keeps of a value; `none` when the value is out of range.
Spaces beyond the limit are cut off. -/
def keeps (type : SqlType) (cell : Cell) : Option Cell :=
  if type.admits cell then some cell
  else
    match type, cell with
    | .varchar limit, .text s =>
        if (s.toList.drop limit).all (· == ' ') then
          some (.text (String.ofList (s.toList.take limit)))
        else none
    | _, _ => none

/-- Parameters of integer columns are converted before any row is looked at. -/
def reads : SqlType → Cell → Bool
  | .integer, cell => SqlType.integer.admits cell
  | _, _ => true

@[simp] theorem admits_null (type : SqlType) :
    type.admits .null = true := by
  cases type <;> rfl

@[simp] theorem admits_text (cell : Cell) :
    SqlType.text.admits cell = true := by
  cases cell <;> rfl

@[simp] theorem admits_varchar_text (limit : Nat) (s : String) :
    (varchar limit).admits (.text s) = true ↔ s.length ≤ limit := by
  simp [admits]

@[simp] theorem admits_integer_int (n : Int) :
    integer.admits (.int n) = isInt4 n := rfl

@[simp] theorem admits_jsonb (cell : Cell) :
    jsonb.admits cell = true := by
  cases cell <;> rfl

@[simp] theorem admits_textArray (cell : Cell) :
    textArray.admits cell = true := by
  cases cell <;> rfl

theorem keeps_of_admits {type : SqlType} {cell : Cell}
    (admitted : type.admits cell = true) : type.keeps cell = some cell := by
  unfold keeps
  rw [if_pos admitted]

theorem reads_of_admits {type : SqlType} {cell : Cell}
    (admitted : type.admits cell = true) : type.reads cell = true := by
  cases type with
  | integer => exact admitted
  | text => rfl
  | varchar limit => rfl
  | jsonb => rfl
  | textArray => rfl

end SqlType

abbrev TableColumns := List (String × SqlType)

-- A constraint on the table names no type where a column does.
def columnOf : List (List Char) → Option (String × SqlType)
  | name :: type :: _ =>
      (SqlType.ofWord type).map fun type => (String.ofList name, type)
  | _ => none

/-- The columns between the brackets of a `CREATE TABLE`. -/
def columnsOf (declaration : String) : TableColumns :=
  (declaration.toList.splitOn ',').filterMap fun part =>
    columnOf ((part.dropWhile (· == ' ')).splitOn ' ')

/-- The text of a declaration that is written in two pieces. -/
theorem toList_append_ofList {left right : String} {first second : List Char}
    (hleft : left.toList = first) (hright : right = String.ofList second) :
    (left ++ right).toList = first ++ second := by
  rw [String.toList_append, hleft, hright, String.toList_ofList]

theorem columnsOf_eq {declaration : String} {text : List Char}
    {columns : TableColumns} (h : declaration.toList = text)
    (hcolumns : ((text.splitOn ',').filterMap fun part =>
      columnOf ((part.dropWhile (· == ' ')).splitOn ' ')) = columns) :
    columnsOf declaration = columns := by
  rw [columnsOf, h, hcolumns]

/-! Rows, and the statements on them. -/

abbrev Cells := String → Cell

def RowFits (columns : TableColumns) (cells : Cells) : Prop :=
  ∀ column ∈ columns, column.2.admits (cells column.1) = true

def overwrite (values : List (String × Cell)) (cells : Cells) : Cells :=
  fun name => (values.lookup name).getD (cells name)

def ValuesFit (columns : TableColumns) (values : List (String × Cell)) :
    Prop :=
  ∀ value ∈ values, ∀ column ∈ columns, column.1 = value.1 →
    column.2.admits value.2 = true

/-- The row as a table keeps it. -/
def enforce (columns : TableColumns) (cells : Cells) : Option Cells :=
  if columns.all fun column => (column.2.keeps (cells column.1)).isSome then
    some fun name => (columns.lookup name).elim (cells name) fun type =>
      (type.keeps (cells name)).getD .null
  else none

def inRange (columns : TableColumns) (values : List (String × Cell)) : Bool :=
  values.all fun value =>
    columns.all fun column =>
      column.1 != value.1 || column.2.reads value.2

section Rows

variable {columns : TableColumns} {cells : Cells}
variable {values : List (String × Cell)}

theorem RowFits.overwrite (fits : RowFits columns cells)
    (valuesFit : ValuesFit columns values) :
    RowFits columns (overwrite values cells) := by
  intro column hcolumn
  unfold Library.overwrite
  cases hlookup : values.lookup column.1 with
  | none => exact fits column hcolumn
  | some cell => exact valuesFit _ (mem_of_lookup hlookup) column hcolumn rfl

theorem enforce_of_fits (fits : RowFits columns cells) :
    enforce columns cells = some cells := by
  have hall : (columns.all fun column =>
      (column.2.keeps (cells column.1)).isSome) = true := by
    rw [List.all_eq_true]
    intro column hcolumn
    rw [SqlType.keeps_of_admits (fits column hcolumn)]
    rfl
  rw [enforce, if_pos hall, Option.some.injEq]
  funext name
  cases hlookup : columns.lookup name with
  | none => rfl
  | some type =>
      have hadmits := fits _ (mem_of_lookup hlookup)
      rw [Option.elim_some, SqlType.keeps_of_admits hadmits]
      rfl

theorem inRange_of_fits (fits : ValuesFit columns values) :
    inRange columns values = true := by
  rw [inRange, List.all_eq_true]
  intro value hvalue
  rw [List.all_eq_true]
  intro column hcolumn
  by_cases hname : column.1 = value.1
  · have hreads := SqlType.reads_of_admits
      (fits value hvalue column hcolumn hname)
    rw [hreads, Bool.or_true]
  · rw [bne_iff_ne.mpr hname, Bool.true_or]

end Rows

/-! The statements of a program, on tables that are declared. -/

inductive TableOperation (Table : Type) where
  | insert (table : Table) (cells : Cells)
  | update (table : Table) (values : List (String × Cell))
      (selected : Cells → Bool)
  | delete (table : Table) (selected : Cells → Bool)
  | select (table : Table) (compared : List (String × Cell))

abbrev Database (Table : Type) := Table → List Cells

variable {Table : Type}

def DatabaseFits (columns : Table → TableColumns)
    (database : Database Table) : Prop :=
  ∀ table, ∀ cells ∈ database table, RowFits (columns table) cells

namespace TableOperation

/-- The values that the statement writes, or compares a column with, are in the
range of the columns. -/
@[simp] def Fits (columns : Table → TableColumns) : TableOperation Table → Prop
  | .insert table cells => RowFits (columns table) cells
  | .update table values _ => ValuesFit (columns table) values
  | .delete _ _ => True
  | .select table compared => inRange (columns table) compared = true

variable [DecidableEq Table]

/-- The statement in a store that looks at no range. -/
def loosely (database : Database Table) :
    TableOperation Table → Database Table
  | .insert table cells =>
      Function.update database table (database table ++ [cells])
  | .update table values selected =>
      Function.update database table ((database table).map fun cells =>
        if selected cells then overwrite values cells else cells)
  | .delete table selected =>
      Function.update database table
        ((database table).filter fun cells => !selected cells)
  | .select _ _ => database

/-- The statement in a store that refuses what is out of range. -/
def strictly (columns : Table → TableColumns) (database : Database Table) :
    TableOperation Table → Option (Database Table)
  | .insert table cells =>
      (enforce (columns table) cells).map fun cells =>
        Function.update database table (database table ++ [cells])
  | .update table values selected =>
      if inRange (columns table) values then
        ((database table).mapM fun cells =>
          if selected cells then
            enforce (columns table) (overwrite values cells)
          else some cells).map (Function.update database table)
      else none
  | .delete table selected =>
      some (Function.update database table
        ((database table).filter fun cells => !selected cells))
  | .select table compared =>
      if inRange (columns table) compared then some database else none

def table : TableOperation Table → Table
  | .insert table _ => table
  | .update table _ _ => table
  | .delete table _ => table
  | .select table _ => table

def runLoosely (database : Database Table) :
    List (TableOperation Table) → Database Table
  | [] => database
  | operation :: rest => runLoosely (operation.loosely database) rest

def runStrictly (columns : Table → TableColumns) (database : Database Table) :
    List (TableOperation Table) → Option (Database Table)
  | [] => some database
  | operation :: rest =>
      (operation.strictly columns database).bind fun database =>
        runStrictly columns database rest

end TableOperation

/-- Every value of the run is in range, the strict store refuses none and ends
with what the loose one has, and all that is ever stored fits its columns. -/
structure RunFits [DecidableEq Table] (columns : Table → TableColumns)
    (start : Database Table) (run : List (TableOperation Table)) : Prop where
  values : ∀ operation ∈ run, operation.Fits columns
  accepted : TableOperation.runStrictly columns start run =
    some (TableOperation.runLoosely start run)
  stored : ∀ done, done <+: run →
    DatabaseFits columns (TableOperation.runLoosely start done)

section Runs

variable [DecidableEq Table] {columns : Table → TableColumns}
variable {database : Database Table} {operation : TableOperation Table}

theorem DatabaseFits.update (fits : DatabaseFits columns database)
    {table : Table} {rows : List Cells}
    (rowsFit : ∀ cells ∈ rows, RowFits (columns table) cells) :
    DatabaseFits columns (Function.update database table rows) := by
  intro other cells hcells
  by_cases heq : other = table
  · subst heq
    rw [Function.update_self] at hcells
    exact rowsFit cells hcells
  · rw [Function.update_of_ne heq] at hcells
    exact fits other cells hcells

theorem DatabaseFits.loosely (fits : DatabaseFits columns database)
    (operationFits : operation.Fits columns) :
    DatabaseFits columns (operation.loosely database) := by
  cases operation with
  | insert table cells =>
      refine fits.update fun row hrow => ?_
      rcases List.mem_append.mp hrow with hrow | hrow
      · exact fits table row hrow
      · rw [List.mem_singleton.mp hrow]
        exact operationFits
  | update table values selected =>
      refine fits.update fun row hrow => ?_
      obtain ⟨cells, hcells, rfl⟩ := List.mem_map.mp hrow
      split
      · exact (fits table cells hcells).overwrite operationFits
      · exact fits table cells hcells
  | delete table selected =>
      exact fits.update fun row hrow =>
        fits table row (List.mem_of_mem_filter hrow)
  | select table compared => exact fits

theorem strictly_of_fits (fits : DatabaseFits columns database)
    (operationFits : operation.Fits columns) :
    operation.strictly columns database =
      some (operation.loosely database) := by
  cases operation with
  | insert table cells =>
      rw [TableOperation.strictly, enforce_of_fits operationFits]
      rfl
  | update table values selected =>
      have hrows : ∀ cells ∈ database table,
          (if selected cells then
            enforce (columns table) (overwrite values cells)
          else some cells) =
          some (if selected cells then overwrite values cells else cells) := by
        intro cells hcells
        split
        · exact enforce_of_fits
            ((fits table cells hcells).overwrite operationFits)
        · rfl
      rw [TableOperation.strictly, if_pos (inRange_of_fits operationFits),
        mapM_eq_some_map hrows]
      rfl
  | delete table selected => rfl
  | select table compared => exact if_pos operationFits

theorem runFits_of_fits (run : List (TableOperation Table))
    (fits : DatabaseFits columns database)
    (runFits : ∀ operation ∈ run, operation.Fits columns) :
    TableOperation.runStrictly columns database run =
        some (TableOperation.runLoosely database run) ∧
      DatabaseFits columns (TableOperation.runLoosely database run) := by
  induction run generalizing database with
  | nil => exact ⟨rfl, fits⟩
  | cons operation rest ih =>
      have hfits := runFits operation List.mem_cons_self
      have hrest := ih (fits.loosely hfits) fun other hother =>
        runFits other (List.mem_cons_of_mem _ hother)
      rw [TableOperation.runStrictly, strictly_of_fits fits hfits]
      exact hrest

theorem runFits_iff (fits : DatabaseFits columns database)
    (run : List (TableOperation Table)) :
    RunFits columns database run ↔
      ∀ operation ∈ run, operation.Fits columns := by
  refine ⟨RunFits.values, fun hrun => ?_⟩
  constructor
  · exact hrun
  · exact (runFits_of_fits run fits hrun).1
  · intro done hdone
    exact (runFits_of_fits done fits fun operation hoperation =>
      hrun operation (hdone.subset hoperation)).2

end Runs

end TwakeKickstart.Library
