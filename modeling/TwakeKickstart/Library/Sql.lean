import Mathlib.Data.List.Basic

namespace TwakeKickstart.Library

/-! The fragment of SQL that statement builders emit: comparisons of a column
with a numbered parameter, grouped by OR and AND. -/

inductive Cell where
  | null
  | int (n : Int)
  | text (s : String)
  deriving DecidableEq

inductive Operator where
  | eq
  | ne
  | gt
  | lt
  deriving DecidableEq

namespace Operator

/-- Truth of `cell op parameter`.  A comparison with NULL is never true; a
parameter that is no numeral sorts after every integer. -/
def test (op : Operator) (cell : Cell) (parameter : String) : Bool :=
  match cell with
  | .null => false
  | .text s =>
      match op with
      | .eq => s == parameter
      | .ne => s != parameter
      | .gt => decide (parameter < s)
      | .lt => decide (s < parameter)
  | .int n =>
      match parameter.toInt? with
      | none => op == .ne || op == .lt
      | some m =>
          match op with
          | .eq => n == m
          | .ne => n != m
          | .gt => decide (m < n)
          | .lt => decide (n < m)

@[simp] theorem test_null (op : Operator) (parameter : String) :
    op.test .null parameter = false := rfl

@[simp] theorem test_eq_text (s parameter : String) :
    Operator.eq.test (.text s) parameter = true ↔ s = parameter := by
  simp [test]

end Operator

inductive Clause where
  | compare (column : String) (op : Operator) (parameter : Nat)
  | anyOf (column : String) (op : Operator) (parameters : List Nat)

-- Parameters are numbered from 1.
def parameterValue (values : List String) : Nat → Option String
  | 0 => none
  | index + 1 => values[index]?

def Operator.holds (op : Operator) (values : List String) (cell : Cell)
    (parameter : Nat) : Bool :=
  (parameterValue values parameter).any (op.test cell)

def Clause.holds (cells : String → Cell) (values : List String) :
    Clause → Bool
  | .compare column op parameter => op.holds values (cells column) parameter
  | .anyOf column op parameters =>
      parameters.any (op.holds values (cells column))

namespace Clause

def column : Clause → String
  | .compare column _ _ => column
  | .anyOf column _ _ => column

def operator : Clause → Operator
  | .compare _ op _ => op
  | .anyOf _ op _ => op

/-- The texts that are bound to the parameters of the clause. -/
def texts (values : List String) : Clause → List String
  | .compare _ _ parameter => (parameterValue values parameter).toList
  | .anyOf _ _ parameters => parameters.filterMap (parameterValue values)

theorem holds_eq_any (cells : String → Cell) (values : List String)
    (clause : Clause) :
    clause.holds cells values =
      (clause.texts values).any (clause.operator.test (cells clause.column)) := by
  cases clause with
  | compare column op parameter =>
      cases h : parameterValue values parameter <;>
        simp [holds, Operator.holds, texts, Clause.operator, Clause.column, h]
  | anyOf column op parameters =>
      induction parameters with
      | nil => rfl
      | cons parameter rest ih =>
          simp only [holds, texts, Clause.operator, Clause.column,
            List.any_cons, List.filterMap_cons] at ih ⊢
          rw [ih, Operator.holds]
          cases parameterValue values parameter <;> simp

end Clause

/-! A SELECT on one table.  The condition is an OR of ANDs; without any group
there is no WHERE and every row is selected. -/

structure Statement where
  fields : List String
  condition : List (List Clause)
  values : List String

def Statement.selects (statement : Statement) (cells : String → Cell) : Bool :=
  statement.condition.isEmpty ||
    statement.condition.any (·.all (Clause.holds cells statement.values))

/-- The equality that PRIMARY KEY constraints, UPDATE and DELETE use. -/
def Cell.same (left right : Cell) : Bool :=
  match left, right with
  | .int a, .int b => a == b
  | .text a, .text b => a == b
  | _, _ => false

@[simp] theorem Cell.same_text (a b : String) :
    (Cell.text a).same (.text b) = true ↔ a = b := by
  simp [Cell.same]

theorem filter_eq_filter_iff {α : Type} {rows : List α} {p q : α → Bool} :
    rows.filter p = rows.filter q ↔ ∀ row ∈ rows, p row = q row := by
  refine ⟨fun h row hrow => ?_, List.filter_congr⟩
  rw [Bool.eq_iff_iff]
  constructor
  · intro hp
    have hmem := List.mem_filter.mpr ⟨hrow, hp⟩
    rw [h] at hmem
    exact (List.mem_filter.mp hmem).2
  · intro hq
    have hmem := List.mem_filter.mpr ⟨hrow, hq⟩
    rw [← h] at hmem
    exact (List.mem_filter.mp hmem).2

end TwakeKickstart.Library
