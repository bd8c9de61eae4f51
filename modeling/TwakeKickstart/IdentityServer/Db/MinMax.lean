import TwakeKickstart.IdentityServer.Db.StatementText

namespace TwakeKickstart.IdentityServer

open Library
open StatementText (MinMax MinMaxArguments Pieces aliasOf selectFields)

/-! The methods that select with `MIN` or `MAX`, and the clauses of the
statements of `_getMinMax`. -/

namespace MinMaxQuery

/-- The arguments of `_getMinMax` that its callers give.  The first filter is
compared with `=`; the link between the filters is always `AND`. -/
structure Call where
  minmax : MinMax
  tables : List String
  targetField : String
  fields : Option (List String)
  filterFields1 : Option Filter
  op2 : Option Operator := none
  filterFields2 : Option Filter := none
  joinFields : Option JsObject := none
  order : Option String

section Methods

variable (table targetField : String) (fields : Option (List String))
variable (order : Option String)

def getMaxWhereEqual (filterFields : Option Filter) : Call where
  minmax := .max
  tables := [table]
  targetField := targetField
  fields := fields
  filterFields1 := filterFields
  order := order

def getMaxWhereEqualAndLower (filterFields1 filterFields2 : Option Filter) :
    Call where
  minmax := .max
  tables := [table]
  targetField := targetField
  fields := fields
  filterFields1 := filterFields1
  op2 := some .lt
  filterFields2 := filterFields2
  order := order

def getMinWhereEqualAndHigher (filterFields1 filterFields2 : Option Filter) :
    Call where
  minmax := .min
  tables := [table]
  targetField := targetField
  fields := fields
  filterFields1 := filterFields1
  op2 := some .gt
  filterFields2 := filterFields2
  order := order

def getMaxWhereEqualAndLowerJoin (tables : List String)
    (filterFields1 filterFields2 : Option Filter)
    (joinFields : Option JsObject) : Call where
  minmax := .max
  tables := tables
  targetField := targetField
  fields := fields
  filterFields1 := filterFields1
  op2 := some .lt
  filterFields2 := filterFields2
  joinFields := joinFields
  order := order

end Methods

def operatorText : Operator → String
  | .eq => "="
  | .ne => "!="
  | .gt => ">"
  | .lt => "<"

def Call.arguments (call : Call) : MinMaxArguments where
  minmax := call.minmax
  tables := call.tables
  targetField := call.targetField
  fields := call.fields
  op1 := some "="
  filterFields1 := call.filterFields1
  op2 := call.op2.map operatorText
  linkop := call.op2.map fun _ => " AND "
  filterFields2 := call.filterFields2
  joinFields := call.joinFields
  order := call.order

/-! The clauses of a statement. -/

inductive SqlClause where
  | select (fields : List String) (minmax : MinMax) (targetField : String)
  | source (tables : List String)
  | condition (groups : List (List Clause))
      (joined : Option (List (String × String)))
  | having
  | orderBy (order : String)

namespace SqlClause

/-- The place of a clause in a `SELECT`. -/
def rank : SqlClause → Nat
  | select .. => 0
  | source .. => 1
  | condition .. => 2
  | having => 3
  | orderBy .. => 4

def clausePieces : Clause → Pieces
  | .compare column op parameter =>
      [.placeholder column (operatorText op) parameter]
  | .anyOf column op parameters =>
      .text "(" :: Pieces.join " OR " (parameters.map fun parameter =>
        [.placeholder column (operatorText op) parameter]) ++ [.text ")"]

def groupText (group : List Clause) : String :=
  " AND ".intercalate (group.map fun clause => (clausePieces clause).toText)

def joinText (joined : List (String × String)) : String :=
  " AND ".intercalate (joined.map fun entry => entry.1 ++ "=" ++ entry.2)

def toText : SqlClause → String
  | select fields minmax targetField =>
      "SELECT " ++ ",".intercalate fields ++ ", " ++ minmax.toText ++ "(" ++
        targetField ++ ") AS max_" ++ aliasOf targetField
  | source tables => " FROM " ++ ",".intercalate tables ++ " "
  | condition groups joined =>
      "WHERE " ++ "  AND  ".intercalate (groups.map groupText) ++
        joined.elim "" fun joined =>
          (if groups.isEmpty then "" else " AND ") ++ joinText joined
  | having => " HAVING COUNT(*) > 0"
  | orderBy order => " ORDER BY " ++ order

end SqlClause

structure Statement where
  clauses : List SqlClause
  values : List String

namespace Statement

def text (statement : Statement) : String :=
  String.join (statement.clauses.map SqlClause.toText)

/-- SELECT, FROM, WHERE, HAVING, ORDER BY, each at most once. -/
def InOrder (statement : Statement) : Prop :=
  (statement.clauses.map SqlClause.rank).Pairwise (· < ·)

instance (statement : Statement) : Decidable statement.InOrder :=
  inferInstanceAs (Decidable (List.Pairwise _ _))

end Statement

namespace Call

def group (op : Operator) (filterFields : Option Filter) (builder : Builder) :
    Option (List Clause × Builder) :=
  match filterFields with
  | some filter => buildCondition op filter builder
  | none => some ([], builder)

def secondGroup (call : Call) (builder : Builder) :
    Option (List Clause × Builder) :=
  match call.op2 with
  | some op => group op call.filterFields2 builder
  | none => some ([], builder)

/-- The columns that have to be equal. -/
def joinEntries (joinFields : JsObject) : Option (List (String × String)) :=
  (keptKeys joinFields).bind fun kept =>
    kept.mapM fun entry : String × JsValue => entry.2.text?.map (entry.1, ·)

def joined (joinFields : Option JsObject) :
    Option (Option (List (String × String))) :=
  match joinFields with
  | none => some none
  | some joinFields => (joinEntries joinFields).map some

/-- `ORDER BY` comes before `HAVING`. -/
def clauses (call : Call) (groups : List (List Clause))
    (joined : Option (List (String × String))) : List SqlClause :=
  .select (selectFields call.fields) call.minmax call.targetField ::
    .source call.tables ::
      ((if groups.isEmpty && joined.isNone then []
          else [.condition groups joined]) ++
        (call.order.map SqlClause.orderBy).toList ++ [.having])

def statement (call : Call) : Option Statement :=
  (group .eq call.filterFields1 ⟨0, []⟩).bind fun (first, builder) =>
  (call.secondGroup builder).bind fun (second, builder) =>
  (joined call.joinFields).map fun joined =>
    { clauses := call.clauses ([first, second].filter (!·.isEmpty)) joined
      values := builder.values }

end Call

/-! The clauses are those of the text that is sent. -/

section Text

open StatementText SqlClause

theorem toText_append (first second : Pieces) :
    Pieces.toText (first ++ second) = first.toText ++ second.toText := by
  rw [Pieces.toText, List.map_append, String.join_append]
  rfl

theorem toText_cons (piece : Piece) (pieces : Pieces) :
    Pieces.toText (piece :: pieces) = piece.toText ++ pieces.toText := by
  rw [Pieces.toText, List.map_cons, String.join_cons]
  rfl

theorem toText_nil : Pieces.toText [] = "" := by
  rw [Pieces.toText, List.map_nil, String.join_nil]

theorem toText_join (separator : String) (items : List Pieces) :
    (Pieces.join separator items).toText =
      separator.intercalate (items.map Pieces.toText) := by
  induction items using Pieces.join.induct with
  | case1 => rfl
  | case2 pieces => rw [Pieces.join, List.map_singleton,
      String.intercalate_singleton]
  | case3 pieces rest hrest ih =>
      rw [Pieces.join, toText_append, toText_cons, ih, List.map_cons,
        String.intercalate_cons_of_ne_nil, String.append_assoc]
      · rfl
      · exact fun hnil => hrest (List.map_eq_nil_iff.mp hnil)
      · exact hrest

theorem clausePieces_ne_empty (clause : Clause) :
    (clausePieces clause).toText ≠ "" := by
  cases clause with
  | compare column op parameter =>
      intro hempty
      exact List.cons_ne_nil _ _ (placeholders_of_toText hempty)
  | anyOf column op parameters =>
      rw [clausePieces, List.cons_append, toText_cons, Piece.toText]
      intro hempty
      exact absurd (String.append_eq_empty_iff.mp hempty).1 (by decide)

theorem groupText_ne_empty {group : List Clause} (h : group ≠ []) :
    groupText group ≠ "" := by
  cases group with
  | nil => exact absurd rfl h
  | cons clause rest =>
      have htext := clausePieces_ne_empty clause
      rw [groupText, List.map_cons]
      cases rest with
      | nil =>
          rw [List.map_nil, String.intercalate_singleton]
          exact htext
      | cons other rest =>
          rw [List.map_cons, String.intercalate_cons_cons]
          simp [String.append_eq_empty_iff]

theorem pushEntry_eq (op : Operator) (key : String) (value : JsValue)
    (builder : Builder) :
    pushEntry (operatorText op) key value builder =
      (pushClause op key value builder).map fun (clause, builder) =>
        (clausePieces clause, builder) := by
  cases value with
  | arr items =>
      rw [pushEntry, pushClause, Option.map_map]
      rfl
  | _ =>
      rw [pushEntry, pushClause, Option.map_map]
      · rfl
      all_goals
        intro items harr
        cases harr

def appendClause (localCondition : Pieces) (clause : Clause) : Pieces :=
  localCondition ++
    (if localCondition.toText ≠ "" then [.text " AND "] else []) ++
    clausePieces clause

theorem pushEntries_eq (op : Operator) (kept : Filter)
    (localCondition : Pieces) (builder : Builder) :
    pushEntries (operatorText op) localCondition kept builder =
      (pushClauses op kept builder).map fun (clauses, builder) =>
        (clauses.foldl appendClause localCondition, builder) := by
  induction kept generalizing localCondition builder with
  | nil => rfl
  | cons entry rest ih =>
      obtain ⟨key, value⟩ := entry
      rw [pushEntries, pushClauses, pushEntry_eq]
      cases pushClause op key value builder with
      | none => rfl
      | some pushed =>
          obtain ⟨clause, builder⟩ := pushed
          simp only [Option.map_some, Option.bind_some]
          rw [ih, Option.map_map]
          rfl

theorem toText_foldl {localCondition : Pieces}
    (nonempty : localCondition.toText ≠ "") (clauses : List Clause) :
    (clauses.foldl appendClause localCondition).toText =
      " AND ".intercalate (localCondition.toText ::
        clauses.map fun clause => (clausePieces clause).toText) := by
  induction clauses generalizing localCondition with
  | nil => exact String.intercalate_singleton.symm
  | cons clause rest ih =>
      have htext : (appendClause localCondition clause).toText =
          localCondition.toText ++ " AND " ++ (clausePieces clause).toText := by
        rw [appendClause, if_pos nonempty, toText_append, toText_append,
          toText_cons, Piece.toText, toText_nil, String.append_empty]
      have hnonempty : (appendClause localCondition clause).toText ≠ "" := by
        rw [htext]
        intro hempty
        exact clausePieces_ne_empty clause
          (String.append_eq_empty_iff.mp hempty).2
      rw [List.foldl_cons, ih hnonempty, htext, List.map_cons,
        String.intercalate_cons_cons, String.intercalate_cons_append]

theorem buildCondition_eq (op : Operator) (filter : Filter)
    (builder : Builder) :
    StatementText.buildCondition (operatorText op) filter builder =
      (buildCondition op filter builder).map fun (clauses, builder) =>
        (clauses.foldl appendClause [], builder) := by
  rw [StatementText.buildCondition, buildCondition]
  cases keptKeys filter with
  | none => rfl
  | some kept => exact pushEntries_eq op kept [] builder

theorem groupCondition_eq (op : Operator) (filterFields : Option Filter)
    (builder : Builder) :
    groupCondition (some (operatorText op)) filterFields builder =
      (Call.group op filterFields builder).map fun (clauses, builder) =>
        (clauses.foldl appendClause [], builder) := by
  cases filterFields with
  | none => rfl
  | some filter =>
      cases filter with
      | nil => rfl
      | cons entry rest =>
          rw [groupCondition, List.length_cons, if_pos (Nat.succ_pos _)]
          exact buildCondition_eq op (entry :: rest) builder

theorem linkedCondition_eq (call : Call) (builder : Builder) :
    linkedCondition call.arguments.op2 call.arguments.linkop
        call.arguments.filterFields2 builder =
      (call.secondGroup builder).map fun (clauses, builder) =>
        (clauses.foldl appendClause [], builder) := by
  rw [Call.secondGroup, Call.arguments]
  cases call.op2 with
  | none => rfl
  | some op => exact groupCondition_eq op call.filterFields2 builder

theorem toText_group (group : List Clause) :
    (group.foldl appendClause []).toText = groupText group := by
  cases group with
  | nil => exact toText_nil
  | cons clause rest =>
      have hfirst : appendClause [] clause = clausePieces clause := by
        rw [appendClause, toText_nil, if_neg (not_not.mpr rfl)]
        rfl
      rw [List.foldl_cons, hfirst,
        toText_foldl (clausePieces_ne_empty clause), groupText, List.map_cons]

/-- What the two groups of conditions add to the text. -/
def whereText (groups : List (List Clause))
    (joined : Option (List (String × String))) : String :=
  if groups.isEmpty && joined.isNone then ""
  else (SqlClause.condition groups joined).toText

theorem whereText_joined (groups : List (List Clause))
    (joined : List (String × String)) :
    whereText groups none ++
        ((if whereText groups none ≠ "" then " AND " else "WHERE ") ++
          joinText joined) =
      whereText groups (some joined) := by
  cases groups with
  | nil => simp [whereText, SqlClause.toText]
  | cons group rest =>
      have hne : whereText (group :: rest) none ≠ "" := by
        rw [whereText, if_neg (by simp), SqlClause.toText]
        simp [String.append_eq_empty_iff]
      rw [if_pos hne]
      simp [whereText, SqlClause.toText, String.append_assoc]

/-- The condition of the code. -/
def conditionPieces (linkop : Option String) (first second : List Clause) :
    Pieces :=
  let condition1 := first.foldl appendClause []
  addCondition
    (if condition1.toText ≠ "" then .text "WHERE " :: condition1 else [])
    linkop (second.foldl appendClause [])

theorem toText_conditionPieces (linkop : Option String)
    (first second : List Clause) (h : second ≠ [] → linkop = some " AND ") :
    (conditionPieces linkop first second).toText =
      whereText ([first, second].filter (!·.isEmpty)) none := by
  rw [conditionPieces, addCondition]
  simp only [toText_group]
  by_cases hfirst : first = []
  · subst first
    by_cases hsecond : second = []
    · subst second
      exact toText_nil
    · rw [if_neg (groupText_ne_empty hsecond)]
      simp [whereText, hsecond, toText_cons, toText_nil, toText_group,
        groupText, Piece.toText, SqlClause.toText]
  · have hfirstText := groupText_ne_empty hfirst
    rw [if_pos hfirstText]
    by_cases hsecond : second = []
    · subst second
      simp [whereText, hfirst, toText_cons, toText_group, groupText,
        Piece.toText, SqlClause.toText]
    · rw [if_neg (groupText_ne_empty hsecond), h hsecond]
      simp [whereText, hfirst, hsecond, toText_cons, toText_append,
        toText_group, groupText, Piece.toText, SqlClause.toText,
        String.append_assoc]

def joinPieces (entry : String × String) : Pieces :=
  [.text (entry.1 ++ "=" ++ entry.2)]

theorem mapM_joinPieces (kept : List (String × JsValue)) :
    (kept.mapM fun entry : String × JsValue => entry.2.text?.map fun text =>
        [Piece.text (entry.1 ++ "=" ++ text)]) =
      (kept.mapM fun entry : String × JsValue =>
        entry.2.text?.map (entry.1, ·)).map (List.map joinPieces) := by
  induction kept with
  | nil => rfl
  | cons entry rest ih =>
      rw [List.mapM_cons, List.mapM_cons, ih]
      cases entry.2.text? with
      | none => rfl
      | some text =>
          cases rest.mapM fun entry : String × JsValue =>
              entry.2.text?.map (entry.1, ·) with
          | none => rfl
          | some joined => rfl

theorem joinCondition_eq (joinFields : JsObject) :
    (joinCondition joinFields).map Pieces.toText =
      (Call.joinEntries joinFields).map joinText := by
  rw [joinCondition, Call.joinEntries]
  cases keptKeys joinFields with
  | none => rfl
  | some kept =>
      rw [Option.bind_some, Option.bind_some, mapM_joinPieces, Option.map_map,
        Option.map_map]
      apply congrArg (Option.map · _)
      funext joined
      rw [Function.comp_apply, Function.comp_apply, toText_join, List.map_map,
        joinText]
      apply congrArg (" AND ".intercalate ·)
      apply List.map_congr_left
      intro entry _
      rw [Function.comp_apply, joinPieces, toText_cons, toText_nil,
        String.append_empty, Piece.toText]

theorem toText_addJoin (linkop : Option String) (first second : List Clause)
    (h : second ≠ [] → linkop = some " AND ") (joinFields : Option JsObject) :
    (addJoin (conditionPieces linkop first second) joinFields).map
        Pieces.toText =
      (Call.joined joinFields).map
        (whereText ([first, second].filter (!·.isEmpty))) := by
  cases joinFields with
  | none => exact congrArg some (toText_conditionPieces linkop first second h)
  | some joinFields =>
      have hjoin := joinCondition_eq joinFields
      have hcondition := toText_conditionPieces linkop first second h
      rw [addJoin, Call.joined, Option.map_map, Option.map_map]
      cases hpieces : joinCondition joinFields with
      | none =>
          rw [hpieces] at hjoin
          rw [Option.map_eq_none_iff.mp hjoin.symm]
          rfl
      | some pieces =>
          rw [hpieces] at hjoin
          obtain ⟨joined, hjoined, htext⟩ :=
            Option.map_eq_some_iff.mp hjoin.symm
          rw [hjoined, Option.map_some, Option.map_some]
          apply congrArg some
          rw [Function.comp_apply, Function.comp_apply, toText_append,
            toText_cons, hcondition, ← htext]
          exact whereText_joined _ joined

/-- The text before the condition. -/
def frontText (call : Call) : String :=
  "SELECT " ++ ",".intercalate (selectFields call.fields) ++ ", " ++
    call.minmax.toText ++ "(" ++ call.targetField ++ ") AS max_" ++
      aliasOf call.targetField ++ " FROM " ++ ",".intercalate call.tables ++ " "

/-- The text after the condition. -/
def backText (call : Call) : String :=
  call.order.elim "" (" ORDER BY " ++ ·) ++ " HAVING COUNT(*) > 0"

theorem toText_pieces (call : Call) (condition : Pieces) :
    Pieces.toText (.text (frontText call) :: addOrder condition call.order ++
        [.text " HAVING COUNT(*) > 0"]) =
      frontText call ++ (condition.toText ++ backText call) := by
  have horder : (addOrder condition call.order).toText =
      condition.toText ++ call.order.elim "" (" ORDER BY " ++ ·) := by
    cases call.order with
    | none => exact String.append_empty.symm
    | some order =>
        rw [addOrder, toText_append, toText_cons, toText_nil,
          String.append_empty]
        rfl
  rw [List.cons_append, toText_cons, toText_append, toText_cons, toText_nil,
    horder, backText, String.append_empty, String.append_assoc]
  rfl

theorem text_clauses (call : Call) (groups : List (List Clause))
    (joined : Option (List (String × String))) (values : List String) :
    (Statement.mk (call.clauses groups joined) values).text =
      frontText call ++ (whereText groups joined ++ backText call) := by
  have hwhere : String.join
      ((if groups.isEmpty && joined.isNone then []
          else [SqlClause.condition groups joined]).map SqlClause.toText) =
      whereText groups joined := by
    rw [whereText]
    split
    · exact String.join_nil
    · rw [List.map_singleton, String.join_cons, String.join_nil,
        String.append_empty]
  have horder : String.join
      ((call.order.map SqlClause.orderBy).toList.map SqlClause.toText) =
      call.order.elim "" (" ORDER BY " ++ ·) := by
    cases call.order with
    | none => exact String.join_nil
    | some order =>
        rw [Option.map_some, Option.toList_some, List.map_singleton,
          String.join_cons, String.join_nil, String.append_empty]
        rfl
  rw [Statement.text, Call.clauses, List.map_cons, List.map_cons,
    String.join_cons, String.join_cons, List.map_append, List.map_append,
    String.join_append, String.join_append, hwhere, horder]
  delta frontText backText
  simp [SqlClause.toText, String.append_assoc]

theorem linkop_of_secondGroup {call : Call} {before after : Builder}
    {second : List Clause} (h : call.secondGroup before = some (second, after)) :
    second ≠ [] → call.arguments.linkop = some " AND " := by
  intro hne
  rw [Call.secondGroup] at h
  rw [Call.arguments]
  cases hop : call.op2 with
  | none =>
      rw [hop] at h
      cases h
      exact absurd rfl hne
  | some op => rfl

/-- The text and the values that are sent are those of the clauses. -/
theorem getMinMax_eq_statement (call : Call) :
    (StatementText._getMinMax call.arguments).map
        (fun built => (built.query.toText, built.values)) =
      call.statement.map fun statement => (statement.text, statement.values) := by
  have hfirst := groupCondition_eq .eq call.filterFields1 ⟨0, []⟩
  rw [StatementText._getMinMax, Call.statement]
  rw [show call.arguments.op1 = some (operatorText .eq) from rfl,
    show call.arguments.filterFields1 = call.filterFields1 from rfl, hfirst]
  cases Call.group .eq call.filterFields1 ⟨0, []⟩ with
  | none => rfl
  | some pushed =>
      obtain ⟨first, builder1⟩ := pushed
      simp only [Option.map_some, Option.bind_some]
      rw [linkedCondition_eq]
      cases hsecond : call.secondGroup builder1 with
      | none => rfl
      | some pushed =>
          obtain ⟨second, builder2⟩ := pushed
          have hjoin := toText_addJoin call.arguments.linkop first second
            (linkop_of_secondGroup hsecond) call.joinFields
          simp only [Option.map_some, Option.bind_some, Option.map_map]
          let sent : String → String × List String := fun condition =>
            (frontText call ++ (condition ++ backText call), builder2.values)
          let groups := [first, second].filter (!·.isEmpty)
          calc
            _ = (addJoin (conditionPieces call.arguments.linkop first second)
                  call.joinFields).map (sent ∘ Pieces.toText) := by
                apply congrArg (Option.map · _)
                funext condition
                exact congrArg (·, builder2.values)
                  (toText_pieces call condition)
            _ = (Call.joined call.joinFields).map
                  (sent ∘ whereText groups) := by
                rw [← Option.map_map, hjoin, Option.map_map]
            _ = _ := by
                apply congrArg (Option.map · _)
                funext joined
                exact congrArg (·, builder2.values)
                  (text_clauses call groups joined builder2.values).symm

end Text

end MinMaxQuery

end TwakeKickstart.IdentityServer
