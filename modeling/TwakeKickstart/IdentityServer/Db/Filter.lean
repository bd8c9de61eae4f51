import TwakeKickstart.Library.Js
import TwakeKickstart.Library.Sql

namespace TwakeKickstart.IdentityServer

open Library

/-! The statement builder `_get`, which the SQLite and the PostgreSQL backends
share, and what the statement it builds selects. -/

abbrev Filter := List (String × JsValue)

structure Builder where
  index : Nat
  values : List String

namespace Builder

def push (builder : Builder) (value : String) : Nat × Builder :=
  (builder.index + 1, ⟨builder.index + 1, builder.values ++ [value]⟩)

def pushAll (builder : Builder) : List String → List Nat × Builder
  | [] => ([], builder)
  | value :: rest =>
      let (index, builder) := builder.push value
      let (indices, builder) := builder.pushAll rest
      (index :: indices, builder)

end Builder

-- `val.toString()` for every item of an array.
def texts? : List JsValue → Option (List String)
  | [] => some []
  | item :: rest =>
      item.text?.bind fun head => (texts? rest).map (head :: ·)

def keptKeys : Filter → Option Filter
  | [] => some []
  | (key, value) :: rest =>
      if value.isNullish then keptKeys rest
      else
        value.text?.bind fun text =>
          (keptKeys rest).map fun kept =>
            -- `[].toString()` is the empty text
            if text = "" then kept else (key, value) :: kept

def pushClause (op : Operator) (key : String) (value : JsValue)
    (builder : Builder) : Option (Clause × Builder) :=
  match value with
  | .arr items =>
      (texts? items).map fun texts =>
        let (indices, builder) := builder.pushAll texts
        (.anyOf key op indices, builder)
  | value =>
      value.text?.map fun text =>
        let (index, builder) := builder.push text
        (.compare key op index, builder)

def pushClauses (op : Operator) : Filter → Builder →
    Option (List Clause × Builder)
  | [], builder => some ([], builder)
  | (key, value) :: rest, builder =>
      (pushClause op key value builder).bind fun (clause, builder) =>
        (pushClauses op rest builder).map fun (clauses, builder) =>
          (clause :: clauses, builder)

-- `none` when a `toString` throws: the promise of `_get` is then rejected.
def buildCondition (op : Operator) (filter : Filter) (builder : Builder) :
    Option (List Clause × Builder) :=
  (keptKeys filter).bind fun kept => pushClauses op kept builder

inductive Link where
  | and
  | or

def addGroup (link : Link) (condition : List (List Clause))
    (clauses : List Clause) : List (List Clause) :=
  if clauses.isEmpty then condition
  else
    match link, condition with
    | _, [] => [clauses]
    | .or, condition => condition ++ [clauses]
    | .and, condition =>
        condition.dropLast ++ [condition.getLastD [] ++ clauses]

def buildGroups : List (Link × Operator × Filter) →
    List (List Clause) → Builder → Option (List (List Clause) × Builder)
  | [], condition, builder => some (condition, builder)
  | (link, op, filter) :: rest, condition, builder =>
      (buildCondition op filter builder).bind fun (clauses, builder) =>
        buildGroups rest (addGroup link condition clauses) builder

def _get (fields : List String) (groups : List (Link × Operator × Filter)) :
    Option Statement :=
  (buildGroups groups [] ⟨0, []⟩).map fun (condition, builder) =>
    { fields, condition, values := builder.values }

def getStatement (fields : List String) (filter : Filter) : Option Statement :=
  _get fields [(.and, .eq, filter)]

/-! What a filter asks for: for each key that is kept, the texts one of which
the column has to equal. -/

def boundTexts : JsValue → Option (List String)
  | .arr items => texts? items
  | value => value.text?.map ([·])

def Filter.resolve : Filter → Option (List (String × List String))
  | [] => some []
  | (key, value) :: rest =>
      if value.isNullish then Filter.resolve rest
      else
        value.text?.bind fun text =>
          if text = "" then Filter.resolve rest
          else
            (boundTexts value).bind fun texts =>
              (Filter.resolve rest).map ((key, texts) :: ·)

def selectsAll (op : Operator) (resolved : List (String × List String))
    (cells : String → Cell) : Bool :=
  resolved.all fun (key, texts) => texts.any (op.test (cells key))

theorem pushAll_eq (builder : Builder) (texts : List String) :
    builder.pushAll texts =
      (List.range' (builder.index + 1) texts.length,
        ⟨builder.index + texts.length, builder.values ++ texts⟩) := by
  induction texts generalizing builder with
  | nil => simp [Builder.pushAll]
  | cons text rest ih =>
      simp only [Builder.pushAll, Builder.push, ih, List.length_cons,
        List.range'_succ, List.append_assoc, List.singleton_append,
        Prod.mk.injEq, Builder.mk.injEq, true_and, and_true]
      omega

theorem parameterValue_append (before texts after : List String) (k : Nat)
    (h : k < texts.length) :
    parameterValue (before ++ texts ++ after) (before.length + 1 + k) =
      some texts[k] := by
  rw [show before.length + 1 + k = before.length + k + 1 by omega]
  simp only [parameterValue]
  rw [List.append_assoc, List.getElem?_append_right (by omega),
    List.getElem?_append_left (by omega)]
  rw [show before.length + k - before.length = k by omega]
  exact List.getElem?_eq_getElem h

theorem parameterValue_single (before : List String) (text : String)
    (after : List String) :
    parameterValue (before ++ [text] ++ after) (before.length + 1) =
      some text :=
  parameterValue_append before [text] after 0 (by simp)

theorem parameterValue_range (before texts after : List String) :
    (List.range' (before.length + 1) texts.length).filterMap
        (parameterValue (before ++ texts ++ after)) = texts := by
  induction texts generalizing before with
  | nil => rfl
  | cons text rest ih =>
      have hrest := ih (before ++ [text])
      rw [List.length_append, List.length_singleton] at hrest
      have hvalues : before ++ text :: rest ++ after =
          before ++ [text] ++ rest ++ after := by
        simp
      rw [List.length_cons, List.range'_succ, List.filterMap_cons,
        hvalues, hrest, List.append_assoc (before ++ [text]),
        parameterValue_single]

theorem boundTexts_scalar {value : JsValue}
    (scalar : ∀ items, value ≠ .arr items) :
    boundTexts value = value.text?.map ([·]) := by
  unfold boundTexts
  split
  · exact absurd rfl (scalar _)
  · rfl

theorem pushClause_scalar {op : Operator} {key : String} {value : JsValue}
    (builder : Builder) (scalar : ∀ items, value ≠ .arr items) :
    pushClause op key value builder = value.text?.map fun text =>
      (.compare key op (builder.index + 1),
        ⟨builder.index + 1, builder.values ++ [text]⟩) := by
  unfold pushClause
  split
  · exact absurd rfl (scalar _)
  · rfl

/-- One clause stands for the texts its value binds, whatever parameters are
appended later. -/
theorem pushClause_spec (op : Operator) (key : String) (value : JsValue)
    (builder : Builder) (aligned : builder.index = builder.values.length) :
    (boundTexts value = none ∧ pushClause op key value builder = none) ∨
    ∃ texts clause, boundTexts value = some texts ∧
      pushClause op key value builder =
        some (clause, ⟨builder.index + texts.length,
          builder.values ++ texts⟩) ∧
      clause.column = key ∧ clause.operator = op ∧
      ∀ after, clause.texts (builder.values ++ texts ++ after) = texts := by
  by_cases scalar : ∀ items, value ≠ .arr items
  · rw [boundTexts_scalar scalar, pushClause_scalar builder scalar]
    cases htext : value.text? with
    | none => exact .inl ⟨rfl, rfl⟩
    | some text =>
        refine .inr ⟨[text], .compare key op (builder.index + 1), rfl, rfl,
          rfl, rfl, ?_⟩
        intro after
        rw [Clause.texts, aligned, parameterValue_single]
        rfl
  · obtain ⟨items, rfl⟩ := not_forall_not.mp scalar
    cases hitems : texts? items with
    | none => exact .inl ⟨hitems, by simp [pushClause, hitems]⟩
    | some texts =>
        refine .inr ⟨texts, .anyOf key op
          (List.range' (builder.values.length + 1) texts.length),
          hitems, ?_, rfl, rfl, ?_⟩
        · simp [pushClause, hitems, pushAll_eq, aligned]
        · exact parameterValue_range builder.values texts

theorem buildCondition_cons {op : Operator} {key : String} {value : JsValue}
    {rest : Filter} (builder : Builder) {text : String}
    (notNullish : value.isNullish = false) (htext : value.text? = some text)
    (kept : text ≠ "") :
    buildCondition op ((key, value) :: rest) builder =
      (pushClause op key value builder).bind fun (clause, builder) =>
        (buildCondition op rest builder).map fun (clauses, builder) =>
          (clause :: clauses, builder) := by
  cases hrest : keptKeys rest with
  | none => simp [buildCondition, keptKeys, notNullish, htext, hrest]
  | some keys =>
      simp [buildCondition, keptKeys, notNullish, htext, kept, hrest,
        pushClauses]

/-- What a list of clauses asks for, with these parameters. -/
def asked (values : List String) (clauses : List Clause) :
    List (String × List String) :=
  clauses.map fun clause => (clause.column, clause.texts values)

theorem buildCondition_spec (op : Operator) (filter : Filter)
    (builder : Builder) (aligned : builder.index = builder.values.length) :
    (filter.resolve = none ∧ buildCondition op filter builder = none) ∨
    ∃ resolved clauses added, filter.resolve = some resolved ∧
      buildCondition op filter builder =
        some (clauses, ⟨builder.index + added.length,
          builder.values ++ added⟩) ∧
      (∀ clause ∈ clauses, clause.operator = op) ∧
      ∀ after, asked (builder.values ++ added ++ after) clauses =
        resolved := by
  induction filter generalizing builder with
  | nil =>
      exact .inr ⟨[], [], [], rfl, by
        simp [buildCondition, keptKeys, pushClauses],
        (fun clause hmem => by cases hmem), (fun _ => rfl)⟩
  | cons entry rest ih =>
      obtain ⟨key, value⟩ := entry
      by_cases hnullish : value.isNullish = true
      · simpa [Filter.resolve, buildCondition, keptKeys, hnullish] using
          ih builder aligned
      · cases htext : value.text? with
        | none =>
            exact .inl ⟨by simp [Filter.resolve, hnullish, htext], by
              simp [buildCondition, keptKeys, hnullish, htext]⟩
        | some text =>
            by_cases hempty : text = ""
            · simpa [Filter.resolve, buildCondition, keptKeys, hnullish,
                htext, hempty, Function.comp_def] using ih builder aligned
            · have hstep := @buildCondition_cons op key value rest builder text
                (by simpa using hnullish) htext hempty
              rcases pushClause_spec op key value builder aligned with
                ⟨hbound, hpush⟩ |
                ⟨texts, clause, hbound, hpush, hcolumn, hoperator, htexts⟩
              · refine .inl ⟨?_, ?_⟩
                · simp [Filter.resolve, hnullish, htext, hempty, hbound]
                · simp [hstep, hpush]
              · rcases ih ⟨builder.index + texts.length,
                    builder.values ++ texts⟩ (by simp [aligned]) with
                  ⟨hresolve, hbuild⟩ |
                  ⟨resolved, clauses, added, hresolve, hbuild, hoperators,
                    hasked⟩
                · refine .inl ⟨?_, ?_⟩
                  · simp [Filter.resolve, hnullish, htext, hbound, hresolve]
                  · simp [hstep, hpush, hbuild]
                · refine .inr ⟨(key, texts) :: resolved, clause :: clauses,
                    texts ++ added, ?_, ?_, ?_, ?_⟩
                  · simp [Filter.resolve, hnullish, htext, hempty, hbound,
                      hresolve]
                  · simp [hstep, hpush, hbuild, Nat.add_assoc]
                  · intro other hother
                    rcases List.mem_cons.mp hother with rfl | hrest
                    · exact hoperator
                    · exact hoperators other hrest
                  · intro after
                    have hhead := htexts (added ++ after)
                    have htail := hasked after
                    simp only [List.append_assoc] at hhead htail ⊢
                    simp only [asked, List.map_cons] at htail ⊢
                    rw [hcolumn, hhead, htail]

theorem all_holds_asked {op : Operator} {clauses : List Clause}
    (operators : ∀ clause ∈ clauses, clause.operator = op)
    (cells : String → Cell) (values : List String) :
    clauses.all (Clause.holds cells values) =
      selectsAll op (asked values clauses) cells := by
  induction clauses with
  | nil => rfl
  | cons clause rest ih =>
      have hrest := ih fun other hother =>
        operators other (List.mem_cons_of_mem _ hother)
      rw [List.all_cons, hrest, Clause.holds_eq_any,
        operators clause List.mem_cons_self]
      rfl

/-- The statement for one filter has one group, of the clauses that ask for
what the filter resolves to; both fail on the same filters. -/
theorem get_clauses (op : Operator) (fields : List String)
    (filter : Filter) :
    (filter.resolve = none ∧ _get fields [(.and, op, filter)] = none) ∨
    ∃ resolved clauses values, filter.resolve = some resolved ∧
      _get fields [(.and, op, filter)] = some
        { fields, condition := addGroup .and [] clauses, values } ∧
      (∀ clause ∈ clauses, clause.operator = op) ∧
      asked values clauses = resolved := by
  rcases buildCondition_spec op filter ⟨0, []⟩ rfl with
    ⟨hresolve, hbuild⟩ |
    ⟨resolved, clauses, added, hresolve, hbuild, hoperators, hasked⟩
  · exact .inl ⟨hresolve, by simp [_get, buildGroups, hbuild]⟩
  · refine .inr ⟨resolved, clauses, [] ++ added, hresolve, ?_, hoperators, ?_⟩
    · simp only [_get, buildGroups, hbuild, Option.bind_some, Option.map_some]
    · simpa using hasked []

/-- The statement for one filter selects what the filter resolves to; both
fail on the same filters. -/
theorem get_spec (op : Operator) (fields : List String) (filter : Filter) :
    (filter.resolve = none ∧ _get fields [(.and, op, filter)] = none) ∨
    ∃ resolved statement, filter.resolve = some resolved ∧
      _get fields [(.and, op, filter)] = some statement ∧
      ∀ cells, statement.selects cells = selectsAll op resolved cells := by
  rcases get_clauses op fields filter with
    hfails | ⟨resolved, clauses, values, hresolve, hget, hoperators, hasked⟩
  · exact .inl hfails
  · refine .inr ⟨resolved, _, hresolve, hget, ?_⟩
    intro cells
    rw [← hasked, ← all_holds_asked hoperators cells values]
    cases clauses with
    | nil => rfl
    | cons clause clauses => simp [Statement.selects, addGroup]

theorem getStatement_spec (fields : List String) (filter : Filter) :
    (filter.resolve = none ∧ getStatement fields filter = none) ∨
    ∃ resolved statement, filter.resolve = some resolved ∧
      getStatement fields filter = some statement ∧
      ∀ cells, statement.selects cells = selectsAll .eq resolved cells :=
  get_spec .eq fields filter

@[simp] theorem resolve_nil : Filter.resolve [] = some [] := rfl

@[simp] theorem resolve_cons_str (key text : String) (rest : Filter) :
    Filter.resolve ((key, .str text) :: rest) =
      if text = "" then Filter.resolve rest
      else (Filter.resolve rest).map ((key, [text]) :: ·) := by
  simp [Filter.resolve, JsValue.isNullish, boundTexts]

theorem resolve_single {key : String} {value : JsValue}
    (notNullish : value.isNullish = false) :
    Filter.resolve [(key, value)] = value.text?.bind fun text =>
      if text = "" then some []
      else (boundTexts value).map fun texts => [(key, texts)] := by
  simp only [Filter.resolve, notNullish, Bool.false_eq_true, if_false,
    Option.map_some]
  cases value.text? with
  | none => rfl
  | some text =>
      simp only [Option.bind_some]
      split
      · rfl
      · cases boundTexts value <;> rfl

@[simp] theorem texts?_str (values : List String) :
    texts? (values.map .str) = some values := by
  induction values with
  | nil => rfl
  | cons head tail ih => simp [texts?, ih]

theorem itemTexts?_of_texts? {items : List JsValue} {texts : List String}
    (h : texts? items = some texts) : JsValue.itemTexts? items = some texts := by
  induction items generalizing texts with
  | nil => simpa [texts?, JsValue.itemTexts?] using h
  | cons item rest ih =>
      simp only [texts?, Option.bind_eq_some_iff, Option.map_eq_some_iff] at h
      obtain ⟨head, hhead, tail, htail, rfl⟩ := h
      have hrest := ih htail
      cases item with
      | undefined => simp [JsValue.text?] at hhead
      | null => simp [JsValue.text?] at hhead
      | bool b => simp [JsValue.itemTexts?, hhead, hrest]
      | num n => simp [JsValue.itemTexts?, hhead, hrest]
      | str s => simp [JsValue.itemTexts?, hhead, hrest]
      | arr nested => simp [JsValue.itemTexts?, hhead, hrest]
      | obj fields => simp [JsValue.itemTexts?, hhead, hrest]

theorem text?_of_boundTexts {value : JsValue} {texts : List String}
    (h : boundTexts value = some texts) : ∃ text, value.text? = some text := by
  unfold boundTexts at h
  split at h
  · exact ⟨_, by rw [JsValue.text?, itemTexts?_of_texts? h]; rfl⟩
  · obtain ⟨text, htext, _⟩ := Option.map_eq_some_iff.mp h
    exact ⟨text, htext⟩

end TwakeKickstart.IdentityServer
