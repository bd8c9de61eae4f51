import TwakeKickstart.Library.Traversal
import TwakeKickstart.IdentityServer.Db.FilterSemantics

namespace TwakeKickstart.IdentityServer

open Library

/-! The texts of the statements that `_get` and `_getMinMax` send, and the
values they bind.  The two backends build them with the same words. -/

namespace StatementText

inductive Piece where
  | text (s : String)
  /-- The template `${key}${op}$${index}`. -/
  | placeholder (column op : String) (index : Nat)

def Piece.toText : Piece → String
  | .text s => s
  | .placeholder column op index => column ++ op ++ "$" ++ toString index

abbrev Pieces := List Piece

namespace Pieces

def toText (pieces : Pieces) : String := String.join (pieces.map Piece.toText)

/-- The column, the operator and the number of each placeholder. -/
def placeholders (pieces : Pieces) : List (String × String × Nat) :=
  pieces.filterMap fun
    | .text _ => none
    | .placeholder column op index => some (column, op, index)

def join (separator : String) : List Pieces → Pieces
  | [] => []
  | [pieces] => pieces
  | pieces :: rest => pieces ++ .text separator :: join separator rest

end Pieces

/-! The conditions. -/

/-- What a filter entry adds to the condition. -/
def pushEntry (op key : String) (value : JsValue) (builder : Builder) :
    Option (Pieces × Builder) :=
  match value with
  | .arr items =>
      (texts? items).map fun texts =>
        let (indices, builder) := builder.pushAll texts
        let alternatives := indices.map fun index =>
          [Piece.placeholder key op index]
        (.text "(" :: Pieces.join " OR " alternatives ++ [.text ")"], builder)
  | value =>
      value.text?.map fun text =>
        let (index, builder) := builder.push text
        ([.placeholder key op index], builder)

def pushEntries (op : String) :
    Pieces → Filter → Builder → Option (Pieces × Builder)
  | localCondition, [], builder => some (localCondition, builder)
  | localCondition, (key, value) :: rest, builder =>
      let separator := if localCondition.toText ≠ "" then [.text " AND "] else []
      (pushEntry op key value builder).bind fun (entry, builder) =>
        pushEntries op (localCondition ++ separator ++ entry) rest builder

-- `none` when a `toString` throws: the promise is then rejected.
def buildCondition (op : String) (filterFields : Filter) (builder : Builder) :
    Option (Pieces × Builder) :=
  (keptKeys filterFields).bind fun kept => pushEntries op [] kept builder

def groupCondition (op : Option String) (filterFields : Option Filter)
    (builder : Builder) : Option (Pieces × Builder) :=
  match op, filterFields with
  | some op, some filter =>
      if 0 < filter.length then buildCondition op filter builder
      else some ([], builder)
  | _, _ => some ([], builder)

/-- A group after the first one is left out without its link. -/
def linkedCondition (op linkop : Option String)
    (filterFields : Option Filter) (builder : Builder) :
    Option (Pieces × Builder) :=
  match linkop with
  | some _ => groupCondition op filterFields builder
  | none => some ([], builder)

/-- `condition += group !== '' ? … + group : ''` -/
def addCondition (condition : Pieces) (linkop : Option String)
    (group : Pieces) : Pieces :=
  if group.toText = "" then condition
  else if condition.toText ≠ "" then
    condition ++ .text (" " ++ linkop.getD "undefined" ++ " ") :: group
  else condition ++ .text "WHERE " :: group

def joinCondition (joinFields : JsObject) : Option Pieces :=
  (keptKeys joinFields).bind fun kept =>
    (kept.mapM fun entry : String × JsValue => entry.2.text?.map fun text =>
      [Piece.text (entry.1 ++ "=" ++ text)]).map (Pieces.join " AND ")

def addJoin (condition : Pieces) (joinFields : Option JsObject) :
    Option Pieces :=
  match joinFields with
  | none => some condition
  | some joinFields =>
      (joinCondition joinFields).map fun joined =>
        condition ++
          .text (if condition.toText ≠ "" then " AND " else "WHERE ") :: joined

def addOrder (condition : Pieces) (order : Option String) : Pieces :=
  match order with
  | none => condition
  | some order => condition ++ [.text (" ORDER BY " ++ order)]

/-! The statements. -/

/-- `name.replace(/\./g, '_')` -/
def aliasOf (name : String) : String :=
  String.ofList (name.toList.map fun c => if c = '.' then '_' else c)

def selectFields (fields : Option (List String)) : List String :=
  match fields.getD [] with
  | [] => ["*"]
  | fields => fields.map fun field =>
      if '.' ∈ field.toList then field ++ " AS " ++ aliasOf field else field

structure Built where
  query : Pieces
  values : List String

/-- The arguments of `_get`. -/
structure GetArguments where
  tables : List String
  fields : Option (List String) := none
  op1 : Option String := none
  filterFields1 : Option Filter := none
  op2 : Option String := none
  linkop1 : Option String := none
  filterFields2 : Option Filter := none
  op3 : Option String := none
  linkop2 : Option String := none
  filterFields3 : Option Filter := none
  joinFields : Option JsObject := none
  order : Option String := none

def _get (arguments : GetArguments) : Option Built :=
  (groupCondition arguments.op1 arguments.filterFields1 ⟨0, []⟩).bind
    fun (condition1, builder) =>
  (linkedCondition arguments.op2 arguments.linkop1 arguments.filterFields2
    builder).bind fun (condition2, builder) =>
  (linkedCondition arguments.op3 arguments.linkop2 arguments.filterFields3
    builder).bind fun (condition3, builder) =>
  let condition :=
    if condition1.toText ≠ "" then .text "WHERE " :: condition1 else []
  let condition := addCondition condition arguments.linkop1 condition2
  let condition := addCondition condition arguments.linkop2 condition3
  (addJoin condition arguments.joinFields).map fun condition =>
    let condition := addOrder condition arguments.order
    let fields := ",".intercalate (selectFields arguments.fields)
    let tables := ",".intercalate arguments.tables
    { query := .text ("SELECT " ++ fields ++ " FROM " ++ tables ++ " ") ::
        condition
      values := builder.values }

inductive MinMax where
  | min
  | max

def MinMax.toText : MinMax → String
  | .min => "MIN"
  | .max => "MAX"

/-- The arguments of `_getMinMax`. -/
structure MinMaxArguments where
  minmax : MinMax
  tables : List String
  targetField : String
  fields : Option (List String) := none
  op1 : Option String := none
  filterFields1 : Option Filter := none
  op2 : Option String := none
  linkop : Option String := none
  filterFields2 : Option Filter := none
  joinFields : Option JsObject := none
  order : Option String := none

def _getMinMax (arguments : MinMaxArguments) : Option Built :=
  (groupCondition arguments.op1 arguments.filterFields1 ⟨0, []⟩).bind
    fun (condition1, builder) =>
  (linkedCondition arguments.op2 arguments.linkop arguments.filterFields2
    builder).bind fun (condition2, builder) =>
  let condition :=
    if condition1.toText ≠ "" then .text "WHERE " :: condition1 else []
  let condition := addCondition condition arguments.linkop condition2
  (addJoin condition arguments.joinFields).map fun condition =>
    let condition := addOrder condition arguments.order
    let fields := ",".intercalate (selectFields arguments.fields)
    let tables := ",".intercalate arguments.tables
    { query := .text ("SELECT " ++ fields ++ ", " ++ arguments.minmax.toText ++
          "(" ++ arguments.targetField ++ ") AS max_" ++
          aliasOf arguments.targetField ++ " FROM " ++ tables ++ " ") ::
        condition ++ [.text " HAVING COUNT(*) > 0"]
      values := builder.values }

/-! What the filters supply. -/

structure Supplied where
  column : String
  op : String
  value : String

def suppliedTexts (op : String) (resolved : List (String × List String)) :
    List Supplied :=
  resolved.flatMap fun (key, texts) => texts.map (Supplied.mk key op)

/-- The values of a filter's entries that are not skipped, each with its
entry. -/
def suppliedBy (op : String) (filter : Filter) : Option (List Supplied) :=
  filter.resolve.map (suppliedTexts op)

def suppliedByGroup (op : Option String) (filterFields : Option Filter) :
    Option (List Supplied) :=
  match op, filterFields with
  | some op, some filter => suppliedBy op filter
  | _, _ => some []

def suppliedByLinked (op linkop : Option String)
    (filterFields : Option Filter) : Option (List Supplied) :=
  match linkop with
  | some _ => suppliedByGroup op filterFields
  | none => some []

/-! What a builder emits: one placeholder for each value, in order. -/

def numbered (index : Nat) (supplied : List Supplied) :
    List (String × String × Nat) :=
  (supplied.zipIdx (index + 1)).map fun entry =>
    (entry.1.column, entry.1.op, entry.2)

structure Emits (before : Builder) (supplied : List Supplied)
    (pieces : Pieces) (after : Builder) : Prop where
  placeholders : pieces.placeholders = numbered before.index supplied
  after_eq : after = ⟨before.index + supplied.length,
    before.values ++ supplied.map Supplied.value⟩

/-- It fails where there is no value, and else emits those supplied. -/
def Builds (result : Option (Pieces × Builder)) (before : Builder) :
    Option (List Supplied) → Prop
  | none => result = none
  | some supplied => ∃ pieces after, result = some (pieces, after) ∧
      Emits before supplied pieces after

theorem placeholders_append (first second : Pieces) :
    Pieces.placeholders (first ++ second) =
      first.placeholders ++ second.placeholders :=
  List.filterMap_append

theorem placeholders_text (s : String) (pieces : Pieces) :
    Pieces.placeholders (.text s :: pieces) = pieces.placeholders := rfl

theorem placeholders_join (separator : String) (items : List Pieces) :
    (Pieces.join separator items).placeholders =
      items.flatMap Pieces.placeholders := by
  induction items using Pieces.join.induct with
  | case1 => rfl
  | case2 pieces => simp [Pieces.join]
  | case3 pieces rest hrest ih =>
      rw [Pieces.join, placeholders_append, placeholders_text, ih,
        List.flatMap_cons]
      exact hrest

theorem numbered_append (index : Nat) (first second : List Supplied) :
    numbered index (first ++ second) =
      numbered index first ++ numbered (index + first.length) second := by
  rw [numbered, List.zipIdx_append, List.map_append, numbered, numbered,
    Nat.add_right_comm]

theorem numbered_texts (index : Nat) (op key : String) (texts : List String) :
    numbered index (texts.map (Supplied.mk key op)) =
      (List.range' (index + 1) texts.length).map fun number =>
        (key, op, number) := by
  induction texts generalizing index with
  | nil => rfl
  | cons text rest ih =>
      rw [List.map_cons, numbered, List.zipIdx_cons, List.map_cons,
        ← numbered, ih, List.length_cons, List.range'_succ, List.map_cons]

theorem placeholders_alternatives (op key : String) (indices : List Nat) :
    Pieces.placeholders (.text "(" :: Pieces.join " OR "
        (indices.map fun index => [Piece.placeholder key op index]) ++
          [.text ")"]) =
      indices.map fun index => (key, op, index) := by
  rw [placeholders_append, placeholders_text, placeholders_join,
    List.flatMap_map, List.map_eq_flatMap]
  exact List.append_nil _

namespace Emits

variable {before middle after : Builder} {first second : List Supplied}
variable {pieces more : Pieces}

theorem nil (builder : Builder) : Emits builder [] [] builder where
  placeholders := rfl
  after_eq := by simp

theorem append (hfirst : Emits before first pieces middle)
    (hsecond : Emits middle second more after) :
    Emits before (first ++ second) (pieces ++ more) after where
  placeholders := by
    rw [placeholders_append, hfirst.placeholders, hsecond.placeholders,
      hfirst.after_eq, numbered_append]
  after_eq := by
    rw [hsecond.after_eq, hfirst.after_eq]
    simp [Nat.add_assoc]

theorem congr (h : Emits before first pieces after)
    (same : more.placeholders = pieces.placeholders) :
    Emits before first more after where
  placeholders := same.trans h.placeholders
  after_eq := h.after_eq

end Emits

theorem pushEntry_builds (op key : String) (value : JsValue)
    (builder : Builder) :
    Builds (pushEntry op key value builder) builder
      ((boundTexts value).map (·.map (Supplied.mk key op))) := by
  by_cases scalar : ∀ items, value ≠ .arr items
  · have hpush : pushEntry op key value builder = value.text?.map fun text =>
        ([.placeholder key op (builder.index + 1)],
          ⟨builder.index + 1, builder.values ++ [text]⟩) := by
      unfold pushEntry
      split
      · exact absurd rfl (scalar _)
      · rfl
    rw [hpush, boundTexts_scalar scalar]
    cases value.text? with
    | none => rfl
    | some text => exact ⟨_, _, rfl, rfl, rfl⟩
  · obtain ⟨items, rfl⟩ := not_forall_not.mp scalar
    rw [pushEntry, boundTexts]
    cases texts? items with
    | none => rfl
    | some texts =>
        refine ⟨_, _, rfl, ?_, ?_⟩
        · rw [pushAll_eq, placeholders_alternatives, numbered_texts]
        · rw [pushAll_eq, List.length_map, List.map_map]
          exact congrArg (Builder.mk _ <| builder.values ++ ·)
            (List.map_id texts).symm

theorem pushEntries_builds (op : String) (kept : Filter) {before : Builder}
    {supplied : List Supplied} {localCondition : Pieces} {builder : Builder}
    (h : Emits before supplied localCondition builder) :
    Builds (pushEntries op localCondition kept builder) before
      ((kept.mapM entryTexts).map fun resolved =>
        supplied ++ suppliedTexts op resolved) := by
  induction kept generalizing supplied localCondition builder with
  | nil =>
      refine ⟨localCondition, builder, rfl, ?_⟩
      have hnone : supplied ++ suppliedTexts op [] = supplied :=
        List.append_nil _
      change Emits before (supplied ++ suppliedTexts op []) localCondition
        builder
      rwa [hnone]
  | cons entry rest ih =>
      obtain ⟨key, value⟩ := entry
      have hentry := pushEntry_builds op key value builder
      have hresolved : ((key, value) :: rest).mapM entryTexts =
          (boundTexts value).bind fun texts =>
            (rest.mapM entryTexts).map ((key, texts) :: ·) := by
        rw [List.mapM_cons, entryTexts]
        cases boundTexts value <;> cases rest.mapM entryTexts <;> rfl
      rw [pushEntries, hresolved]
      cases htexts : boundTexts value with
      | none =>
          rw [htexts] at hentry
          rw [show pushEntry op key value builder = none from hentry]
          rfl
      | some texts =>
          rw [htexts] at hentry
          obtain ⟨pieces, after, hpush, hemits⟩ := hentry
          have hsupplied (resolved : List (String × List String)) :
              supplied ++ suppliedTexts op ((key, texts) :: resolved) =
                supplied ++ texts.map (Supplied.mk key op) ++
                  suppliedTexts op resolved := by
            rw [suppliedTexts, List.flatMap_cons, List.append_assoc]
            rfl
          rw [hpush, Option.bind_some, Option.bind_some, Option.map_map]
          simp only [Function.comp_def, hsupplied]
          apply ih
          refine Emits.append (h.congr ?_) hemits
          -- the separator has no placeholder
          rw [placeholders_append]
          split
          · exact List.append_nil _
          · exact List.append_nil _

theorem keptKeys_cases (filter : Filter) :
    keptKeys filter = some (filter.filter isKept) ∨
      keptKeys filter = none ∧ filter.resolve = none := by
  induction filter with
  | nil => exact .inl rfl
  | cons entry rest ih =>
      obtain ⟨key, value⟩ := entry
      rw [keptKeys, Filter.resolve]
      cases hnullish : value.isNullish with
      | true =>
          rw [List.filter_cons_of_neg (by simp [isKept, hnullish])]
          exact ih
      | false =>
          cases htext : value.text? with
          | none => exact .inr ⟨rfl, rfl⟩
          | some text =>
              by_cases hempty : text = ""
              · rw [List.filter_cons_of_neg 
                  (by simp [isKept, htext, hempty])]
                simpa [hempty] using ih
              · rw [List.filter_cons_of_pos
                  (by simp [isKept, hnullish, htext, hempty])]
                simp only [Bool.false_eq_true, if_false, Option.bind_some,
                  hempty]
                obtain hrest | ⟨hrest, hresolve⟩ := ih
                · exact .inl (by rw [hrest]; rfl)
                · refine .inr ⟨by rw [hrest]; rfl, ?_⟩
                  rw [hresolve]
                  cases boundTexts value <;> rfl

theorem buildCondition_builds (op : String) (filter : Filter)
    (builder : Builder) :
    Builds (buildCondition op filter builder) builder
      (suppliedBy op filter) := by
  rw [buildCondition, suppliedBy]
  obtain hkept | ⟨hkept, hresolve⟩ := keptKeys_cases filter
  · have hentries := pushEntries_builds op (filter.filter isKept)
      (Emits.nil builder)
    simp only [List.nil_append] at hentries
    rw [hkept, resolve_eq_mapM]
    exact hentries
  · rw [hkept, hresolve]
    rfl

theorem groupCondition_builds (op : Option String)
    (filterFields : Option Filter) (builder : Builder) :
    Builds (groupCondition op filterFields builder) builder
      (suppliedByGroup op filterFields) := by
  have hnone : Builds (some ([], builder)) builder (some []) :=
    ⟨[], builder, rfl, Emits.nil builder⟩
  cases op with
  | none => exact hnone
  | some op =>
      cases filterFields with
      | none => exact hnone
      | some filter =>
          cases filter with
          | nil => exact hnone
          | cons entry rest =>
              rw [groupCondition, if_pos (List.length_pos_of_ne_nil (List.cons_ne_nil _ _))]
              exact buildCondition_builds op (entry :: rest) builder

theorem linkedCondition_builds (op linkop : Option String)
    (filterFields : Option Filter) (builder : Builder) :
    Builds (linkedCondition op linkop filterFields builder) builder
      (suppliedByLinked op linkop filterFields) := by
  cases linkop with
  | none => exact ⟨[], builder, rfl, Emits.nil builder⟩
  | some link => exact groupCondition_builds op filterFields builder

/-! The fragments are put together. -/

theorem placeholders_of_toText {pieces : Pieces} (h : pieces.toText = "") :
    pieces.placeholders = [] := by
  induction pieces with
  | nil => rfl
  | cons piece rest ih =>
      rw [Pieces.toText, List.map_cons, String.join_cons,
        String.append_eq_empty_iff] at h
      cases piece with
      | text s => exact ih h.2
      | placeholder column op index =>
          have hempty := congrArg String.toList h.1
          simp [Piece.toText, String.toList_append] at hempty

theorem placeholders_where (condition : Pieces) :
    Pieces.placeholders
        (if condition.toText ≠ "" then .text "WHERE " :: condition else []) =
      condition.placeholders := by
  split
  · rfl
  · rename_i hempty
    exact (placeholders_of_toText (not_not.mp hempty)).symm

theorem placeholders_addCondition (condition : Pieces)
    (linkop : Option String) (group : Pieces) :
    (addCondition condition linkop group).placeholders =
      condition.placeholders ++ group.placeholders := by
  rw [addCondition]
  split
  · rename_i hempty
    rw [placeholders_of_toText hempty, List.append_nil]
  · split
    · rw [placeholders_append, placeholders_text]
    · rw [placeholders_append, placeholders_text]

theorem placeholders_joinCondition {joinFields : JsObject} {joined : Pieces}
    (h : joinCondition joinFields = some joined) :
    joined.placeholders = [] := by
  obtain ⟨kept, hkept, hjoined⟩ := Option.bind_eq_some_iff.mp h
  obtain ⟨items, hitems, rfl⟩ := Option.map_eq_some_iff.mp hjoined
  rw [placeholders_join, List.flatMap_eq_nil_iff]
  have hall := mapM_eq_some_iff.mp hitems
  clear hitems hjoined hkept h
  induction hall with
  | nil => exact nofun
  | cons hitem _ ih =>
      rw [List.forall_mem_cons]
      obtain ⟨text, _, rfl⟩ := Option.map_eq_some_iff.mp hitem
      exact ⟨rfl, ih⟩

theorem placeholders_addOrder (condition : Pieces) (order : Option String) :
    (addOrder condition order).placeholders = condition.placeholders := by
  cases order with
  | none => rfl
  | some order =>
      rw [addOrder, placeholders_append]
      exact List.append_nil _

/-! The whole statements. -/

def joinable (joinFields : Option JsObject) : Option Unit :=
  match joinFields with
  | none => some ()
  | some joinFields => (joinCondition joinFields).map fun _ => ()

/-- The values for `_get`, group after group; `none` when a `toString`
throws. -/
def suppliedToGet (arguments : GetArguments) : Option (List Supplied) :=
  (suppliedByGroup arguments.op1 arguments.filterFields1).bind fun first =>
  (suppliedByLinked arguments.op2 arguments.linkop1
    arguments.filterFields2).bind fun second =>
  (suppliedByLinked arguments.op3 arguments.linkop2
    arguments.filterFields3).bind fun third =>
  (joinable arguments.joinFields).map fun _ => first ++ second ++ third

def suppliedToGetMinMax (arguments : MinMaxArguments) :
    Option (List Supplied) :=
  (suppliedByGroup arguments.op1 arguments.filterFields1).bind fun first =>
  (suppliedByLinked arguments.op2 arguments.linkop
    arguments.filterFields2).bind fun second =>
  (joinable arguments.joinFields).map fun _ => first ++ second

/-- The placeholders are `$1` to `$n` for the `n` values that are bound, and
each stands beside the column and the operator that its value came with. -/
structure Aligned (built : Built) (supplied : List Supplied) : Prop where
  numbers : built.query.placeholders.map (·.2.2) =
    List.range' 1 built.values.length
  beside : built.query.placeholders.map (fun place => (place.1, place.2.1)) =
    supplied.map fun entry => (entry.column, entry.op)
  values : built.values = supplied.map Supplied.value

/-- A statement is built wherever the values have texts, and is aligned. -/
def Delivers (result : Option Built) : Option (List Supplied) → Prop
  | none => result = none
  | some supplied => ∃ built, result = some built ∧ Aligned built supplied

theorem Builds.delivers {result : Option (Pieces × Builder)}
    {before : Builder} {supplied : Option (List Supplied)}
    {next : Pieces × Builder → Option Built}
    {rest : List Supplied → Option (List Supplied)}
    (h : Builds result before supplied)
    (following : ∀ values pieces after, Emits before values pieces after →
      Delivers (next (pieces, after)) (rest values)) :
    Delivers (result.bind next) (supplied.bind rest) := by
  cases supplied with
  | none =>
      rw [show result = none from h]
      rfl
  | some values =>
      obtain ⟨pieces, after, rfl, hemits⟩ := h
      exact following values pieces after hemits

theorem Emits.aligned {supplied : List Supplied} {pieces query : Pieces}
    {builder : Builder} (h : Emits ⟨0, []⟩ supplied pieces builder)
    (same : query.placeholders = pieces.placeholders) :
    Aligned ⟨query, builder.values⟩ supplied where
  numbers := by
    rw [same, h.placeholders, h.after_eq, numbered, List.map_map]
    exact (List.zipIdx_map_snd 1 supplied).trans (by simp)
  beside := by
    have hfst := List.zipIdx_map_fst 1 supplied
    rw [same, h.placeholders, numbered, List.map_map]
    conv_rhs => rw [← hfst, List.map_map]
    rfl
  values := by
    rw [h.after_eq]
    rfl

theorem finish_delivers {supplied : List Supplied} {condition pieces : Pieces}
    {builder : Builder} {joinFields : Option JsObject}
    {query : Pieces → Pieces} (h : Emits ⟨0, []⟩ supplied pieces builder)
    (same : condition.placeholders = pieces.placeholders)
    (plain : ∀ joined, (query joined).placeholders = joined.placeholders) :
    Delivers
      ((addJoin condition joinFields).map fun joined =>
        ⟨query joined, builder.values⟩)
      ((joinable joinFields).map fun _ => supplied) := by
  cases joinFields with
  | none => exact ⟨_, rfl, h.aligned ((plain condition).trans same)⟩
  | some joinFields =>
      rw [addJoin, joinable]
      cases hjoined : joinCondition joinFields with
      | none => rfl
      | some more =>
          refine ⟨_, rfl, h.aligned ?_⟩
          rw [plain, placeholders_append, placeholders_text,
            placeholders_joinCondition hjoined, List.append_nil, same]

theorem get_delivers (arguments : GetArguments) :
    Delivers (_get arguments) (suppliedToGet arguments) := by
  refine (groupCondition_builds _ _ _).delivers
    fun first condition1 builder1 hemits1 => ?_
  refine (linkedCondition_builds _ _ _ builder1).delivers
    fun second condition2 builder2 hemits2 => ?_
  refine (linkedCondition_builds _ _ _ builder2).delivers
    fun third condition3 builder3 hemits3 => ?_
  refine finish_delivers ((hemits1.append hemits2).append hemits3) ?_
    fun joined => ?_
  · rw [placeholders_addCondition, placeholders_addCondition,
      placeholders_where, placeholders_append, placeholders_append]
  · rw [placeholders_text, placeholders_addOrder]

theorem getMinMax_delivers (arguments : MinMaxArguments) :
    Delivers (_getMinMax arguments) (suppliedToGetMinMax arguments) := by
  refine (groupCondition_builds _ _ _).delivers
    fun first condition1 builder1 hemits1 => ?_
  refine (linkedCondition_builds _ _ _ builder1).delivers
    fun second condition2 builder2 hemits2 => ?_
  refine finish_delivers (hemits1.append hemits2) ?_ fun joined => ?_
  · rw [placeholders_addCondition, placeholders_where, placeholders_append]
  · rw [placeholders_append, placeholders_text, placeholders_addOrder]
    exact List.append_nil _

/-- The values of any filters are bound to the placeholders beside their own
columns and operators. -/
theorem placeholders_aligned :
    (∀ arguments, Delivers (_get arguments) (suppliedToGet arguments)) ∧
      ∀ arguments, Delivers (_getMinMax arguments)
        (suppliedToGetMinMax arguments) :=
  ⟨get_delivers, getMinMax_delivers⟩

end StatementText

end TwakeKickstart.IdentityServer
