import TwakeKickstart.IdentityServer.UserDb
import TwakeKickstart.IdentityServer.Db.BackendAgreement

namespace TwakeKickstart.IdentityServer

open Library

/-! The method `match`, and what it is to find. -/

/-- The arguments of a call, but for the table. -/
structure Search where
  fields : List String
  searchFields : List String
  value : SqlValue
  order : Option String

/-- The engines, with the case rule that `LIKE` has in one of them. -/
def Engines.withCaseRule (engines : Engines) (engine : SupportedDatabases) :
    Engines :=
  { engines with fold := engine.likeRules.fold }

namespace Search

def call (search : Search) : BackendCall :=
  .matchLike search.fields search.searchFields search.value search.order

section Calls

variable (engines : Engines) (engine : SupportedDatabases)
variable {columns : Columns} (search : Search)

def run (rows : List (StoredRow columns)) :
    Option (List (StoredRow columns)) :=
  search.call.run (engines.withCaseRule engine) engine rows

/-- One of the columns has a text with the given test. -/
def anyText (test : List Char → Bool) (row : StoredRow columns) : Bool :=
  search.searchFields.any fun field =>
    (cellText (row.cells field)).any fun text => test text.toList

/-- The rows that a search for a literal text is to return. -/
def containing (row : StoredRow columns) : Bool :=
  search.anyText (fun text =>
    engine.likeRules.contains text search.value.toText.toList) row

/-- Whatever the table holds, texts with a NUL character included or not. -/
def MatchesLiterally (columns : Columns) (nuls : Bool) : Prop :=
  ∀ rows : List (StoredRow columns),
    (nuls = false → ∀ row ∈ rows, row.Whole) →
    search.run engines engine rows =
      some (rows.filter (search.containing engine))

/-- A column on which the engine has `LIKE`. -/
def Likeable (columns : Columns) (field : String) : Prop :=
  ∃ type, columns.lookup field = some type ∧
    match engine, type with
    | .pg, .integer => False
    | _, _ => True

/-- PostgreSQL takes no text with a NUL. -/
def Readable (text : String) : Prop :=
  engine = .pg → nul ∉ text.toList

/-- The columns are those of the table, and the value has no character that a
pattern does not take for itself, and no NUL, which ends a text on SQLite.
PostgreSQL's backend searches for no number 0. -/
structure Literal (columns : Columns) : Prop where
  selectable : search.call.selectable engines columns = true
  named : search.searchFields ≠ []
  likeable : ∀ field ∈ search.searchFields, Likeable engine columns field
  whole : nul ∉ search.value.toText.toList
  plain : ∀ c ∈ search.value.toText.toList, engine.likeRules.isMeta c = false
  searched : engine = .pg → search.value ≠ .number 0

end Calls

/-! How the engines read the patterns. -/

section Readings

variable {engines : Engines} {engine : SupportedDatabases}
variable {columns : Columns} {search : Search}

theorem separates_likeRules (engine : SupportedDatabases) :
    engine.likeRules.Separates := by
  intro c d hmeta hfold
  cases engine with
  | pg => exact hfold
  | sqlite =>
      have hc : c = '%' ∨ c = '_' := by
        simpa [SupportedDatabases.likeRules, LikeRules.isMeta] using hmeta
      change c.toLower = d.toLower at hfold
      cases hc with
      | inl h =>
          subst h
          exact eq_of_toLower (by decide) hfold
      | inr h =>
          subst h
          exact eq_of_toLower (by decide) hfold

theorem reading_like {field pattern : String}
    (likeable : Likeable engine columns field)
    (readable : Readable engine pattern) :
    (Condition.like field pattern).reading (engines.withCaseRule engine)
        engine columns =
      some (.pattern engine.likeRules.escapes engine.likeRules.terminated
        pattern) := by
  obtain ⟨type, htype, hlike⟩ := likeable
  unfold Condition.reading
  rw [Condition.field, htype, Option.bind_some]
  cases engine with
  | sqlite => rfl
  | pg =>
      cases type with
      | integer => exact hlike.elim
      | text =>
          have hnul : pattern.toList.contains nul = false := by
            simpa using readable rfl
          dsimp only [Engines.likes, Engines.pgText]
          rw [hnul]
          rfl

theorem of_reading_like {field pattern : String}
    (h : ((Condition.like field pattern).reading (engines.withCaseRule engine)
      engine columns).isSome = true) :
    Likeable engine columns field ∧ Readable engine pattern := by
  unfold Condition.reading at h
  cases htype : columns.lookup field with
  | none =>
      rw [Condition.field, htype] at h
      cases h
  | some type =>
      rw [Condition.field, htype, Option.bind_some] at h
      cases engine with
      | sqlite =>
          refine ⟨⟨type, htype, trivial⟩, ?_⟩
          intro hpg
          cases hpg
      | pg =>
          cases type with
          | integer => cases h
          | text =>
              refine ⟨⟨.text, htype, trivial⟩, ?_⟩
              simp only [Engines.likes, Engines.pgText] at h
              intro _ hnul
              rw [List.contains_iff_mem.mpr hnul] at h
              cases h

theorem holds_like {field pattern : String}
    (likeable : Likeable engine columns field)
    (readable : Readable engine pattern) (row : StoredRow columns) :
    (Condition.like field pattern).holds (engines.withCaseRule engine)
        engine row =
      (cellText (row.cells field)).any fun text =>
        engine.likeRules.like pattern.toList text.toList := by
  unfold Condition.holds
  rw [reading_like likeable readable, Option.any_some]
  change (engines.withCaseRule engine).compare .eq (row.cells field) _ = _
  cases row.cells field with
  | null => rfl
  | text s => rfl
  | int n => rfl

theorem matchLike_eq (searchFields : List String) (value : SqlValue) :
    (backend engine).matchLike searchFields value =
      whereAny (searchFields.map fun field =>
        .like field (BackendCall.pattern value engine)) := by
  cases engine with
  | sqlite => rfl
  | pg => rfl

theorem pattern_of_pg {value : SqlValue} :
    (BackendCall.pattern value .pg).toList =
      if value.falsy then ['%'] else
        '%' :: (value.toText.toList ++ ['%']) := by
  unfold BackendCall.pattern
  dsimp only
  split
  · rfl
  · rw [String.toList_append, String.toList_append]
    rfl

theorem pattern_of_sqlite {value : SqlValue} :
    (BackendCall.pattern value .sqlite).toList =
      '%' :: (value.toText.toList ++ ['%']) := by
  unfold BackendCall.pattern
  dsimp only
  rw [String.toList_append, String.toList_append]
  rfl

theorem readable_pattern {value : SqlValue} :
    Readable engine (BackendCall.pattern value engine) ↔
      Readable engine value.toText := by
  cases engine with
  | sqlite => exact iff_of_true nofun nofun
  | pg =>
      unfold Readable
      rw [pattern_of_pg]
      cases hfalsy : value.falsy with
      | false =>
          rw [if_neg Bool.false_ne_true]
          simp [(by decide : nul ≠ '%')]
      | true =>
          rw [if_pos rfl]
          cases SqlValue.eq_of_falsy hfalsy with
          | inl h =>
              subst h
              decide
          | inr h =>
              subst h
              decide

/-- What the statement of a search selects. -/
def patternOf (engine : SupportedDatabases) (search : Search) : List Char :=
  (BackendCall.pattern search.value engine).toList

theorem run_eq (rows : List (StoredRow columns))
    (selectable : search.call.selectable engines columns = true)
    (named : search.searchFields ≠ []) :
    search.run engines engine rows =
      Query.run (engines.withCaseRule engine) engine
        [search.searchFields.map fun field =>
          .like field (BackendCall.pattern search.value engine)] rows := by
  have hsome : whereAny (search.searchFields.map fun field =>
      Condition.like field (BackendCall.pattern search.value engine)) =
      some [search.searchFields.map fun field =>
        .like field (BackendCall.pattern search.value engine)] := by
    unfold whereAny
    rw [if_neg]
    rw [List.isEmpty_iff, List.map_eq_nil_iff]
    exact named
  change (if search.call.selectable engines columns then _ else _) = _
  rw [if_pos selectable, matchLike_eq, hsome]
  rfl

theorem run_of_accepted (rows : List (StoredRow columns))
    (selectable : search.call.selectable engines columns = true)
    (named : search.searchFields ≠ [])
    (likeable : ∀ field ∈ search.searchFields, Likeable engine columns field)
    (readable : Readable engine search.value.toText) :
    search.run engines engine rows =
      some (rows.filter (search.anyText
        (engine.likeRules.like (search.patternOf engine)))) := by
  have hreadable := readable_pattern.mpr readable
  have haccepted : Query.accepted (engines.withCaseRule engine) engine columns
      [search.searchFields.map fun field =>
        .like field (BackendCall.pattern search.value engine)] = true := by
    rw [Query.accepted_iff]
    intro group hgroup condition hcondition
    rw [List.mem_singleton] at hgroup
    subst hgroup
    obtain ⟨field, hfield, rfl⟩ := List.mem_map.mp hcondition
    rw [reading_like (likeable field hfield) hreadable]
    rfl
  have hselects : ∀ row : StoredRow columns,
      Query.selects (engines.withCaseRule engine) engine
        [search.searchFields.map fun field =>
          .like field (BackendCall.pattern search.value engine)] row =
        search.anyText
          (engine.likeRules.like (search.patternOf engine)) row := by
    intro row
    simp only [Query.selects, List.all_cons, List.all_nil, Bool.and_true,
      List.any_map, anyText]
    rw [Bool.eq_iff_iff, List.any_eq_true, List.any_eq_true]
    apply exists_congr
    intro field
    apply and_congr_right
    intro hfield
    exact Bool.eq_iff_iff.mp
      (holds_like (likeable field hfield) hreadable row)
  rw [run_eq rows selectable named, Query.run, if_pos haccepted,
    Option.some.injEq]
  apply List.filter_congr
  intro row _
  exact hselects row

theorem of_run {rows found : List (StoredRow columns)}
    (h : search.run engines engine rows = some found) :
    search.call.selectable engines columns = true ∧
      search.searchFields ≠ [] ∧
      (∀ field ∈ search.searchFields, Likeable engine columns field) ∧
      Readable engine search.value.toText := by
  have hselectable : search.call.selectable engines columns = true := by
    change (if search.call.selectable engines columns then _ else none) = _
      at h
    split at h
    · assumption
    · cases h
  have hnamed : search.searchFields ≠ [] := by
    intro hempty
    change (if search.call.selectable engines columns then _ else none) = _
      at h
    rw [if_pos hselectable, matchLike_eq, hempty] at h
    cases h
  have haccepted : Query.accepted (engines.withCaseRule engine) engine columns
      [search.searchFields.map fun field =>
        .like field (BackendCall.pattern search.value engine)] = true := by
    rw [run_eq rows hselectable hnamed, Query.run] at h
    split at h
    · assumption
    · cases h
  have hreading : ∀ field ∈ search.searchFields,
      Likeable engine columns field ∧
        Readable engine (BackendCall.pattern search.value engine) := by
    intro field hfield
    exact of_reading_like (Query.accepted_iff.mp haccepted _
      (List.mem_singleton_self _) _ (List.mem_map_of_mem hfield))
  refine ⟨hselectable, hnamed, fun field hfield =>
    (hreading field hfield).1, ?_⟩
  obtain ⟨field, hfield⟩ := List.exists_mem_of_ne_nil _ hnamed
  exact readable_pattern.mp (hreading field hfield).2

theorem test_of_filter {α : Type} {test other : α → Bool} {x : α}
    (h : [x].filter test = [x].filter other) : test x = other x := by
  rw [Bool.eq_iff_iff]
  have hmem : x ∈ [x].filter test ↔ x ∈ [x].filter other := by
    rw [h]
  simpa [List.mem_filter] using hmem

theorem anyText_const (named : search.searchFields ≠ [])
    (test : List Char → Bool) (text : String) :
    search.anyText test (⟨fun _ => .text text⟩ : StoredRow columns) =
      test text.toList := by
  obtain ⟨field, hfield⟩ := List.exists_mem_of_ne_nil _ named
  rw [Bool.eq_iff_iff, anyText, List.any_eq_true]
  constructor
  · intro h
    obtain ⟨_, _, htest⟩ := h
    exact htest
  · intro htest
    exact ⟨field, hfield, htest⟩

theorem anyText_congr {row : StoredRow columns} {test other : List Char → Bool}
    (same : ∀ field, ∀ text ∈ cellText (row.cells field),
      test text.toList = other text.toList) :
    search.anyText test row = search.anyText other row := by
  unfold anyText
  congr 1
  funext field
  cases hcell : cellText (row.cells field) with
  | none => rfl
  | some text => exact same field text hcell

/-- A number 0 is nothing to search for, and nothing is not what to search
for. -/
theorem like_patternOf
    (searched : engine = .pg → search.value ≠ .number 0) (text : List Char) :
    engine.likeRules.like (search.patternOf engine) text =
      engine.likeRules.like
        ('%' :: (search.value.toText.toList ++ ['%'])) text := by
  unfold patternOf
  cases engine with
  | sqlite => rw [pattern_of_sqlite]
  | pg =>
      rw [pattern_of_pg]
      cases hfalsy : search.value.falsy with
      | false => rfl
      | true =>
          have hempty : search.value = .text "" :=
            (SqlValue.eq_of_falsy hfalsy).resolve_right (searched rfl)
          rw [if_pos rfl, hempty]
          have hany : ∀ pattern : List Char,
              SupportedDatabases.pg.likeRules.accepts pattern [] = true →
              SupportedDatabases.pg.likeRules.accepts ('%' :: pattern)
                text = true := fun pattern h =>
            LikeRules.accepts_percent.mpr ⟨[], List.nil_suffix, h⟩
          change SupportedDatabases.pg.likeRules.accepts ['%'] text =
            SupportedDatabases.pg.likeRules.accepts ('%' :: ['%']) text
          rw [hany _ (LikeRules.accepts_nil [])]
          exact (hany _ (by decide)).symm

/-- A row of one text in each column tells whether the pattern finds it. -/
theorem like_of_literally {nuls : Bool}
    (literally : search.MatchesLiterally engines engine columns nuls)
    {text : List Char} (stored : nuls = false → nul ∉ text) :
    engine.likeRules.like (search.patternOf engine) text =
      engine.likeRules.contains text search.value.toText.toList := by
  obtain ⟨hselectable, hnamed, hlikeable, hreadable⟩ :=
    of_run (literally [] fun _ => nofun)
  have hstored : nuls = false →
      ∀ row ∈ [(⟨fun _ => .text (String.ofList text)⟩ : StoredRow columns)],
        row.Whole := by
    intro hnuls row hrow field cell hcell
    rw [List.mem_singleton.mp hrow] at hcell
    cases hcell
    rw [String.toList_ofList]
    exact stored hnuls
  have hrun := run_of_accepted
    [(⟨fun _ => .text (String.ofList text)⟩ : StoredRow columns)]
    hselectable hnamed hlikeable hreadable
  rw [literally _ hstored, Option.some.injEq] at hrun
  have hsame := test_of_filter hrun
  rw [containing, anyText_const hnamed, anyText_const hnamed,
    String.toList_ofList] at hsame
  exact hsame.symm

theorem eq_nul_of_fold {d : Char}
    (h : engine.likeRules.fold d = engine.likeRules.fold nul) : d = nul := by
  cases engine with
  | pg => exact h
  | sqlite => exact (eq_of_toLower (by decide) h.symm).symm

theorem literal_of_literally {nuls : Bool}
    (literally : search.MatchesLiterally engines engine columns nuls) :
    search.Literal engines engine columns := by
  obtain ⟨hselectable, hnamed, hlikeable, hreadable⟩ :=
    of_run (literally [] fun _ => nofun)
  have hsearched : engine = .pg → search.value ≠ .number 0 := by
    intro hengine hzero
    have hletter := @like_of_literally _ _ _ _ _ literally ['a']
      fun _ => by decide
    subst hengine
    rw [patternOf, hzero] at hletter
    exact absurd hletter (by decide)
  have hlike : ∀ text, nul ∉ text →
      engine.likeRules.like ('%' :: (search.value.toText.toList ++ ['%']))
          text =
        engine.likeRules.contains text search.value.toText.toList := by
    intro text hwhole
    rw [← like_patternOf hsearched]
    exact like_of_literally literally fun _ => hwhole
  have hwhole : nul ∉ search.value.toText.toList := by
    intro hnul
    cases engine with
    | pg => exact hreadable rfl hnul
    | sqlite =>
        obtain ⟨text, hnone, hfound, habsent⟩ :=
          @LikeRules.exists_like_of_nul SupportedDatabases.sqlite.likeRules rfl
            rfl (fun d => @eq_nul_of_fold .sqlite d) _ hnul
        rw [hlike text hnone, habsent] at hfound
        cases hfound
  refine ⟨hselectable, hnamed, hlikeable, hwhole, ?_, hsearched⟩
  have hpattern : nul ∉ search.value.toText.toList ++ ['%'] := by
    simp [hwhole, (by decide : nul ≠ '%')]
  have hbland := @LikeRules.bland_whole engine.likeRules _ hpattern
  apply LikeRules.plain_of_contains (separates_likeRules engine)
  rw [← hlike _ hbland, LikeRules.like_whole _ (by
    simp [hwhole, (by decide : nul ≠ '%')]) hbland, LikeRules.accepts_percent]
  exact ⟨_, List.suffix_rfl, LikeRules.accepts_bland _⟩

end Readings

/-- `match` finds the rows that contain the value exactly when it can be
searched for and has no character with a meaning in a pattern; SQLite finds
nothing behind a NUL. -/
theorem matchesLiterally_iff (engines : Engines)
    (engine : SupportedDatabases) (columns : Columns) (search : Search)
    (nuls : Bool) :
    search.MatchesLiterally engines engine columns nuls ↔
      search.Literal engines engine columns ∧
        (nuls = true → engine = .sqlite → search.value.toText = "") := by
  constructor
  · intro literally
    have literal := literal_of_literally literally
    refine ⟨literal, ?_⟩
    rintro rfl rfl
    by_contra hsome
    obtain ⟨hmissed, hcontained⟩ :=
      @LikeRules.not_like_behind_nul SupportedDatabases.sqlite.likeRules rfl _
        literal.whole literal.plain (mt String.toList_eq_nil_iff.mp hsome)
    have hsame := like_of_literally literally
      (fun h => absurd h (by decide) :
        true = false → nul ∉ nul :: search.value.toText.toList)
    rw [like_patternOf literal.searched, hmissed, hcontained] at hsame
    cases hsame
  · rintro ⟨literal, hbehind⟩ rows hstored
    rw [run_of_accepted rows literal.selectable literal.named
      literal.likeable fun _ => literal.whole, Option.some.injEq]
    apply List.filter_congr
    intro row hrow
    refine anyText_congr fun field text hcell => ?_
    rw [like_patternOf literal.searched]
    refine LikeRules.like_between literal.plain literal.whole
      fun hterminated => ?_
    have hsqlite : engine = .sqlite := by
      cases engine with
      | pg => cases hterminated
      | sqlite => rfl
    cases nuls with
    | false => exact .inl (hstored rfl row hrow field text hcell)
    | true => exact .inr (String.toList_eq_nil_iff.mpr (hbehind rfl hsqlite))

/-! The search for users in the database of the Matrix server. -/

def profiles : Columns := [("user_id", .text), ("displayname", .text)]

def profile (userId displayname : String) : StoredRow profiles where
  cells
    | "user_id" => .text userId
    | "displayname" => .text displayname
    | _ => .null

def matrixDbPromise (predicate : String) : Search where
  fields := ["user_id"]
  searchFields := ["user_id", "displayname"]
  value := .text predicate
  order := none

/-- An underscore is found in a name that has none. -/
theorem underscore_found :
    (matrixDbPromise "j_d").run Engines.plain .sqlite
        [profile "@u1:example.com" "jade"] =
      some [profile "@u1:example.com" "jade"] ∧
    [profile "@u1:example.com" "jade"].filter
        ((matrixDbPromise "j_d").containing .sqlite) = [] := by
  have hlikeable : ∀ field ∈ (matrixDbPromise "j_d").searchFields,
      Likeable .sqlite profiles field :=
    List.forall_mem_cons.mpr ⟨⟨.text, rfl, trivial⟩,
      List.forall_mem_singleton.mpr ⟨.text, rfl, trivial⟩⟩
  have hfound : (matrixDbPromise "j_d").anyText
      (SupportedDatabases.sqlite.likeRules.like
        ((matrixDbPromise "j_d").patternOf .sqlite))
      (profile "@u1:example.com" "jade") = true := by
    decide +kernel
  have hother : (matrixDbPromise "j_d").containing .sqlite
      (profile "@u1:example.com" "jade") = false := by
    decide
  constructor
  · have hrun := @run_of_accepted Engines.plain .sqlite profiles
      (matrixDbPromise "j_d") [profile "@u1:example.com" "jade"] rfl
      (List.cons_ne_nil _ _) hlikeable nofun
    rw [List.filter_cons_of_pos hfound, List.filter_nil] at hrun
    exact hrun
  · rw [List.filter_cons_of_neg (Bool.eq_false_iff.mp hother),
      List.filter_nil]

end Search

end TwakeKickstart.IdentityServer
