import Mathlib.Data.Set.List
import TwakeKickstart.Library.Keyed
import TwakeKickstart.Library.LdapFilter
import TwakeKickstart.Library.Like
import TwakeKickstart.IdentityServer.Db.Store

namespace TwakeKickstart.IdentityServer

open Library

/-! The user directory `UserDB` with its backends: the SQL ones bind values to
parameters, the LDAP one writes them into the text of a filter. -/

/-- The attributes of an entry, each with its values; a column that is NULL has
none. -/
abbrev Entry := List (String × List String)

namespace Entry

def values (entry : Entry) (key : String) : List String :=
  (entry.lookup key).getD []

def first (entry : Entry) (key : String) : Option String :=
  (entry.values key).head?

def cell (entry : Entry) (key : String) : Cell :=
  (entry.first key).elim .null .text

end Entry

/-- The fields of a row that are not null. -/
abbrev DirectoryRow := List (String × String)

/-- Of several values the first one is taken. -/
def Entry.row (fields : List String) (entry : Entry) :
    DirectoryRow :=
  fields.filterMap fun key => (entry.first key).map (key, ·)

/-- The configured `ldap_filter`, and the matching rules of the server: the
attribute that a name stands for, and when its values match. -/
structure LdapServer where
  filter : Ldap.Filter
  attributeOf : String → String
  holds : (rule value : List Char) → List String → Bool

/-- PostgreSQL compares texts as they are; SQLite does not tell the cases of
the ASCII letters apart, and reads texts up to a NUL. -/
def SupportedDatabases.likeRules : SupportedDatabases → LikeRules
  | .pg => ⟨true, id, false⟩
  | .sqlite => ⟨false, Char.toLower, true⟩

inductive UserBackend where
  | sql (engine : SupportedDatabases)
  | ldap (server : LdapServer)
  | empty

structure UserDb where
  backend : UserBackend
  entries : List Entry

/-- What a template writes for a value. -/
def interpolated (value : JsValue) : String :=
  match value with
  | .undefined => "undefined"
  | .null => "null"
  | value => value.text?.getD ""

namespace LdapServer

def holdsFor (server : LdapServer) (entry : Entry) (item : Ldap.Item) : Bool :=
  server.holds item.rule item.value
    (entry.values (server.attributeOf (String.ofList item.key)))

def compare (key : String) (value : List Char) : List Char :=
  '(' :: (key.toList ++ '=' :: value) ++ [')']

def anyObject : List Char := compare "objectClass" ['*']

def individualFilter : String × JsValue → List Char
  | (key, .arr items) =>
      '(' :: '|' :: items.flatMap
        (fun item => compare key (interpolated item).toList) ++ [')']
  | (key, value) => compare key (interpolated value).toList

def joinFilters (link : Char) : List (List Char) → List Char
  | [single] => single
  | filters => '(' :: link :: filters.flatten ++ [')']

def specificFilter (filter : Filter) : Option (List Char) :=
  (keptKeys filter).map fun
    | [] => anyObject
    | kept => joinFilters '&' (kept.map individualFilter)

/-- The filter of a search for a text in one of the fields. -/
def matchFilter (searchFields : List String) (value : String) : List Char :=
  joinFilters '|' (searchFields.map fun key =>
    compare key ('*' :: (value.toList ++ ['*'])))

def finalFilter (server : LdapServer) (specific : List Char) : List Char :=
  '(' :: '&' :: (server.filter.text ++ specific) ++ [')']

/-- `_get`; the promise is rejected when the text is no filter. -/
def search (server : LdapServer) (entries : List Entry)
    (fields : List String) (filter : List Char) : Option (List DirectoryRow) :=
  (Ldap.parse filter).map fun filter =>
    ((entries.filter fun entry =>
      filter.selects (server.holdsFor entry)).map (Entry.row fields)).filter
        fun row => !row.isEmpty

end LdapServer

namespace UserDb

def get (db : UserDb) (fields : List String) (filter : Filter) :
    Option (List DirectoryRow) :=
  match db.backend with
  | .sql _ =>
      (getStatement fields filter).map fun statement =>
        (db.entries.filter fun entry => statement.selects entry.cell).map
          (Entry.row fields)
  | .ldap server =>
      (LdapServer.specificFilter filter).bind fun specific =>
        server.search db.entries fields (server.finalFilter specific)
  | .empty => some []

def getAll (db : UserDb) (fields : List String) : Option (List DirectoryRow) :=
  match db.backend with
  | .sql _ => some (db.entries.map (Entry.row fields))
  | .ldap server => server.search db.entries fields server.filter.text
  | .empty => some []

/-- `match`, for a text that is not empty. -/
def matching (db : UserDb) (fields searchFields : List String)
    (value : String) : Option (List DirectoryRow) :=
  match db.backend with
  | .sql engine =>
      let pattern := '%' :: (value.toList ++ ['%'])
      some ((db.entries.filter fun entry =>
        searchFields.any fun key => (entry.first key).any fun text =>
          engine.likeRules.like pattern text.toList).map (Entry.row fields))
  | .ldap server =>
      server.search db.entries fields
        (server.finalFilter (LdapServer.matchFilter searchFields value))
  | .empty => some []

/-- The entries that a query can answer. -/
def listed (db : UserDb) : List Entry :=
  match db.backend with
  | .sql _ => db.entries
  | .ldap server => db.entries.filter fun entry =>
      server.filter.selects (server.holdsFor entry)
  | .empty => []

end UserDb

/-! The text of a filter is read back as it was meant, when the values have no
character with a meaning of its own. -/

def isPlainChar (c : Char) : Bool :=
  c != '(' && c != ')' && c != '\\' && c.toNat != 0

/-- The values can be written into a filter of the backend as they are. -/
def UserBackend.Plain (backend : UserBackend) (values : List String) : Prop :=
  match backend with
  | .ldap _ => ∀ value ∈ values, value.toList.all isPlainChar = true
  | _ => True

/-- The user ID has its own name, and a value matches itself. -/
def UserBackend.Reflexive : UserBackend → Prop
  | .ldap server => server.attributeOf "uid" = "uid" ∧
      ∀ value : String, value.toList.all isPlainChar = true →
        ∀ values, value ∈ values → server.holds [] value.toList values = true
  | _ => True

theorem escapesWell_of_plain {value : List Char}
    (plain : value.all isPlainChar = true) : Ldap.escapesWell value = true := by
  induction value with
  | nil => rfl
  | cons c rest ih =>
      rw [List.all_cons, Bool.and_eq_true] at plain
      obtain ⟨hfirst, hrest⟩ := plain
      simp only [isPlainChar, Bool.and_eq_true] at hfirst
      rw [Ldap.escapesWell, hfirst.1.2, ih hrest]
      rfl

/-- A value that stands for itself. -/
abbrev PlainValue := { value : String // value.toList.all isPlainChar = true }

/-- `(uid=value)` -/
def uidItem (value : PlainValue) : Ldap.Item where
  key := "uid".toList
  rule := []
  value := value.val.toList
  named := by decide
  keyChars := by decide
  ruleChars := Ldap.ruleChars_nil
  ruleStart := Ldap.ruleStart_nil
  valueChars := Ldap.all_of_imp value.property fun c h => by
    simp only [isPlainChar, Bool.and_eq_true] at h
    simp only [Ldap.isValueChar, h.1.1.1, h.1.1.2, h.2, Bool.and_self]
  escapes := escapesWell_of_plain value.property

/-- The filter for users with one of the IDs. -/
def uidFilter (first : PlainValue) (rest : List PlainValue) : Ldap.Filter :=
  .or (.ofCons (.item (uidItem first))
    (rest.map fun value => .item (uidItem value)))

theorem text_uidItem (value : PlainValue) :
    (Ldap.Filter.item (uidItem value)).text =
      LdapServer.compare "uid" value.val.toList := by
  simp [Ldap.Filter.text, Ldap.Item.body, uidItem, LdapServer.compare]

theorem lookup_row {fields : List String} {key : String} (h : key ∈ fields)
    (entry : Entry) : (entry.row fields).lookup key = entry.first key :=
  lookup_filterMap fields entry.first h

theorem filter_map_row {fields : List String} {key : String}
    (h : key ∈ fields) (entries : List Entry) (value : String) :
    ((entries.map (Entry.row fields)).filter fun row =>
        row.lookup key == some value) =
      (entries.filter fun entry => entry.first key == some value).map
        (Entry.row fields) := by
  rw [List.filter_map]
  congr 1
  refine List.filter_congr fun entry _ => ?_
  rw [Function.comp_apply, lookup_row h]

theorem intercalate_ne_empty {values : List String} (nonempty : values ≠ [])
    (named : ∀ value ∈ values, value ≠ "") :
    ",".intercalate values ≠ "" := by
  rw [Ne, JsValue.intercalate_eq_empty_iff]
  rintro (hnil | hempty)
  · exact nonempty hnil
  · exact named "" (by rw [hempty]; exact List.mem_singleton_self _) rfl

theorem getStatement_strings (fields : List String) (key : String)
    {values : List String} (nonempty : values ≠ [])
    (named : ∀ value ∈ values, value ≠ "") :
    ∃ statement, getStatement fields [(key, .strings values)] =
        some statement ∧
      ∀ cells, statement.selects cells =
        values.any (Operator.eq.test (cells key)) := by
  have hresolve : Filter.resolve [(key, .strings values)] =
      some [(key, values)] := by
    rw [resolve_single rfl, JsValue.text?_strings, Option.bind_some,
      if_neg (intercalate_ne_empty nonempty named)]
    simp [JsValue.strings, boundTexts]
  rcases getStatement_spec fields [(key, .strings values)] with
    ⟨hnone, _⟩ | ⟨resolved, statement, hresolved, hstatement, hselects⟩
  · rw [hresolve] at hnone
    cases hnone
  · rw [hresolve] at hresolved
    cases hresolved
    refine ⟨statement, hstatement, fun cells => ?_⟩
    rw [hselects]
    simp [selectsAll]

theorem test_eq_first (entry : Entry) (key : String) (values : List String) :
    values.any (Operator.eq.test (entry.cell key)) =
      (entry.first key).any (values.contains ·) := by
  unfold Entry.cell
  cases entry.first key with
  | none => simp
  | some value =>
      simp only [Option.elim_some, Option.any_some]
      rw [Bool.eq_iff_iff, List.any_eq_true, List.contains_iff_mem]
      constructor
      · rintro ⟨other, hother, htest⟩
        rw [(Operator.test_eq_text _ _).mp htest]
        exact hother
      · exact fun h => ⟨value, h, (Operator.test_eq_text _ _).mpr rfl⟩

theorem text_uidFilter (first : PlainValue) (rest : List PlainValue) :
    (uidFilter first rest).text = LdapServer.individualFilter
      ("uid", .strings ((first :: rest).map Subtype.val)) := by
  rw [uidFilter, Ldap.Filter.text, Ldap.text_ofCons, List.flatMap_cons,
    text_uidItem, JsValue.strings, LdapServer.individualFilter]
  simp only [List.map_cons, List.flatMap_cons, List.flatMap_map, interpolated,
    JsValue.text?_str, Option.getD_some, text_uidItem, List.map_map,
    Function.comp_def]
  rfl

theorem holdsFor_uidItem {server : LdapServer}
    (named : server.attributeOf "uid" = "uid") (entry : Entry)
    (value : PlainValue) :
    server.holdsFor entry (uidItem value) =
      server.holds [] value.val.toList (entry.values "uid") := by
  have hkey : String.ofList (uidItem value).key = "uid" := by
    rw [uidItem, String.ofList_toList]
  rw [LdapServer.holdsFor, hkey, named]
  rfl

theorem selects_uidFilter {server : LdapServer}
    (named : server.attributeOf "uid" = "uid") (entry : Entry)
    (first : PlainValue) (rest : List PlainValue) :
    (uidFilter first rest).selects (server.holdsFor entry) =
      (first :: rest).any fun value =>
        server.holds [] value.val.toList (entry.values "uid") := by
  rw [uidFilter, Ldap.Filter.selects, Ldap.any_ofCons, List.any_cons,
    List.any_cons, List.any_map, Ldap.Filter.selects,
    holdsFor_uidItem named]
  congr 1
  refine List.any_congr rfl fun value => ?_
  exact holdsFor_uidItem named entry value

theorem finalFilter_uid (server : LdapServer) (first : PlainValue)
    (rest : List PlainValue) (named : ∀ value ∈ first :: rest, value.val ≠ "") :
    (LdapServer.specificFilter
        [("uid", .strings ((first :: rest).map Subtype.val))]).map
        server.finalFilter =
      some (Ldap.Filter.and (.more server.filter
        (.last (uidFilter first rest)))).text := by
  have hnamed : ∀ value ∈ (first :: rest).map Subtype.val, value ≠ "" := by
    intro value hvalue
    obtain ⟨plain, hplain, rfl⟩ := List.mem_map.mp hvalue
    exact named plain hplain
  have hkept : keptKeys [("uid", .strings ((first :: rest).map
      Subtype.val))] =
      some [("uid", .strings ((first :: rest).map Subtype.val))] := by
    have htext := intercalate_ne_empty (by simp) hnamed
    rw [keptKeys, JsValue.text?_strings]
    simp only [keptKeys, Option.bind_some, Option.map_some, if_neg htext]
    rfl
  rw [LdapServer.specificFilter, hkept]
  simp only [Option.map_some, List.map_cons, List.map_nil,
    LdapServer.joinFilters, LdapServer.finalFilter, Ldap.Filter.text,
    Ldap.Filters.text]
  rw [text_uidFilter]
  rfl

theorem search_uid {server : LdapServer}
    (known : server.attributeOf "uid" = "uid") (entries : List Entry)
    (fields : List String) (first : PlainValue) (rest : List PlainValue)
    (named : ∀ value ∈ first :: rest, value.val ≠ "") :
    ((LdapServer.specificFilter
        [("uid", .strings ((first :: rest).map Subtype.val))]).bind
        fun specific => server.search entries fields
          (server.finalFilter specific)) =
      some (((entries.filter fun entry =>
        server.filter.selects (server.holdsFor entry) &&
          (first :: rest).any fun value =>
            server.holds [] value.val.toList (entry.values "uid")).map
        (Entry.row fields)).filter fun row => !row.isEmpty) := by
  obtain ⟨specific, hspecific, hfinal⟩ := Option.map_eq_some_iff.mp
    (finalFilter_uid server first rest named)
  rw [hspecific, Option.bind_some, hfinal, LdapServer.search, Ldap.parse_text,
    Option.map_some]
  congr 3
  refine List.filter_congr fun entry _ => ?_
  rw [Ldap.Filter.selects, Ldap.Filters.all, Ldap.Filters.all,
    selects_uidFilter known]

/-- What the directory answers for user IDs: the rows with one of the IDs are
those of the entries that have it first, whatever the other IDs are. -/
theorem get_uid (db : UserDb) {fields : List String} (asked : "uid" ∈ fields)
    {values : List String} (nonempty : values ≠ [])
    (named : ∀ value ∈ values, value ≠ "")
    (plain : db.backend.Plain values) (reflexive : db.backend.Reflexive) :
    ∃ rows, db.get fields [("uid", .strings values)] = some rows ∧
      ∀ value ∈ values,
        (rows.filter fun row => row.lookup "uid" == some value) =
          (db.listed.filter fun entry => entry.first "uid" == some value).map
            (Entry.row fields) := by
  unfold UserDb.get UserDb.listed
  cases hbackend : db.backend with
  | empty =>
      exact ⟨[], rfl, fun value _ => rfl⟩
  | sql engine =>
      obtain ⟨statement, hstatement, hselects⟩ :=
        getStatement_strings fields "uid" nonempty named
      refine ⟨_, by rw [hstatement]; rfl, fun value hvalue => ?_⟩
      rw [filter_map_row asked, List.filter_filter]
      congr 1
      refine List.filter_congr fun entry _ => ?_
      rw [hselects, test_eq_first]
      cases hfirst : entry.first "uid" == some value with
      | false => rfl
      | true =>
          rw [beq_iff_eq.mp hfirst, Option.any_some, Bool.true_and]
          exact List.contains_iff_mem.mpr hvalue
  | ldap server =>
      rw [hbackend] at plain reflexive
      lift values to List PlainValue using plain
      cases values with
      | nil => exact absurd rfl nonempty
      | cons first rest =>
          have hnamed : ∀ value ∈ first :: rest, value.val ≠ "" :=
            fun value hvalue => named value.val (List.mem_map_of_mem hvalue)
          refine ⟨_, search_uid reflexive.1 db.entries fields first rest hnamed,
            fun value hvalue => ?_⟩
          obtain ⟨own, hown, rfl⟩ := List.mem_map.mp hvalue
          have hnonempty : ∀ entry : Entry,
              (entry.first "uid" == some own.val) = true →
              (entry.row fields).isEmpty = false := by
            intro entry hfirst
            have hrow := lookup_row asked entry
            rw [beq_iff_eq.mp hfirst] at hrow
            cases hempty : entry.row fields with
            | nil =>
                rw [hempty] at hrow
                cases hrow
            | cons _ _ => rfl
          rw [List.filter_filter, List.filter_filter, List.filter_map,
            List.filter_filter]
          congr 1
          refine List.filter_congr fun entry _ => ?_
          rw [Function.comp_apply, lookup_row asked]
          cases hfirst : entry.first "uid" == some own.val with
          | false => rfl
          | true =>
              have hvalues : own.val ∈ entry.values "uid" :=
                List.mem_of_mem_head? (beq_iff_eq.mp hfirst)
              have hholds := reflexive.2 own.val own.property _ hvalues
              have hany : ((first :: rest).any fun value =>
                  server.holds [] value.val.toList (entry.values "uid")) =
                  true := List.any_eq_true.mpr ⟨own, hown, hholds⟩
              rw [hnonempty entry hfirst, hany]
              simp

end TwakeKickstart.IdentityServer
