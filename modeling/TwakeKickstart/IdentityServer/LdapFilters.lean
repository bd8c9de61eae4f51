import TwakeKickstart.IdentityServer.UserDb
import TwakeKickstart.IdentityServer.Db.Backends
import TwakeKickstart.Library.LdapMeaning

namespace TwakeKickstart.IdentityServer

open Library

/-! The filters that the LDAP backend writes, and what they are to ask. -/

/-- A name that the code gives to an attribute. -/
structure AttributeName where
  name : String
  named : name ≠ ""
  chars : name.toList.all Ldap.isKeyChar = true

namespace AttributeName

def key (field : AttributeName) : List Char := field.name.toList

theorem key_ne_nil (field : AttributeName) : field.key ≠ [] := by
  intro h
  exact field.named (String.toList_eq_nil_iff.mp h)

end AttributeName

/-- A value of the type `string | number | string[]`, or none. -/
inductive FilterValue where
  | absent
  | text (s : String)
  | number (n : Int)
  | list (values : List String)

def FilterValue.toJs : FilterValue → JsValue
  | absent => .undefined
  | text s => .str s
  | number n => .num n
  | list values => .strings values

/-- No key is given twice. -/
structure FilterRecord where
  entries : List (AttributeName × FilterValue)
  nodup : (entries.map (·.1.name)).Nodup

def FilterRecord.filter (record : FilterRecord) : Filter :=
  record.entries.map fun entry => (entry.1.name, entry.2.toJs)

namespace LdapServer

/-- The filter of `match`; without fields there is no search. -/
def searchFilter (searchFields : List String) (value : SqlValue) :
    Option (List Char) :=
  if searchFields.isEmpty then none
  else
    some (joinFilters '|' (searchFields.map fun key =>
      compare key (if value.falsy then ['*']
        else '*' :: (value.toText.toList ++ ['*']))))

end LdapServer

inductive LdapCall where
  | get (record : FilterRecord)
  | matching (searchFields : List AttributeName) (value : SqlValue)

/-- The text that the directory is sent. -/
def LdapCall.text (server : LdapServer) : LdapCall → Option (List Char)
  | get record =>
      (LdapServer.specificFilter record.filter).map server.finalFilter
  | matching searchFields value =>
      (LdapServer.searchFilter (searchFields.map (·.name)) value).map
        server.finalFilter

/-! What is asked. -/

namespace AttributeName

def present (field : AttributeName) : Ldap.Tree :=
  .test field.key [] [none]

def equal (field : AttributeName) (value : String) : Ldap.Tree :=
  .test field.key [] (Ldap.literally value.toList)

/-- Every value contains the empty text. -/
def containing (field : AttributeName) (value : String) : Ldap.Tree :=
  if value = "" then field.present
  else
    .test field.key []
      (none :: (Ldap.literally value.toList ++ [none]))

end AttributeName

theorem objectClass_named : "objectClass" ≠ "" := by
  decide

theorem objectClass_chars :
    "objectClass".toList.all Ldap.isKeyChar = true := by
  decide

def objectClass : AttributeName where
  name := "objectClass"
  named := objectClass_named
  chars := objectClass_chars

/-- An attribute has to have one of the values, when there are some. -/
def FilterValue.asked (field : AttributeName) :
    FilterValue → Option Ldap.Tree
  | absent => none
  | text s => some (field.equal s)
  | number n => some (field.equal (toString n))
  | list [] => none
  | list (first :: rest) =>
      some (.or ((first :: rest).map field.equal))

def joined (link : List Ldap.Tree → Ldap.Tree) :
    List Ldap.Tree → Ldap.Tree
  | [single] => single
  | trees => link trees

/-- An entry is any object when nothing is asked of it. -/
def allOf : List Ldap.Tree → Ldap.Tree
  | [] => objectClass.present
  | trees => joined .and trees

def LdapCall.asked : LdapCall → Ldap.Tree
  | get record =>
      allOf (record.entries.filterMap fun entry => entry.2.asked entry.1)
  | matching searchFields value =>
      joined .or (searchFields.map fun field =>
        field.containing value.toText)

def LdapCall.intended (server : LdapServer) (call : LdapCall) : Ldap.Tree :=
  .and [server.filter.meaning, call.asked]

/-- The text that is sent is read as what is asked. -/
def LdapCall.Meant (server : LdapServer) (call : LdapCall) : Prop :=
  ∀ text, call.text server = some text →
    ∃ filter, Ldap.parse text = some filter ∧
      filter.meaning = call.intended server

/-- No character of the text has a meaning in a filter. -/
def IsLiteral (s : String) : Prop :=
  s.toList.all Ldap.isLiteralChar = true

/-- An empty text, alone or in a list of its own, is taken for no value. -/
def FilterValue.Literal : FilterValue → Prop
  | absent => True
  | text s => s ≠ "" ∧ IsLiteral s
  | number _ => True
  | list values => values ≠ [""] ∧ ∀ value ∈ values, IsLiteral value

def LdapCall.Literal : LdapCall → Prop
  | get record => ∀ entry ∈ record.entries, entry.2.Literal
  | matching searchFields value =>
      searchFields = [] ∨ value ≠ .number 0 ∧ IsLiteral value.toText

/-! The parts of a filter. -/

theorem isLiteralChar_of_isDigit {c : Char} (h : c.isDigit = true) :
    Ldap.isLiteralChar c = true := by
  have hother : ∀ d : Char, d.isDigit = false → (c != d) = true := by
    intro d hd
    rw [bne_iff_ne]
    intro heq
    rw [heq, hd] at h
    cases h
  have hzero : (c.toNat != 0) = true := by
    rw [bne_iff_ne]
    intro hnat
    have hc : c = Char.ofNat 0 := by
      rw [← hnat, Char.ofNat_toNat]
    rw [hc] at h
    exact absurd h (by decide)
  rw [Ldap.isLiteralChar, Ldap.isValueChar, hother '(' rfl, hother ')' rfl,
    hother '\\' rfl, hother '*' rfl, hzero]
  rfl

theorem isLiteral_number (n : Int) : IsLiteral (toString n) := by
  have hdigits : ∀ value : Nat,
      (Nat.repr value).toList.all Ldap.isLiteralChar = true := by
    intro value
    rw [Nat.toList_repr, List.all_eq_true]
    intro c hc
    exact isLiteralChar_of_isDigit
      (Nat.isDigit_of_mem_toDigits (by decide) (by decide) hc)
  cases n with
  | ofNat value => exact hdigits value
  | negSucc value =>
      change ("-" ++ Nat.repr (value + 1)).toList.all _ = true
      rw [String.toList_append, List.all_append, hdigits]
      rfl

section Parts

variable (field : AttributeName)

def equalPart (value : String) : Ldap.Part where
  text := LdapServer.compare field.name value.toList
  tree := field.equal value
  kept := true
  plain := IsLiteral value

/-- What is written for a value that is given. -/
def partOf : FilterValue → Option Ldap.Part
  | .absent => none
  | .text s => some { equalPart field s with kept := s != "" }
  | .number n => some (equalPart field (toString n))
  | .list [] => none
  | .list (first :: rest) =>
      some
        { text := '(' :: '|' :: ((first :: rest).flatMap fun value =>
            LdapServer.compare field.name value.toList) ++ [')']
          tree := .or ((first :: rest).map field.equal)
          kept := first :: rest != [""]
          plain := ∀ value ∈ first :: rest, IsLiteral value }

theorem readAs_equalPart (value : String) :
    Ldap.ReadAs (equalPart field value).text
      (equalPart field value).tree (equalPart field value).plain :=
  Ldap.readAs_equal field.key_ne_nil field.chars value.toList

theorem pairwise_of_kept {parts : List Ldap.Part}
    (kept : ∀ part ∈ parts, part.kept = true) :
    parts.Pairwise Ldap.Part.Apart := by
  refine List.pairwise_of_forall_mem_list ?_
  intro part hpart other _ hdropped
  rw [kept part hpart] at hdropped
  cases hdropped

theorem readAs_list {values : List String} (nonempty : values ≠ []) :
    Ldap.ReadAs
      ('(' :: '|' :: (values.flatMap fun value =>
        LdapServer.compare field.name value.toList) ++ [')'])
      (.or (values.map field.equal)) (∀ value ∈ values, IsLiteral value) := by
  have hkept : ∀ part ∈ values.map (equalPart field), part.kept = true := by
    intro part hpart
    obtain ⟨value, _, rfl⟩ := List.mem_map.mp hpart
    rfl
  have hreads := @Ldap.readAs_or (values.map (equalPart field))
    (mt List.map_eq_nil_iff.mp nonempty)
    (by
      intro part hpart _
      obtain ⟨value, _, rfl⟩ := List.mem_map.mp hpart
      exact readAs_equalPart field value)
    (pairwise_of_kept hkept)
  rw [List.filter_eq_self.mpr hkept, List.flatMap_map, List.map_map] at hreads
  refine hreads.congr ?_
  constructor
  · intro plain value hvalue
    exact (plain _ (List.mem_map_of_mem hvalue)).2
  · intro plain part hpart
    obtain ⟨value, hvalue, rfl⟩ := List.mem_map.mp hpart
    exact ⟨rfl, plain value hvalue⟩

theorem readAs_partOf {value : FilterValue} {part : Ldap.Part}
    (h : partOf field value = some part) :
    Ldap.ReadAs part.text part.tree part.plain := by
  cases value with
  | absent => cases h
  | text s =>
      cases h
      exact readAs_equalPart field s
  | number n =>
      cases h
      exact readAs_equalPart field (toString n)
  | list values =>
      cases values with
      | nil => cases h
      | cons first rest =>
          cases h
          exact readAs_list field (List.cons_ne_nil first rest)

theorem tree_of_dropped {value : FilterValue} {part : Ldap.Part}
    (h : partOf field value = some part) (dropped : part.kept = false) :
    part.tree = field.equal "" ∨ part.tree = .or [field.equal ""] := by
  cases value with
  | absent => cases h
  | text s =>
      cases h
      have hs : s = "" := by simpa using dropped
      exact .inl (by rw [hs]; rfl)
  | number n =>
      cases h
      cases dropped
  | list values =>
      cases values with
      | nil => cases h
      | cons first rest =>
          cases h
          have hlist : first :: rest = [""] := by simpa using dropped
          exact .inr (by rw [hlist]; rfl)

theorem literal_partOf (value : FilterValue) :
    (∀ part, partOf field value = some part →
        part.kept = true ∧ part.plain) ↔ value.Literal := by
  cases value with
  | absent =>
      refine iff_of_true ?_ trivial
      intro part h
      cases h
  | text s =>
      simp only [partOf, Option.some.injEq, forall_eq', bne_iff_ne]
      rfl
  | number n =>
      refine iff_of_true ?_ trivial
      intro part h
      cases h
      exact ⟨rfl, isLiteral_number n⟩
  | list values =>
      cases values with
      | nil =>
          refine iff_of_true ?_ ⟨by decide, List.forall_mem_nil _⟩
          intro part h
          cases h
      | cons first rest =>
          simp only [partOf, Option.some.injEq, forall_eq', bne_iff_ne]
          rfl

theorem text_partOf {value : FilterValue} {part : Ldap.Part}
    (h : partOf field value = some part) :
    (∃ spelled, part.text = Ldap.itemText field.key spelled) ∨
      ∃ spelled rest, part.text =
        '(' :: '|' :: (Ldap.itemText field.key spelled ++ rest) := by
  cases value with
  | absent => cases h
  | text s =>
      cases h
      exact .inl ⟨s.toList, rfl⟩
  | number n =>
      cases h
      exact .inl ⟨(toString n).toList, rfl⟩
  | list values =>
      cases values with
      | nil => cases h
      | cons first rest =>
          cases h
          refine .inr ⟨first.toList, (rest.flatMap fun value =>
            LdapServer.compare field.name value.toList) ++ [')'], ?_⟩
          rw [List.flatMap_cons]
          simp only [List.cons_append, List.append_assoc]
          rfl

end Parts

theorem apart_partOf {field other : AttributeName}
    (hne : field.name ≠ other.name)
    {value otherValue : FilterValue} {part otherPart : Ldap.Part}
    (h : partOf field value = some part)
    (hother : partOf other otherValue = some otherPart) :
    part.Apart otherPart := by
  intro dropped filter rest after hmeaning htext
  have hkeys : field.key ≠ other.key :=
    fun heq => hne (String.toList_injective heq)
  cases tree_of_dropped field h dropped with
  | inl htree =>
      rw [htree] at hmeaning
      cases text_partOf other hother with
      | inl hitem =>
          obtain ⟨spelled, hspelled⟩ := hitem
          rw [hspelled] at htext
          exact hkeys (Ldap.key_of_read other.chars hmeaning htext)
      | inr hlist =>
          obtain ⟨spelled, others, hspelled⟩ := hlist
          obtain ⟨c, chars, hchars, hc⟩ := Ldap.text_of_test hmeaning
          rw [hspelled, hchars] at htext
          simp only [List.cons_append, List.cons.injEq] at htext
          rw [htext.2.1] at hc
          exact absurd hc (by decide)
  | inr htree =>
      rw [htree] at hmeaning
      cases text_partOf other hother with
      | inl hitem =>
          obtain ⟨spelled, hspelled⟩ := hitem
          obtain ⟨c, chars, hchars, hc⟩ :=
            Ldap.itemText_cons other.key_ne_nil other.chars spelled
          obtain ⟨more, hmore⟩ := Ldap.text_of_or hmeaning
          rw [hspelled, hchars, hmore] at htext
          simp only [List.cons_append, List.cons.injEq] at htext
          rw [← htext.2.1] at hc
          exact absurd hc (by decide)
      | inr hlist =>
          obtain ⟨spelled, others, hspelled⟩ := hlist
          obtain ⟨parts, rfl, hparts⟩ := Ldap.of_meaning_or hmeaning
          obtain ⟨single, hsingle, hmeaning⟩ := List.map_eq_singleton_iff.mp
            hparts
          have hitem : single.text ++ (')' :: rest) =
              Ldap.itemText other.key spelled ++ (others ++ after) := by
            rw [hspelled, Ldap.Filter.text, parts.text_toList, hsingle] at htext
            simpa using htext
          exact hkeys (Ldap.key_of_read other.chars hmeaning hitem)

namespace FilterRecord

def parts (record : FilterRecord) : List Ldap.Part :=
  record.entries.filterMap fun entry => partOf entry.1 entry.2

theorem mem_parts {record : FilterRecord} {part : Ldap.Part}
    (h : part ∈ record.parts) :
    ∃ entry ∈ record.entries, partOf entry.1 entry.2 = some part :=
  List.mem_filterMap.mp h

theorem apart_parts (record : FilterRecord) :
    record.parts.Pairwise Ldap.Part.Apart := by
  unfold parts
  rw [List.pairwise_filterMap]
  have hnames := record.nodup
  rw [List.Nodup, List.pairwise_map] at hnames
  refine hnames.imp ?_
  intro entry other hne part hpart otherPart hother
  exact apart_partOf hne hpart hother

theorem trees_parts (record : FilterRecord) :
    record.parts.map (·.tree) =
      record.entries.filterMap fun entry => entry.2.asked entry.1 := by
  unfold parts
  rw [List.map_filterMap]
  apply List.filterMap_congr
  intro entry _
  cases entry.2 with
  | absent => rfl
  | text s => rfl
  | number n => rfl
  | list values =>
      cases values with
      | nil => rfl
      | cons first rest => rfl

theorem literal_parts (record : FilterRecord) :
    (∀ part ∈ record.parts, part.kept = true ∧ part.plain) ↔
      ∀ entry ∈ record.entries, entry.2.Literal := by
  unfold parts
  rw [List.forall_mem_filterMap]
  apply forall_congr'
  intro entry
  apply imp_congr_right
  intro _
  exact literal_partOf entry.1 entry.2

end FilterRecord

/-! What is written for a filter record. -/

namespace LdapServer

def specificText : List (List Char) → List Char
  | [] => anyObject
  | texts => joinFilters '&' texts

theorem specificFilter_eq (filter : Filter) :
    specificFilter filter =
      (keptKeys filter).map fun kept =>
        specificText (kept.map individualFilter) := by
  unfold specificFilter
  congr 1
  funext kept
  cases kept with
  | nil => rfl
  | cons entry rest => rfl

theorem individualFilter_strings (key : String) (values : List String) :
    individualFilter (key, .strings values) =
      '(' :: '|' :: (values.flatMap fun value =>
        compare key value.toList) ++ [')'] := by
  rw [JsValue.strings, individualFilter, List.flatMap_map]
  simp only [interpolated, JsValue.text?_str, Option.getD_some]

theorem text?_partOf {field : AttributeName} {value : FilterValue}
    {part : Ldap.Part} (h : partOf field value = some part) :
    value.toJs.isNullish = false ∧
      individualFilter (field.name, value.toJs) = part.text ∧
      ∃ text, value.toJs.text? = some text ∧
        (text = "" ↔ part.kept = false) := by
  cases value with
  | absent => cases h
  | text s =>
      cases h
      refine ⟨rfl, ?_, s, JsValue.text?_str s, by simp⟩
      simp only [FilterValue.toJs, individualFilter, interpolated,
        JsValue.text?_str, Option.getD_some]
      rfl
  | number n =>
      cases h
      have htext : (JsValue.num n).text? = some (toString n) := by
        rw [JsValue.text?]
      refine ⟨rfl, ?_, toString n, htext,
        iff_of_false (num_text_ne_empty n) Bool.noConfusion⟩
      simp only [FilterValue.toJs, individualFilter, interpolated, htext,
        Option.getD_some]
      rfl
  | list values =>
      cases values with
      | nil => cases h
      | cons first rest =>
          cases h
          refine ⟨rfl, individualFilter_strings _ _, _,
            JsValue.text?_strings _, ?_⟩
          rw [JsValue.intercalate_eq_empty_iff]
          simp

theorem keptKeys_of_partOf_none {field : AttributeName} {value : FilterValue}
    (h : partOf field value = none) {filter kept : Filter}
    (hkept : keptKeys filter = some kept) :
    keptKeys ((field.name, value.toJs) :: filter) = some kept := by
  cases value with
  | absent => exact hkept
  | text s => cases h
  | number n => cases h
  | list values =>
      cases values with
      | nil =>
          rw [keptKeys, FilterValue.toJs, JsValue.text?_strings, hkept]
          rfl
      | cons first rest => cases h

theorem keptKeys_entries (entries : List (AttributeName × FilterValue)) :
    ∃ kept, keptKeys (entries.map fun entry =>
        (entry.1.name, entry.2.toJs)) = some kept ∧
      kept.map individualFilter =
        ((entries.filterMap fun entry => partOf entry.1 entry.2).filter
          (·.kept)).map (·.text) := by
  induction entries with
  | nil => exact ⟨[], rfl, rfl⟩
  | cons entry rest ih =>
      obtain ⟨field, value⟩ := entry
      obtain ⟨kept, hkept, htexts⟩ := ih
      rw [List.map_cons]
      cases hpart : partOf field value with
      | none =>
          simp only [List.filterMap_cons, hpart]
          exact ⟨kept, keptKeys_of_partOf_none hpart hkept, htexts⟩
      | some part =>
          obtain ⟨hgiven, hown, text, htext, hempty⟩ := text?_partOf hpart
          have hkeys : keptKeys ((field.name, value.toJs) ::
              rest.map fun entry => (entry.1.name, entry.2.toJs)) =
              some (if text = "" then kept
                else (field.name, value.toJs) :: kept) := by
            rw [keptKeys, hgiven, htext, hkept]
            rfl
          simp only [List.filterMap_cons, hpart]
          refine ⟨_, hkeys, ?_⟩
          cases hdropped : part.kept with
          | false =>
              rw [if_pos (hempty.mpr hdropped),
                List.filter_cons_of_neg (Bool.eq_false_iff.mp hdropped)]
              exact htexts
          | true =>
              have hne : text ≠ "" := by
                intro h
                rw [hempty.mp h] at hdropped
                cases hdropped
              rw [if_neg hne, List.filter_cons_of_pos hdropped,
                List.map_cons, List.map_cons, htexts, hown]

theorem specificFilter_record (record : FilterRecord) :
    specificFilter record.filter =
      some (specificText ((record.parts.filter (·.kept)).map (·.text))) := by
  obtain ⟨kept, hkept, htexts⟩ := keptKeys_entries record.entries
  rw [specificFilter_eq, FilterRecord.filter, hkept, Option.map_some, htexts]
  rfl

/-! How it is read. -/

theorem readAs_no_and {text : List Char} {trees : List Ldap.Tree}
    {plain : Prop} (begins : ∃ c rest, text = '(' :: c :: rest ∧ c ≠ '&')
    (never : ¬ plain) : Ldap.ReadAs text (.and trees) plain := by
  constructor
  · intro h
    exact absurd h never
  · intro filter rest after hmeaning h
    obtain ⟨c, chars, htext, hc⟩ := begins
    obtain ⟨more, hmore⟩ := Ldap.text_of_and hmeaning
    rw [htext, hmore] at h
    simp only [List.cons_append, List.cons.injEq] at h
    exact absurd h.2.1.symm hc

/-- The text of the parts that are written is read as all of the parts only
where each of them is written. -/
theorem readAs_specificText {parts : List Ldap.Part}
    (reads : ∀ part ∈ parts, Ldap.ReadAs part.text part.tree part.plain)
    (apart : parts.Pairwise Ldap.Part.Apart)
    (begins : ∀ part ∈ parts,
      ∃ c rest, part.text = '(' :: c :: rest ∧ c ≠ '&')
    (told : ∀ part ∈ parts, part.kept = false →
      ∀ (filter : Ldap.Filter) (rest after : List Char),
        filter.meaning = part.tree → filter.text ++ rest ≠ anyObject ++ after) :
    Ldap.ReadAs (specificText ((parts.filter (·.kept)).map (·.text)))
      (allOf (parts.map (·.tree)))
      (∀ part ∈ parts, part.kept = true ∧ part.plain) := by
  cases parts with
  | nil =>
      refine (Ldap.readAs_present objectClass.key_ne_nil
        objectClass.chars).congr ?_
      exact iff_of_true trivial (List.forall_mem_nil _)
  | cons first others =>
      cases others with
      | nil =>
          have hsingle : (∀ part ∈ [first], part.kept = true ∧ part.plain) ↔
              first.kept = true ∧ first.plain := List.forall_mem_singleton
          rw [hsingle]
          cases hkept : first.kept with
          | true =>
              rw [List.filter_cons_of_pos hkept]
              refine (reads first List.mem_cons_self).congr ?_
              exact (and_iff_right rfl).symm
          | false =>
              rw [List.filter_cons_of_neg (Bool.eq_false_iff.mp hkept)]
              constructor
              · intro h
                cases h.1
              · intro filter rest after hmeaning h
                exact absurd h (told first List.mem_cons_self hkept
                  filter rest after hmeaning)
      | cons second rest =>
          have hreads := Ldap.readAs_and (List.cons_ne_nil first _)
            (fun part hpart _ => reads part hpart) apart
          have hfew : ((first :: second :: rest).filter (·.kept)).length < 2 →
              ¬ ∀ part ∈ first :: second :: rest,
                part.kept = true ∧ part.plain := by
            intro hlength hall
            rw [List.filter_eq_self.mpr fun part hpart =>
              (hall part hpart).1] at hlength
            simp only [List.length_cons] at hlength
            omega
          cases hkept : (first :: second :: rest).filter (·.kept) with
          | nil =>
              rw [hkept] at hfew
              exact readAs_no_and ⟨'o', _, rfl, by decide⟩ (hfew (by decide))
          | cons single others =>
              rw [hkept] at hfew hreads
              cases others with
              | nil =>
                  have hmem : single ∈
                      (first :: second :: rest).filter (·.kept) := by
                    rw [hkept]
                    exact List.mem_cons_self
                  exact readAs_no_and
                    (begins single (List.mem_of_mem_filter hmem))
                    (hfew (Nat.lt_succ_self 1))
              | cons other others =>
                  rw [List.flatMap_def] at hreads
                  exact hreads

end LdapServer

section Calls

variable (server : LdapServer)

theorem told_partOf {field : AttributeName} {value : FilterValue}
    {part : Ldap.Part} (h : partOf field value = some part)
    (dropped : part.kept = false) (filter : Ldap.Filter)
    (rest after : List Char) (hmeaning : filter.meaning = part.tree) :
    filter.text ++ rest ≠ LdapServer.anyObject ++ after := by
  intro htext
  cases tree_of_dropped field h dropped with
  | inl htree =>
      rw [htree] at hmeaning
      have hdecode := Ldap.decode_of_read objectClass.chars (by decide)
        hmeaning htext
      rw [Ldap.decode] at hdecode
      cases hdecode
  | inr htree =>
      rw [htree] at hmeaning
      obtain ⟨more, hmore⟩ := Ldap.text_of_or hmeaning
      rw [hmore] at htext
      cases htext

theorem begins_partOf {field : AttributeName} {value : FilterValue}
    {part : Ldap.Part} (h : partOf field value = some part) :
    ∃ c rest, part.text = '(' :: c :: rest ∧ c ≠ '&' := by
  cases text_partOf field h with
  | inl hitem =>
      obtain ⟨spelled, htext⟩ := hitem
      obtain ⟨c, chars, hchars, hc⟩ :=
        Ldap.itemText_cons field.key_ne_nil field.chars spelled
      refine ⟨c, chars, htext.trans hchars, ?_⟩
      intro heq
      rw [heq] at hc
      exact absurd hc (by decide)
  | inr hlist =>
      obtain ⟨spelled, rest, htext⟩ := hlist
      exact ⟨'|', _, htext, by decide⟩

theorem readAs_record (record : FilterRecord) :
    Ldap.ReadAs
      (LdapServer.specificText
        ((record.parts.filter (·.kept)).map (·.text)))
      (LdapCall.get record).asked (LdapCall.get record).Literal := by
  rw [LdapCall.asked, ← record.trees_parts]
  refine (LdapServer.readAs_specificText ?_ record.apart_parts ?_ ?_).congr
    record.literal_parts
  · intro part hpart
    obtain ⟨entry, _, hentry⟩ := FilterRecord.mem_parts hpart
    exact readAs_partOf entry.1 hentry
  · intro part hpart
    obtain ⟨entry, _, hentry⟩ := FilterRecord.mem_parts hpart
    exact begins_partOf hentry
  · intro part hpart
    obtain ⟨entry, _, hentry⟩ := FilterRecord.mem_parts hpart
    exact told_partOf hentry

theorem readAs_finalFilter {specific : List Char} {tree : Ldap.Tree}
    {plain : Prop} (h : Ldap.ReadAs specific tree plain) :
    Ldap.ReadAs (server.finalFilter specific)
      (.and [server.filter.meaning, tree]) plain := by
  have hparts := @Ldap.readAs_and
    [⟨server.filter.text, server.filter.meaning, true, True⟩,
      ⟨specific, tree, true, plain⟩] (List.cons_ne_nil _ _)
    (by
      intro part hpart _
      rw [List.mem_cons, List.mem_singleton] at hpart
      cases hpart with
      | inl heq =>
          subst heq
          exact Ldap.readAs_text server.filter
      | inr heq =>
          subst heq
          exact h)
    (pairwise_of_kept (by simp))
  simp only [List.filter_cons, List.filter_nil, if_true, List.flatMap_cons,
    List.flatMap_nil, List.append_nil, List.map_cons, List.map_nil,
    List.forall_mem_cons, true_and] at hparts
  exact hparts.congr (and_iff_left (List.forall_mem_nil _))

/-! The search for a text. -/

/-- A test of one attribute for a value. -/
def containingPart (value : SqlValue) (field : AttributeName) : Ldap.Part where
  text := LdapServer.compare field.name (if value.falsy then ['*']
    else '*' :: (value.toText.toList ++ ['*']))
  tree := field.containing value.toText
  kept := true
  plain := value ≠ .number 0 ∧ IsLiteral value.toText

theorem readAs_containingPart (value : SqlValue) (field : AttributeName) :
    Ldap.ReadAs (containingPart value field).text
      (containingPart value field).tree
      (containingPart value field).plain := by
  unfold containingPart AttributeName.containing
  dsimp only
  cases hfalsy : value.falsy with
  | false =>
      have htext : value.toText ≠ "" := by
        intro h
        rw [SqlValue.falsy_of_toText h] at hfalsy
        cases hfalsy
      have hnumber : value ≠ .number 0 := by
        intro h
        rw [h] at hfalsy
        cases hfalsy
      rw [if_neg htext]
      refine (Ldap.readAs_containing field.key_ne_nil field.chars
        value.toText.toList).congr ?_
      exact (and_iff_right hnumber).symm
  | true =>
      rw [if_pos rfl]
      cases SqlValue.eq_of_falsy hfalsy with
      | inl h =>
          subst h
          refine (Ldap.readAs_present field.key_ne_nil field.chars).congr ?_
          exact iff_of_true trivial ⟨SqlValue.noConfusion, rfl⟩
      | inr h =>
          subst h
          rw [if_neg (by decide)]
          constructor
          · intro plain
            exact absurd rfl plain.1
          · intro filter rest after hmeaning htext
            have hdecode := Ldap.decode_of_read field.chars (by decide)
              hmeaning htext
            rw [Ldap.decode, Ldap.decode] at hdecode
            cases hdecode

theorem readAs_matching {searchFields : List AttributeName}
    (nonempty : searchFields ≠ []) (value : SqlValue) :
    Ldap.ReadAs
      (LdapServer.joinFilters '|' (searchFields.map fun field =>
        (containingPart value field).text))
      (LdapCall.matching searchFields value).asked
      (LdapCall.matching searchFields value).Literal := by
  have hliteral : (value ≠ .number 0 ∧ IsLiteral value.toText) ↔
      (LdapCall.matching searchFields value).Literal :=
    (or_iff_right nonempty).symm
  refine Ldap.ReadAs.congr ?_ hliteral
  have hreads := @Ldap.readAs_or (searchFields.map (containingPart value))
    (mt List.map_eq_nil_iff.mp nonempty)
    (by
      intro part hpart _
      obtain ⟨field, _, rfl⟩ := List.mem_map.mp hpart
      exact readAs_containingPart value field)
  have hkept : ∀ part ∈ searchFields.map (containingPart value),
      part.kept = true := by
    intro part hpart
    obtain ⟨field, _, rfl⟩ := List.mem_map.mp hpart
    rfl
  have hread := hreads (pairwise_of_kept hkept)
  rw [List.filter_eq_self.mpr hkept, List.flatMap_map, List.map_map] at hread
  cases searchFields with
  | nil => exact absurd rfl nonempty
  | cons first rest =>
      cases rest with
      | nil => exact readAs_containingPart value first
      | cons second rest =>
          rw [List.flatMap_def] at hread
          refine hread.congr ?_
          rw [List.forall_mem_map]
          constructor
          · intro h
            exact (h first List.mem_cons_self).2
          · intro h field _
            exact ⟨rfl, h⟩

theorem meant_of_text {call : LdapCall} {text : List Char}
    (h : call.text server = some text) :
    call.Meant server ↔
      ∃ filter, Ldap.parse text = some filter ∧
        filter.meaning = call.intended server := by
  unfold LdapCall.Meant
  rw [h]
  simp only [Option.some.injEq, forall_eq']

end Calls

/-- The filter that is sent asks what is meant exactly when the values have no
character with a meaning in a filter. -/
theorem meant_iff (server : LdapServer) (call : LdapCall) :
    call.Meant server ↔ call.Literal := by
  cases call with
  | get record =>
      have htext : (LdapCall.get record).text server =
          some (server.finalFilter (LdapServer.specificText
            ((record.parts.filter (·.kept)).map (·.text)))) := by
        rw [LdapCall.text, LdapServer.specificFilter_record]
        rfl
      rw [meant_of_text server htext]
      exact (readAs_finalFilter server (readAs_record record)).parse_iff
  | matching searchFields value =>
      cases hfields : searchFields with
      | nil =>
          refine iff_of_true ?_ (.inl rfl)
          intro text htext
          cases htext
      | cons first rest =>
          have hnonempty : first :: rest ≠ [] := List.cons_ne_nil first rest
          have htext : (LdapCall.matching (first :: rest) value).text server =
              some (server.finalFilter (LdapServer.joinFilters '|'
                ((first :: rest).map fun field =>
                  (containingPart value field).text))) := by
            rw [LdapCall.text, LdapServer.searchFilter, List.map_map]
            rfl
          rw [meant_of_text server htext]
          exact (readAs_finalFilter server
            (readAs_matching hnonempty value)).parse_iff

/-! A search word with brackets. -/

theorem uid_named : "uid" ≠ "" := by
  decide

theorem uid_chars : "uid".toList.all Ldap.isKeyChar = true := by
  decide

def uid : AttributeName where
  name := "uid"
  named := uid_named
  chars := uid_chars

def anyObjectItem : Ldap.Item where
  key := objectClass.key
  rule := []
  value := ['*']
  named := objectClass.key_ne_nil
  keyChars := objectClass.chars
  ruleChars := Ldap.ruleChars_nil
  ruleStart := Ldap.ruleStart_nil
  valueChars := by decide
  escapes := by decide

/-- The filter when none is configured, `(objectClass=*)`. -/
def plainDirectory : LdapServer where
  filter := .item anyObjectItem
  attributeOf := id
  holds _ value values := values.contains (String.ofList value)

def uidTest (value : List Char)
    (valueChars : value.all Ldap.isValueChar = true)
    (escapes : Ldap.escapesWell value = true) : Ldap.Filter :=
  .item ⟨uid.key, [], value, uid.key_ne_nil, uid.chars, Ldap.ruleChars_nil,
    Ldap.ruleStart_nil, valueChars, escapes⟩

def bracketSearch : LdapCall := .matching [uid] (.text "a)(uid=b")

/-- `(&(objectClass=*)(uid=*a)(uid=b*))` -/
def bracketFilter : Ldap.Filter :=
  .and (.more (.item anyObjectItem)
    (.more (uidTest ['*', 'a'] (by decide) (by decide))
      (.last (uidTest ['b', '*'] (by decide) (by decide)))))

/-- One test for a text with brackets is read as two tests. -/
theorem brackets_make_two_tests :
    bracketSearch.text plainDirectory = some bracketFilter.text ∧
      Ldap.parse bracketFilter.text = some bracketFilter ∧
      bracketFilter.meaning = .and
        [objectClass.present,
          .test uid.key [] (none :: Ldap.literally ['a']),
          .test uid.key [] (Ldap.literally ['b'] ++ [none])] ∧
      ¬ bracketSearch.Meant plainDirectory := by
  have htext : bracketSearch.text plainDirectory =
      some bracketFilter.text := by
    decide
  have hparse := Ldap.parse_text bracketFilter
  refine ⟨htext, hparse, ?_, ?_⟩
  · simp [bracketFilter, uidTest, Ldap.Filter.meaning, Ldap.Filters.meanings,
      Ldap.decode, anyObjectItem, AttributeName.present, Ldap.literally,
      Utf8.encode, Ldap.charBytes]
  · intro meant
    obtain ⟨filter, hfilter, hmeaning⟩ := meant _ htext
    rw [hparse] at hfilter
    cases hfilter
    rw [bracketFilter, Ldap.Filter.meaning, LdapCall.intended] at hmeaning
    simp [Ldap.Filters.meanings] at hmeaning

end TwakeKickstart.IdentityServer
