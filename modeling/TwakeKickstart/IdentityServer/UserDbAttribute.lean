import TwakeKickstart.IdentityServer.UserDb

namespace TwakeKickstart.IdentityServer

open Library

/-! Directories that differ in one attribute of some entries, and what their
answers have in common. -/

/-- The entries agree but for one attribute. -/
def Entry.SameBut (key : String) (entry entry' : Entry) : Prop :=
  ∀ other, other ≠ key → entry.values other = entry'.values other

def DirectoryRow.SameBut (key : String) (row row' : DirectoryRow) : Prop :=
  ∀ other, other ≠ key → row.lookup other = row'.lookup other

/-- Entries that differ have a user ID. -/
def Entry.Changed (key : String) (entry entry' : Entry) : Prop :=
  entry = entry' ∨ entry.first "uid" ≠ none ∧ entry.SameBut key entry'

variable {key : String} {entry entry' : Entry} {fields : List String}

theorem Entry.Changed.sameBut (h : entry.Changed key entry') :
    entry.SameBut key entry' := by
  rcases h with rfl | ⟨_, hsame⟩
  · exact fun _ _ => rfl
  · exact hsame

theorem Entry.SameBut.first (h : entry.SameBut key entry') {other : String}
    (visible : other ≠ key) : entry.first other = entry'.first other := by
  rw [Entry.first, Entry.first, h other visible]

theorem Entry.SameBut.row (h : entry.SameBut key entry') :
    (entry.row fields).SameBut key (entry'.row fields) := by
  intro other visible
  by_cases hasked : other ∈ fields
  · rw [lookup_row hasked, lookup_row hasked, h.first visible]
  · have hmissing : ∀ entry : Entry,
        (entry.row fields).lookup other = none := by
      intro entry
      refine List.lookup_eq_none_iff.mpr fun pair hpair => ?_
      obtain ⟨field, hfield, hmap⟩ := List.mem_filterMap.mp hpair
      obtain ⟨value, _, rfl⟩ := Option.map_eq_some_iff.mp hmap
      refine bne_iff_ne.mpr fun heq => hasked ?_
      rw [heq]
      exact hfield
    rw [hmissing, hmissing]

theorem isEmpty_row_of_first {name : String} (asked : name ∈ fields)
    (there : entry.first name ≠ none) : (entry.row fields).isEmpty = false := by
  cases hrow : entry.row fields with
  | nil =>
      have hlookup := lookup_row asked entry
      rw [hrow] at hlookup
      exact absurd hlookup.symm there
  | cons _ _ => rfl

theorem Entry.Changed.isEmpty_row (h : entry.Changed key entry')
    (hidden : "uid" ≠ key) (asked : "uid" ∈ fields) :
    (entry.row fields).isEmpty = (entry'.row fields).isEmpty := by
  rcases h with rfl | ⟨hthere, hsame⟩
  · rfl
  · rw [isEmpty_row_of_first asked hthere, isEmpty_row_of_first asked]
    rw [← hsame.first hidden]
    exact hthere

/-- The names that stand for the attribute. -/
def LdapServer.names (server : LdapServer) (key : String)
    (name : List Char) : Bool :=
  server.attributeOf (String.ofList name) == key

theorem Entry.SameBut.selects {server : LdapServer}
    (h : entry.SameBut key entry') {filter : Ldap.Filter}
    (untested : filter.mentions (server.names key) = false) :
    filter.selects (server.holdsFor entry) =
      filter.selects (server.holdsFor entry') := by
  refine Ldap.Filter.selects_congr (fun item hitem => ?_) filter untested
  have hvisible : server.attributeOf (String.ofList item.key) ≠ key := by
    simpa [LdapServer.names] using hitem
  rw [LdapServer.holdsFor, LdapServer.holdsFor, h _ hvisible]

section Answers

variable {entries entries' : List Entry}

/-- The answers are rejected alike, or agree row by row. -/
def AnswersAgree (key : String) : Option (List DirectoryRow) →
    Option (List DirectoryRow) → Prop :=
  Option.Rel (List.Forall₂ (DirectoryRow.SameBut key))

theorem rel_rows (selected : Entry → Bool)
    (h : List.Forall₂ (Entry.Changed key) entries entries')
    (same : ∀ entry entry' : Entry, entry.Changed key entry' →
      selected entry = selected entry') :
    List.Forall₂ (fun entry entry' : Entry => entry.Changed key entry')
      (entries.filter selected) (entries'.filter selected) :=
  List.rel_filter (fun entry entry' hchanged => by
    dsimp only
    rw [same entry entry' hchanged]) h

theorem LdapServer.search_agrees (server : LdapServer)
    (h : List.Forall₂ (Entry.Changed key) entries entries')
    (hidden : "uid" ≠ key) (asked : "uid" ∈ fields) {text : List Char}
    (untested : ∀ filter, Ldap.parse text = some filter →
      filter.mentions (server.names key) = false) :
    AnswersAgree key (server.search entries fields text)
      (server.search entries' fields text) := by
  unfold LdapServer.search
  cases hparse : Ldap.parse text with
  | none => exact .none
  | some filter =>
      refine .some ?_
      have hentries := rel_rows
        (fun entry => filter.selects (server.holdsFor entry)) h
        fun entry entry' hchanged =>
          hchanged.sameBut.selects (untested filter hparse)
      dsimp only
      rw [List.filter_map, List.filter_map, List.forall₂_map_left_iff,
        List.forall₂_map_right_iff]
      refine (List.rel_filter (fun entry entry' hchanged => ?_) hentries).imp
        fun _ _ hchanged => hchanged.sameBut.row
      dsimp only [Function.comp_apply]
      rw [hchanged.isEmpty_row hidden asked]

/-- What is asked of an LDAP server for user IDs tests other attributes. -/
def UserBackend.Untested (key : String) (values : List String) :
    UserBackend → Prop
  | .ldap server =>
      server.filter.mentions (server.names key) = false ∧
      ∀ specific filter,
        LdapServer.specificFilter [("uid", .strings values)] = some specific →
        Ldap.parse (server.finalFilter specific) = some filter →
        filter.mentions (server.names key) = false
  | _ => True

theorem UserDb.get_agrees {db db' : UserDb} {values : List String}
    (backend : db.backend = db'.backend)
    (h : List.Forall₂ (Entry.Changed key) db.entries db'.entries)
    (hidden : "uid" ≠ key) (asked : "uid" ∈ fields)
    (nonempty : values ≠ []) (named : ∀ value ∈ values, value ≠ "")
    (untested : db.backend.Untested key values) :
    AnswersAgree key (db.get fields [("uid", .strings values)])
      (db'.get fields [("uid", .strings values)]) := by
  unfold UserDb.get
  rw [← backend]
  cases hbackend : db.backend with
  | empty => exact .some .nil
  | sql engine =>
      obtain ⟨statement, hstatement, hselects⟩ :=
        getStatement_strings fields "uid" nonempty named
      rw [hstatement]
      refine .some ?_
      rw [List.forall₂_map_left_iff, List.forall₂_map_right_iff]
      refine (rel_rows _ h fun entry entry' hchanged => ?_).imp
        fun _ _ hchanged => hchanged.sameBut.row
      rw [hselects, hselects, Entry.cell, Entry.cell,
        hchanged.sameBut.first hidden]
  | ldap server =>
      rw [hbackend] at untested
      cases hspecific :
          LdapServer.specificFilter [("uid", .strings values)] with
      | none => exact .none
      | some specific =>
          exact server.search_agrees h hidden asked fun filter hparse =>
            untested.2 specific filter hspecific hparse

theorem UserDb.getAll_agrees {db db' : UserDb} {values : List String}
    (backend : db.backend = db'.backend)
    (h : List.Forall₂ (Entry.Changed key) db.entries db'.entries)
    (hidden : "uid" ≠ key) (asked : "uid" ∈ fields)
    (untested : db.backend.Untested key values) :
    AnswersAgree key (db.getAll fields) (db'.getAll fields) := by
  unfold UserDb.getAll
  rw [← backend]
  cases hbackend : db.backend with
  | empty => exact .some .nil
  | sql engine =>
      refine .some ?_
      rw [List.forall₂_map_left_iff, List.forall₂_map_right_iff]
      exact h.imp fun _ _ hchanged => hchanged.sameBut.row
  | ldap server =>
      rw [hbackend] at untested
      refine server.search_agrees h hidden asked fun filter hparse => ?_
      rw [Ldap.parse_text] at hparse
      rw [← Option.some.inj hparse]
      exact untested.1

end Answers

theorem UserBackend.untested_of_plain {backend : UserBackend}
    {values : List String} (nonempty : values ≠ [])
    (named : ∀ value ∈ values, value ≠ "") (hidden : "uid" ≠ key)
    (plain : backend.Plain values)
    (ignored : ∀ server, backend = .ldap server →
      server.attributeOf "uid" = "uid" ∧
        server.filter.mentions (server.names key) = false) :
    backend.Untested key values := by
  cases backend with
  | empty => trivial
  | sql engine => trivial
  | ldap server =>
      obtain ⟨huid, hfilter⟩ := ignored server rfl
      refine ⟨hfilter, fun specific filter hspecific hparse => ?_⟩
      lift values to List PlainValue using plain
      cases values with
      | nil => exact absurd rfl nonempty
      | cons first rest =>
          obtain ⟨own, hown, htext⟩ := Option.map_eq_some_iff.mp
            (finalFilter_uid server first rest fun value hvalue =>
              named value.val (List.mem_map_of_mem hvalue))
          rw [hspecific] at hown
          cases hown
          rw [htext, Ldap.parse_text] at hparse
          rw [← Option.some.inj hparse, Ldap.Filter.mentions,
            Ldap.Filters.mention, Ldap.Filters.mention, hfilter,
            Bool.false_or, uidFilter, Ldap.Filter.mentions,
            Ldap.mention_ofCons, List.any_eq_false]
          intro item hitem
          have hname : ∀ value : PlainValue,
              (Ldap.Filter.item (uidItem value)).mentions
                (server.names key) = false := by
            intro value
            rw [Ldap.Filter.mentions, LdapServer.names, uidItem,
              String.ofList_toList, huid]
            exact beq_eq_false_iff_ne.mpr hidden
          rcases List.mem_cons.mp hitem with rfl | hrest
          · rw [hname]
            exact Bool.false_ne_true
          · obtain ⟨value, _, rfl⟩ := List.mem_map.mp hrest
            rw [hname]
            exact Bool.false_ne_true

end TwakeKickstart.IdentityServer
