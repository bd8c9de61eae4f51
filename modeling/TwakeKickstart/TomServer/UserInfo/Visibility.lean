import TwakeKickstart.IdentityServer.UserDbAttribute
import TwakeKickstart.TomServer.UserInfo.Batch
import TwakeKickstart.TomServer.UserInfo.Service

namespace TwakeKickstart.TomServer.UserInfo

open Library Utils
open Addressbook (Contact truthy)
open IdentityServer (DirectoryRow Entry)

/-! A field that is not visible to the viewer: the sources may have any value
for it. -/

/-- The attribute of the directory that holds the field. -/
def ProfileField.attributeName : ProfileField → String
  | phone => "mobile"
  | email => "mail"

def SettingsPayload.without : ProfileField → SettingsPayload → SettingsPayload
  | .phone, payload => { payload with phone := none }
  | .email, payload => { payload with email := none }

/-- The settings of the user agree but for the field. -/
def UserSettings.Changed (field : ProfileField) (id : String)
    (row row' : UserSettings) : Prop :=
  row = row' ∨ row.matrixId = id ∧ row'.matrixId = id ∧
    row.settings.map (·.without field) = row'.settings.map (·.without field)

/-- The entry is one of the user, and agrees but for the field. -/
def ChangedEntry (field : ProfileField) (id : String) (entry entry' : Entry) :
    Prop :=
  entry = entry' ∨
    (∃ localPart, localPartOf id = some localPart ∧
      localPart ∈ entry.values "uid") ∧
    entry.SameBut field.attributeName entry'

/-- The states of the sources agree but for the field of the user. -/
structure AgreeBut (field : ProfileField) (id : String)
    (sources sources' : Sources) : Prop where
  profiles : sources.profiles = sources'.profiles
  backend : sources.users.backend = sources'.users.backend
  entries : List.Forall₂ (ChangedEntry field id) sources.users.entries
    sources'.users.entries
  settings : List.Forall₂ (UserSettings.Changed field id) sources.settings
    sources'.settings
  profileSettings : sources.profileSettings = sources'.profileSettings
  addressbook : sources.addressbook = sources'.addressbook

def storedSettings (sources : Sources) (id : String) :
    Option UserProfileSettingsPayload :=
  (lastWith (fun row => some row.matrixId) id sources.profileSettings).map
    (·.payload)

/-- The viewer is another user, to whom the settings, stored or default, do not
show the field. -/
def Hidden (config : Config) (sources : Sources) (viewer : Option String)
    (id : String) (field : ProfileField) : Prop :=
  let settings :=
    (storedSettings sources id).getD config.defaultVisibilitySettings
  viewer ≠ some id ∧ ¬ (isIdProfileVisible config viewer id settings = true ∧
    settings.visibleFields.any (·.includes field) = true)

/-! The merge does not look at the field. -/

structure RowsAgree (field : ProfileField) (rows rows' : UserRows) :
    Prop where
  matrix : rows.matrix = rows'.matrix
  directory : Option.Rel (DirectoryRow.SameBut field.attributeName)
    rows.directory rows'.directory
  settings : rows.settings.map (·.without field) =
    rows'.settings.map (·.without field)
  profile : rows.profile = rows'.profile
  contact : rows.contact = rows'.contact

section Merge

variable {field : ProfileField} {rows rows' : UserRows}

theorem RowsAgree.entry (agree : RowsAgree field rows rows') :
    rows.entry.SameBut field.attributeName rows'.entry := by
  have hdirectory := agree.directory
  unfold UserRows.entry
  revert hdirectory
  generalize rows.directory = row
  generalize rows'.directory = row'
  intro hdirectory
  cases hdirectory with
  | none => exact fun _ _ => rfl
  | some hsame => exact hsame

theorem RowsAgree.payload (agree : RowsAgree field rows rows') :
    rows.payload.without field = rows'.payload.without field := by
  have hsettings := congrArg (·.getD {}) agree.settings
  have hempty : ({} : SettingsPayload).without field = {} := by
    cases field <;> rfl
  rw [← hempty, Option.getD_map, Option.getD_map] at hsettings
  exact hsettings

theorem gathered_hides {visible : ProfileField → Bool} (id : String)
    (hidden : visible field = false) (agree : RowsAgree field rows rows') :
    gathered visible id rows = gathered visible id rows' := by
  have hentry := agree.entry
  have hpayload := agree.payload
  have hprofile : rows.profileRow = rows'.profileRow := by
    rw [UserRows.profileRow, UserRows.profileRow, agree.matrix]
  have hcontact : rows.contactName = rows'.contactName := by
    rw [UserRows.contactName, UserRows.contactName, agree.contact]
  have hshown : ∀ value, shown false value = none := by simp [shown]
  have hsn := hentry "sn" (by cases field <;> decide)
  have hcn := hentry "cn" (by cases field <;> decide)
  have hgivenname := hentry "givenname" (by cases field <;> decide)
  have hgivenName := hentry "givenName" (by cases field <;> decide)
  have hworkplace := hentry "workplaceFqdn" (by cases field <;> decide)
  rw [gathered_eq, gathered_eq]
  unfold localName UserRows.given
  rw [hprofile, hcontact, hsn, hcn, hgivenname, hgivenName, hworkplace]
  cases field with
  | email =>
      obtain ⟨hlanguage, htimezone, hlast, hfirst, -, hphone, hname⟩ :=
        SettingsPayload.mk.inj hpayload
      rw [hentry "mobile" (by decide), hlanguage, htimezone, hlast, hfirst,
        hphone, hname, hidden, hshown, hshown]
      rfl
  | phone =>
      obtain ⟨hlanguage, htimezone, hlast, hfirst, hemail, -, hname⟩ :=
        SettingsPayload.mk.inj hpayload
      rw [hentry "mail" (by decide), hlanguage, htimezone, hlast, hfirst,
        hemail, hname, hidden, hshown, hshown]
      rfl

theorem mergeUser_hides {config : Config} {viewer : Option String} (id : String)
    (hidden : shows config viewer id rows field = false)
    (agree : RowsAgree field rows rows') :
    mergeUser config viewer id rows = mergeUser config viewer id rows' := by
  have hshows : shows config viewer id rows' = shows config viewer id rows := by
    unfold shows profileSettingsOf
    rw [agree.profile]
  have hskipped : isSkipped config rows = isSkipped config rows' := by
    rw [isSkipped, isSkipped, agree.matrix, agree.contact]
  rw [mergeUser, mergeUser, hshows, hskipped, gathered_hides id hidden agree]

end Merge

section Sources

variable {config : Config} {sources sources' : Sources}
variable {viewer : Option String} {field : ProfileField} {id : String}

theorem uid_ne_attributeName (field : ProfileField) :
    "uid" ≠ field.attributeName := by
  cases field <;> decide

theorem ChangedEntry.changed {entry entry' : Entry}
    (h : ChangedEntry field id entry entry') :
    entry.Changed field.attributeName entry' := by
  refine h.imp_right fun ⟨⟨localPart, _, huid⟩, hsame⟩ => ⟨?_, hsame⟩
  rw [Entry.first, Ne, List.head?_eq_none_iff]
  exact List.ne_nil_of_mem huid

theorem AgreeBut.entries_changed (agree : AgreeBut field id sources sources') :
    List.Forall₂ (Entry.Changed field.attributeName) sources.users.entries
      sources'.users.entries :=
  agree.entries.imp fun _ _ h => h.changed

theorem viewerContacts_hides {values : List String}
    (agree : AgreeBut field id sources sources')
    (untested : sources.users.backend.Untested field.attributeName values) :
    viewerContacts config sources viewer =
      viewerContacts config sources' viewer := by
  have hanswers := IdentityServer.UserDb.getAll_agrees agree.backend
    agree.entries_changed (uid_ne_attributeName field)
    (show "uid" ∈ contactFields from List.mem_cons_self) untested
  have hentries : (sources.users.getAll contactFields).map (·.map userEntry) =
      (sources'.users.getAll contactFields).map (·.map userEntry) := by
    unfold IdentityServer.AnswersAgree at hanswers
    revert hanswers
    generalize sources.users.getAll contactFields = answer
    generalize sources'.users.getAll contactFields = answer'
    intro hanswers
    cases hanswers with
    | none => rfl
    | some hrows =>
        rename_i rows rows'
        have hsame : List.Forall₂ (· = ·) (rows.map userEntry)
            (rows'.map userEntry) := by
          rw [List.forall₂_map_left_iff, List.forall₂_map_right_iff]
          refine hrows.imp fun row row' hrow => ?_
          rw [userEntry, userEntry, hrow "uid" (by cases field <;> decide),
            hrow "cn" (by cases field <;> decide),
            hrow "displayName" (by cases field <;> decide)]
        rw [List.forall₂_eq_eq_eq] at hsame
        rw [Option.map_some, Option.map_some, hsame]
  unfold viewerContacts
  rw [agree.addressbook, hentries]

theorem UserSettings.Changed.payload {row row' : UserSettings}
    (h : row.Changed field id row') :
    row.settings.map (·.without field) =
      row'.settings.map (·.without field) := by
  rcases h with rfl | ⟨_, _, hpayload⟩
  · rfl
  · exact hpayload

theorem settings_hides {rows rows' : List UserSettings}
    (h : List.Forall₂ (UserSettings.Changed field id) rows rows') :
    ((lastWith (fun row => some row.matrixId) id
        (rows.filter (·.settings.isSome))).bind (·.settings)).map
        (·.without field) =
      ((lastWith (fun row => some row.matrixId) id
        (rows'.filter (·.settings.isSome))).bind (·.settings)).map
        (·.without field) := by
  have hfilter : List.Forall₂ (UserSettings.Changed field id)
      (rows.filter (·.settings.isSome)) (rows'.filter (·.settings.isSome)) := by
    refine List.rel_filter (fun row row' hrow => ?_) h
    have hsome := congrArg Option.isSome hrow.payload
    rw [Option.isSome_map, Option.isSome_map] at hsome
    dsimp only
    rw [hsome]
  have hlast : Option.Rel (UserSettings.Changed field id)
      (lastWith (fun row => some row.matrixId) id
        (rows.filter (·.settings.isSome)))
      (lastWith (fun row => some row.matrixId) id
        (rows'.filter (·.settings.isSome))) := by
    refine rel_lastWith hfilter fun row row' hrow => ?_
    rcases hrow with rfl | ⟨hid, hid', _⟩
    · rfl
    · rw [hid, hid']
  revert hlast
  generalize lastWith (fun row : UserSettings => some row.matrixId) id
    (rows.filter (·.settings.isSome)) = last
  generalize lastWith (fun row : UserSettings => some row.matrixId) id
    (rows'.filter (·.settings.isSome)) = last'
  intro hlast
  cases hlast with
  | none => rfl
  | some hrow => exact hrow.payload

theorem rowsWith_hides {values : List String} {localPart : String}
    {directoryRows directoryRows' : List DirectoryRow}
    (agree : AgreeBut field id sources sources')
    (untested : sources.users.backend.Untested field.attributeName values)
    (answers : List.Forall₂ (DirectoryRow.SameBut field.attributeName)
      directoryRows directoryRows') :
    RowsAgree field
      (rowsWith config sources viewer directoryRows id localPart)
      (rowsWith config sources' viewer directoryRows' id localPart) := by
  refine ⟨?_, ?_, ?_, ?_, ?_⟩
  · simp only [rowsWith, Sources.rows, Fetched.rows, agree.profiles]
  · exact rel_lastWith answers fun row row' hsame =>
      hsame "uid" (uid_ne_attributeName field)
  · refine settings_hides ?_
    split
    · exact agree.settings
    · exact .nil
  · simp only [rowsWith, Sources.rows, Fetched.rows, agree.profileSettings]
  · simp only [rowsWith, Sources.rows, Fetched.rows,
      @viewerContacts_hides config sources sources' viewer field id values agree
        untested]

theorem shows_of_hidden (hidden : Hidden config sources viewer id field)
    (directoryRows : List DirectoryRow) (localPart : String) :
    shows config viewer id
      (rowsWith config sources viewer directoryRows id localPart) field =
        false := by
  obtain ⟨hviewer, hsettings⟩ := hidden
  rw [shows, Bool.or_eq_false_iff]
  refine ⟨beq_eq_false_iff_ne.mpr hviewer, ?_⟩
  rw [← Bool.not_eq_true, Bool.and_eq_true]
  exact hsettings

/-- What a hidden field holds does not show in the record of the user, whoever
else is asked for, while the directory is not asked about it. -/
theorem getBatch_hides {ids : List String}
    (agree : AgreeBut field id sources sources')
    (hidden : Hidden config sources viewer id field)
    (untested : sources.users.backend.Untested field.attributeName
      ((validIds ids).map Prod.snd)) (h : id ∈ ids) :
    (getBatch config sources ids viewer).map (·.lookup id) =
      (getBatch config sources' ids viewer).map (·.lookup id) := by
  rw [getBatch_eq, getBatch_eq]
  split
  · rfl
  · rename_i hnonempty
    have hnamed := localParts_ne_empty (validIds_named ids)
    have hanswers := IdentityServer.UserDb.get_agrees agree.backend
      agree.entries_changed (uid_ne_attributeName field) uid_asked
      (by simpa using hnonempty) hnamed untested
    unfold IdentityServer.AnswersAgree at hanswers
    unfold directoryAnswer
    revert hanswers
    generalize sources.users.get directoryFields
      [("uid", .strings ((validIds ids).map Prod.snd))] = answer
    generalize sources'.users.get directoryFields
      [("uid", .strings ((validIds ids).map Prod.snd))] = answer'
    intro hanswers
    cases hanswers with
    | none => rfl
    | some hrows =>
        simp only [Option.map_some, Option.some.injEq]
        rw [lookup_filterMap _ _ (List.mem_eraseDups.mpr h),
          lookup_filterMap _ _ (List.mem_eraseDups.mpr h)]
        unfold recordWith
        refine Option.bind_congr fun localPart _ => ?_
        exact mergeUser_hides id (shows_of_hidden hidden _ _)
          (rowsWith_hides agree untested hrows)

end Sources

/-! Bob may not see the address of Alice. -/

def aliceMoved : Entry :=
  [("objectClass", ["person"]), ("uid", ["alice"]), ("cn", ["Alice"]),
    ("mail", ["alice@example.com"])]

def bob : Option String := some "@bob:example.org"

theorem alice_hidden :
    Hidden sampleConfig (sampleSources [aliceEntry]) bob "@alice:example.org"
      .email :=
  ⟨by decide, by decide⟩

theorem alice_agrees :
    AgreeBut .email "@alice:example.org" (sampleSources [aliceEntry])
      (sampleSources [aliceMoved]) where
  profiles := rfl
  backend := rfl
  entries := by
    refine .cons (.inr ⟨⟨"alice", by decide, by decide⟩, ?_⟩) .nil
    intro other hother
    have hmail : (other == "mail") = false := beq_eq_false_iff_ne.mpr hother
    simp [Entry.values, aliceEntry, aliceMoved, List.lookup_cons, hmail]
  settings := .nil
  profileSettings := rfl
  addressbook := rfl

theorem getBatch_hides_alice :
    (getBatch sampleConfig (sampleSources [aliceEntry])
        ["@alice:example.org"] bob).map (·.lookup "@alice:example.org") =
      (getBatch sampleConfig (sampleSources [aliceMoved])
        ["@alice:example.org"] bob).map (·.lookup "@alice:example.org") := by
  refine getBatch_hides alice_agrees alice_hidden ?_ List.mem_cons_self
  refine IdentityServer.UserBackend.untested_of_plain (by decide)
    (by decide) (by decide) ?_ fun server hserver => ?_
  · change ∀ value ∈ _, _
    decide
  · cases hserver
    exact ⟨rfl, by decide⟩

theorem recordWith_bob {entries : List Entry} {rows : List DirectoryRow}
    {id localPart : String} (h : localPartOf id = some localPart) :
    recordWith sampleConfig (sampleSources entries) bob rows id =
      mergeUser sampleConfig bob id
        { Fetched.rows ⟨[], [], [], [], []⟩ id localPart with
          directory := lastWith (fun row => row.lookup "uid") localPart
            rows } := by
  have hcontacts : viewerContacts sampleConfig (sampleSources entries) bob =
      [] := by
    rw [bob, viewerContacts, if_neg (by decide), Addressbook.listedContacts,
      Addressbook.answeredContacts, if_neg (by decide)]
    simp [Addressbook.mergeContacts, Addressbook.sortByStringField,
      Addressbook.listAddressbookContacts, Addressbook.bookOf,
      Addressbook.deduplicateByMxid, sampleSources]
  rw [recordWith, h, Option.bind_some, rowsWith, Sources.rows, hcontacts]
  rfl

/-- An ID that asks for the address along with Alice tells whether it is
hers. -/
theorem address_of_alice_tested :
    ¬ ∀ (config : Config) (sources sources' : Sources) (ids : List String)
      (viewer : Option String) (id : String) (field : ProfileField),
      AgreeBut field id sources sources' →
      Hidden config sources viewer id field → id ∈ ids →
      (getBatch config sources ids viewer).map (·.lookup id) =
        (getBatch config sources' ids viewer).map (·.lookup id) := by
  intro hides
  have hsame := hides sampleConfig (sampleSources [aliceEntry])
    (sampleSources [aliceMoved])
    ["@alice:example.org", "@x))(&(mail=alice@example.org:example.org"] bob
    "@alice:example.org" .email alice_agrees alice_hidden List.mem_cons_self
  have hvalid : validIds ["@alice:example.org",
      "@x))(&(mail=alice@example.org:example.org"] =
      [("@alice:example.org", "alice"),
        ("@x))(&(mail=alice@example.org:example.org",
          "x))(&(mail=alice@example.org")] := by
    decide
  have hspecific : IdentityServer.LdapServer.specificFilter
      [("uid", .strings ["alice", "x))(&(mail=alice@example.org"])] =
      some "(|(uid=alice)(uid=x))(&(mail=alice@example.org))".toList := by
    decide
  have hinjected : localPartOf
      "@x))(&(mail=alice@example.org:example.org" =
      some "x))(&(mail=alice@example.org" := by
    decide
  have hfound : getBatch sampleConfig (sampleSources [aliceEntry])
      ["@alice:example.org", "@x))(&(mail=alice@example.org:example.org"]
      bob = some [("@alice:example.org", aliceInfo)] := by
    have hanswer : directoryAnswer (sampleSources [aliceEntry])
        [("@alice:example.org", "alice"),
          ("@x))(&(mail=alice@example.org:example.org",
            "x))(&(mail=alice@example.org")] = some [aliceRow] := by
      refine Eq.trans (directoryAnswer_sample hspecific) ?_
      decide
    rw [getBatch_eq, hvalid, if_neg (List.cons_ne_nil _ _), hanswer,
      Option.map_some]
    change some (List.filterMap (fun id => (recordWith sampleConfig
      (sampleSources [aliceEntry]) bob [aliceRow] id).map (id, ·))
        ["@alice:example.org",
          "@x))(&(mail=alice@example.org:example.org"]) = _
    rw [List.filterMap_cons, List.filterMap_cons, recordWith_bob
      localPartOf_alice, recordWith_bob hinjected]
    rfl
  have hmissing : getBatch sampleConfig (sampleSources [aliceMoved])
      ["@alice:example.org", "@x))(&(mail=alice@example.org:example.org"]
      bob = some [] := by
    have hanswer : directoryAnswer (sampleSources [aliceMoved])
        [("@alice:example.org", "alice"),
          ("@x))(&(mail=alice@example.org:example.org",
            "x))(&(mail=alice@example.org")] = some [] := by
      refine Eq.trans (directoryAnswer_sample hspecific) ?_
      decide
    rw [getBatch_eq, hvalid, if_neg (List.cons_ne_nil _ _), hanswer,
      Option.map_some]
    change some (List.filterMap (fun id => (recordWith sampleConfig
      (sampleSources [aliceMoved]) bob [] id).map (id, ·))
        ["@alice:example.org",
          "@x))(&(mail=alice@example.org:example.org"]) = _
    rw [List.filterMap_cons, List.filterMap_cons, recordWith_bob
      localPartOf_alice, recordWith_bob hinjected]
    rfl
  rw [hfound, hmissing] at hsame
  cases hsame

end TwakeKickstart.TomServer.UserInfo
