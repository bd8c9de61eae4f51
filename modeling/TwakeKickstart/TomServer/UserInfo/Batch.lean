import TwakeKickstart.TomServer.UserInfo.Service

namespace TwakeKickstart.TomServer.UserInfo

open Library Utils
open Addressbook (Contact)
open IdentityServer (DirectoryRow Entry getStatement getStatement_strings)

/-! What is known about one user: the record that the whole tables give,
whichever users it is asked for with. -/

variable {config : Config} {sources : Sources} {viewer : Option String}

def Sources.rows (config : Config) (sources : Sources)
    (viewer : Option String) (id localPart : String) : UserRows :=
  Fetched.rows
    { matrixRows := sources.profiles
      directoryRows := sources.users.listed.map (Entry.row directoryFields)
      settingsRows :=
        if config.enableCommonSettings then sources.settings else []
      profileSettingsRows := sources.profileSettings
      contacts := viewerContacts config sources viewer } id localPart

def record (config : Config) (sources : Sources) (viewer : Option String)
    (id : String) : Option UserInformation :=
  (localPartOf id).bind fun localPart =>
    mergeUser config viewer id (sources.rows config viewer id localPart)

theorem uid_asked : "uid" ∈ directoryFields := List.mem_cons_self

theorem localPartOf_ne_empty {id localPart : String}
    (h : localPartOf id = some localPart) : localPart ≠ "" :=
  bne_iff_ne.mp (Option.filter_eq_some_iff.mp h).2

theorem ne_empty_of_localPartOf {id localPart : String}
    (h : localPartOf id = some localPart) : id ≠ "" := by
  rintro rfl
  cases h

theorem mem_validIds {ids : List String} {id localPart : String} :
    (id, localPart) ∈ validIds ids ↔
      id ∈ ids ∧ localPartOf id = some localPart := by
  rw [validIds, List.mem_filterMap]
  constructor
  · rintro ⟨other, hother, hmap⟩
    obtain ⟨found, hfound, hpair⟩ := Option.map_eq_some_iff.mp hmap
    cases hpair
    exact ⟨List.mem_eraseDups.mp hother, hfound⟩
  · rintro ⟨hid, hlocalPart⟩
    exact ⟨id, List.mem_eraseDups.mpr hid, by rw [hlocalPart]; rfl⟩

theorem validIds_named (ids : List String) :
    ∀ pair ∈ validIds ids, localPartOf pair.1 = some pair.2 :=
  fun _ hpair => (mem_validIds.mp hpair).2

theorem localParts_ne_empty {valid : List (String × String)}
    (named : ∀ pair ∈ valid, localPartOf pair.1 = some pair.2) :
    ∀ localPart ∈ valid.map Prod.snd, localPart ≠ "" := by
  intro localPart hlocalPart
  obtain ⟨pair, hpair, rfl⟩ := List.mem_map.mp hlocalPart
  exact localPartOf_ne_empty (named pair hpair)

theorem localPartOf_of_validIds {ids : List String} {id : String}
    (empty : validIds ids = []) (h : id ∈ ids) : localPartOf id = none := by
  cases hlocalPart : localPartOf id with
  | none => rfl
  | some localPart =>
      have hpair := mem_validIds.mpr ⟨h, hlocalPart⟩
      rw [empty] at hpair
      exact absurd hpair List.not_mem_nil

theorem lastWith_statement {Row : Type} (rows : List Row)
    (cell : Row → String → Cell) (text : Row → String) {column : String}
    (hcell : ∀ row, cell row column = .text (text row)) {values : List String}
    {statement : Statement}
    (hselects : ∀ cells, statement.selects cells =
      values.any (Operator.eq.test (cells column)))
    {value : String} (h : value ∈ values) :
    lastWith (fun row => some (text row)) value
        (rows.filter fun row => statement.selects (cell row)) =
      lastWith (fun row => some (text row)) value rows := by
  refine lastWith_filter fun row _ hkey => ?_
  rw [hselects, hcell, List.any_eq_true]
  exact ⟨value, h, (Operator.test_eq_text _ _).mpr (Option.some.inj hkey)⟩

/-- What the user directory answers for the local parts of a batch. -/
def directoryAnswer (sources : Sources) (valid : List (String × String)) :
    Option (List DirectoryRow) :=
  sources.users.get directoryFields
    [("uid", .strings (valid.map Prod.snd))]

/-- The rows of the whole tables, but for those of the directory. -/
def rowsWith (config : Config) (sources : Sources) (viewer : Option String)
    (directoryRows : List DirectoryRow) (id localPart : String) : UserRows :=
  { sources.rows config viewer id localPart with
    directory := lastWith (fun row => row.lookup "uid") localPart
      directoryRows }

/-- The rows that are found for a user of the batch are those of the whole
tables, but for the directory. -/
theorem fetch_rows {valid : List (String × String)} (nonempty : valid ≠ [])
    (named : ∀ pair ∈ valid, localPartOf pair.1 = some pair.2) :
    ∃ found, fetch config sources valid viewer =
        (directoryAnswer sources valid).map found ∧
      ∀ directoryRows, ∀ pair ∈ valid,
        (found directoryRows).rows pair.1 pair.2 =
          rowsWith config sources viewer directoryRows pair.1 pair.2 := by
  have hids : ∀ id ∈ valid.map Prod.fst, id ≠ "" := by
    intro id hid
    obtain ⟨pair, hpair, rfl⟩ := List.mem_map.mp hid
    exact ne_empty_of_localPartOf (named pair hpair)
  have hlocalParts := localParts_ne_empty named
  obtain ⟨profiles, hprofiles, hprofile⟩ := getStatement_strings
    ["user_id", "displayname", "avatar_url"] "user_id"
    (by simpa using nonempty) hlocalParts
  obtain ⟨settings, hsettings, hsetting⟩ := getStatement_strings
    ["*"] "matrix_id" (by simpa using nonempty) hids
  refine ⟨fun directoryRows =>
    { matrixRows := sources.profiles.filter fun row =>
        profiles.selects row.cell
      directoryRows
      settingsRows :=
        if config.enableCommonSettings then
          sources.settings.filter fun row => settings.selects row.cell
        else []
      profileSettingsRows := sources.profileSettings.filter fun row =>
        settings.selects row.cell
      contacts := viewerContacts config sources viewer }, ?_, ?_⟩
  · simp only [fetch, hprofiles, hsettings, Option.bind_some,
      Option.map_some, directoryAnswer]
    exact (Option.map_eq_bind ..).symm
  · intro directoryRows pair hpair
    have hid : pair.1 ∈ valid.map Prod.fst := List.mem_map_of_mem hpair
    have hlocalPart : pair.2 ∈ valid.map Prod.snd :=
      List.mem_map_of_mem hpair
    have hmatrix := lastWith_statement sources.profiles ProfileRow.cell
      ProfileRow.userId (fun _ => rfl) hprofile hlocalPart
    have hprofileSettings := lastWith_statement sources.profileSettings
      UserProfileSettings.cell UserProfileSettings.matrixId (fun _ => rfl)
      hsetting hid
    have husersettings := lastWith_statement
      (sources.settings.filter (·.settings.isSome)) UserSettings.cell
      UserSettings.matrixId (fun _ => rfl) hsetting hid
    simp only [rowsWith, Sources.rows, Fetched.rows, hmatrix,
      hprofileSettings, UserRows.mk.injEq, true_and, and_true]
    split
    · rw [List.filter_comm, husersettings]
    · rfl

def recordWith (config : Config) (sources : Sources) (viewer : Option String)
    (directoryRows : List DirectoryRow) (id : String) :
    Option UserInformation :=
  (localPartOf id).bind fun localPart => mergeUser config viewer id
    (rowsWith config sources viewer directoryRows id localPart)

theorem filterMap_validIds (ids : List String)
    (value : String → String → Option UserInformation) :
    ((validIds ids).filterMap fun pair =>
        (value pair.1 pair.2).map (pair.1, ·)) =
      ids.eraseDups.filterMap fun id =>
        ((localPartOf id).bind (value id)).map (id, ·) := by
  rw [validIds, List.filterMap_filterMap]
  congr 1
  funext id
  cases localPartOf id with
  | none => rfl
  | some localPart => rfl

/-- A batch is rejected when the directory refuses its query, and else has for
each user the record that the answer gives. -/
theorem getBatch_eq (ids : List String) :
    getBatch config sources ids viewer =
      if validIds ids = [] then some []
      else (directoryAnswer sources (validIds ids)).map fun directoryRows =>
        ids.eraseDups.filterMap fun id =>
          (recordWith config sources viewer directoryRows id).map (id, ·) := by
  unfold getBatch
  split
  · rename_i hnone
    rw [if_pos hnone]
  · rename_i hsome
    have hnonempty : validIds ids ≠ [] := hsome
    obtain ⟨found, hfetch, hrows⟩ := @fetch_rows config sources viewer _
      hnonempty (validIds_named ids)
    rw [if_neg hnonempty, hfetch, Option.map_map]
    congr 1
    funext directoryRows
    refine Eq.trans (List.filterMap_congr fun pair hpair => ?_)
      (filterMap_validIds ids fun id localPart => mergeUser config viewer id
        (rowsWith config sources viewer directoryRows id localPart))
    rw [← hrows directoryRows pair hpair]

theorem lookup_getBatch {ids : List String} {id : String} (h : id ∈ ids)
    {result : List (String × UserInformation)}
    (answered : getBatch config sources ids viewer = some result) :
    (localPartOf id = none ∧ result.lookup id = none) ∨
      ∃ directoryRows,
        directoryAnswer sources (validIds ids) = some directoryRows ∧
        result.lookup id =
          recordWith config sources viewer directoryRows id := by
  rw [getBatch_eq] at answered
  split at answered
  · rename_i hnone
    cases answered
    exact .inl ⟨localPartOf_of_validIds hnone h, rfl⟩
  · obtain ⟨directoryRows, hdirectory, rfl⟩ :=
      Option.map_eq_some_iff.mp answered
    exact .inr ⟨directoryRows, hdirectory,
      lookup_filterMap _ _ (List.mem_eraseDups.mpr h)⟩

/-- The local parts of the IDs stand for themselves in a directory query. -/
def PlainIds (sources : Sources) (ids : List String) : Prop :=
  sources.users.backend.Plain ((validIds ids).map Prod.snd)

theorem PlainIds.one {ids : List String} {id : String}
    (plain : PlainIds sources ids) (h : id ∈ ids) :
    PlainIds sources [id] := by
  unfold PlainIds IdentityServer.UserBackend.Plain at plain ⊢
  split
  · rename_i server hbackend
    rw [hbackend] at plain
    intro localPart hlocalPart
    obtain ⟨pair, hpair, rfl⟩ := List.mem_map.mp hlocalPart
    obtain ⟨hid, hown⟩ := mem_validIds.mp hpair
    refine plain pair.2 (List.mem_map_of_mem (mem_validIds.mpr ⟨?_, hown⟩))
    rw [List.mem_singleton.mp hid]
    exact h
  · trivial

theorem getBatch_record {ids : List String} (plain : PlainIds sources ids)
    (reflexive : sources.users.backend.Reflexive) :
    ∃ result, getBatch config sources ids viewer = some result ∧
      result = ids.eraseDups.filterMap fun id =>
        (record config sources viewer id).map (id, ·) := by
  rw [getBatch_eq]
  split
  · rename_i hnone
    refine ⟨[], rfl, (List.filterMap_eq_nil_iff.mpr fun id hid => ?_).symm⟩
    rw [record, localPartOf_of_validIds hnone (List.mem_eraseDups.mp hid)]
    rfl
  · rename_i hnonempty
    have hnamed := localParts_ne_empty (validIds_named ids)
    obtain ⟨directoryRows, hdirectory, hrows⟩ :=
      IdentityServer.get_uid sources.users uid_asked
        (by simpa using hnonempty) hnamed plain reflexive
    refine ⟨_, by rw [directoryAnswer, hdirectory, Option.map_some],
      List.filterMap_congr fun id hid => ?_⟩
    congr 1
    refine Option.bind_congr fun localPart hlocalPart => ?_
    have hmem : localPart ∈ (validIds ids).map Prod.snd :=
      List.mem_map.mpr ⟨(id, localPart),
        mem_validIds.mpr ⟨List.mem_eraseDups.mp hid, hlocalPart⟩, rfl⟩
    have hdirectoryRows :
        lastWith (fun row => row.lookup "uid") localPart directoryRows =
          lastWith (fun row => row.lookup "uid") localPart
            (sources.users.listed.map (Entry.row directoryFields)) :=
      lastWith_congr (by
        rw [hrows localPart hmem, IdentityServer.filter_map_row uid_asked])
    simp only [rowsWith, hdirectoryRows]
    rfl

/-- A batch has one entry at most for each of its users, and it is what is
answered for the user alone. -/
def BatchAgrees (config : Config) (sources : Sources) (ids : List String)
    (viewer : Option String) : Prop :=
  ∃ result, getBatch config sources ids viewer = some result ∧
    (result.map Prod.fst).Nodup ∧ (∀ entry ∈ result, entry.1 ∈ ids) ∧
    ∀ id ∈ ids, get config sources id viewer = some (result.lookup id)

theorem getBatch_agrees {ids : List String} (plain : PlainIds sources ids)
    (reflexive : sources.users.backend.Reflexive) :
    BatchAgrees config sources ids viewer := by
  obtain ⟨result, hanswer, hresult⟩ :=
    @getBatch_record config sources viewer ids plain reflexive
  refine ⟨result, hanswer, ?_, ?_, ?_⟩
  · rw [hresult]
    exact nodup_keys_filterMap _ _
  · intro entry hentry
    rw [hresult] at hentry
    obtain ⟨id, hid, hmap⟩ := List.mem_filterMap.mp hentry
    obtain ⟨info, _, rfl⟩ := Option.map_eq_some_iff.mp hmap
    exact List.mem_eraseDups.mp hid
  · intro id hid
    obtain ⟨alone, haloneAnswer, halone⟩ :=
      @getBatch_record config sources viewer [id] (plain.one hid) reflexive
    rw [get, haloneAnswer, Option.map_some, halone, hresult,
      lookup_filterMap _ _ (List.mem_eraseDups.mpr (List.mem_singleton_self _)),
      lookup_filterMap _ _ (List.mem_eraseDups.mpr hid)]

/-! A directory with the entry of Alice, which compares texts as they are. -/

def personFilter : Ldap.Filter :=
  .item
    { key := "objectClass".toList
      rule := []
      value := "person".toList
      named := by decide
      keyChars := by decide
      ruleChars := Ldap.ruleChars_nil
      ruleStart := Ldap.ruleStart_nil
      valueChars := by decide
      escapes := by decide }

def sampleServer : IdentityServer.LdapServer where
  filter := personFilter
  attributeOf := id
  holds := fun _ value values => values.contains (String.ofList value)

def aliceEntry : Entry :=
  [("objectClass", ["person"]), ("uid", ["alice"]), ("cn", ["Alice"]),
    ("mail", ["alice@example.org"])]

def sampleConfig : Config where
  enableAdditionalFeatures := true
  enableCommonSettings := false
  defaultVisibility := some .privateProfile
  defaultVisibleFields := []
  serverName := "example.org"
  addressbook := ⟨false, false, "", fun _ _ => .eq⟩

def sampleSources (entries : List Entry) : Sources where
  profiles := []
  users := ⟨.ldap sampleServer, entries⟩
  settings := []
  profileSettings := []
  addressbook := ⟨[], []⟩

theorem sampleServer_reflexive :
    (IdentityServer.UserBackend.ldap sampleServer).Reflexive := by
  refine ⟨rfl, fun value _ values h => ?_⟩
  simpa [sampleServer] using h

def aliceInfo : UserInformation :=
  { uid := "@alice:example.org", displayName := some "Alice" }

/-- What the directory answers for Alice. -/
def aliceRow : DirectoryRow :=
  [("uid", "alice"), ("cn", "Alice"), ("mail", "alice@example.org")]

theorem localPartOf_alice : localPartOf "@alice:example.org" = some "alice" := by
  decide

theorem directoryAnswer_sample {entries : List Entry}
    {valid : List (String × String)} {specific : List Char}
    (h : IdentityServer.LdapServer.specificFilter
      [("uid", .strings (valid.map Prod.snd))] = some specific) :
    directoryAnswer (sampleSources entries) valid =
      sampleServer.search entries directoryFields
        ('(' :: '&' :: ("(objectClass=person)".toList ++ specific) ++
          [')']) := by
  have htext : personFilter.text = "(objectClass=person)".toList := by decide
  rw [directoryAnswer, IdentityServer.UserDb.get]
  change (IdentityServer.LdapServer.specificFilter _).bind _ = _
  rw [h, Option.bind_some, IdentityServer.LdapServer.finalFilter, ← htext]
  rfl

theorem getBatch_agrees_alice :
    BatchAgrees sampleConfig (sampleSources [aliceEntry])
        ["@bob:example.org", "@alice:example.org"] none ∧
      get sampleConfig (sampleSources [aliceEntry]) "@alice:example.org" none =
        some (some aliceInfo) :=
  ⟨getBatch_agrees
    (by
      change ∀ value ∈ _, _
      decide +kernel) sampleServer_reflexive, by decide +kernel⟩

/-- An ID that closes the filter and opens another one takes Alice out of the
batch. -/
theorem injected_batch_disagrees :
    ¬ BatchAgrees sampleConfig (sampleSources [aliceEntry])
      ["@alice:example.org", "@x))(&(uid=nobody:example.org"] none := by
  rintro ⟨result, hanswer, _, _, halone⟩
  have hempty : getBatch sampleConfig (sampleSources [aliceEntry])
      ["@alice:example.org", "@x))(&(uid=nobody:example.org"] none =
      some [] := by
    have hvalid : validIds
        ["@alice:example.org", "@x))(&(uid=nobody:example.org"] =
        [("@alice:example.org", "alice"),
          ("@x))(&(uid=nobody:example.org", "x))(&(uid=nobody")] := by
      decide +kernel
    rw [getBatch_eq, hvalid, if_neg (List.cons_ne_nil _ _),
      @directoryAnswer_sample _ _
        "(|(uid=alice)(uid=x))(&(uid=nobody))".toList (by decide +kernel)]
    decide +kernel
  have hget : get sampleConfig (sampleSources [aliceEntry])
      "@alice:example.org" none = some (some aliceInfo) := by decide +kernel
  have halice := halone "@alice:example.org" List.mem_cons_self
  rw [hempty] at hanswer
  rw [hget, ← Option.some.inj hanswer] at halice
  cases halice

end TwakeKickstart.TomServer.UserInfo
