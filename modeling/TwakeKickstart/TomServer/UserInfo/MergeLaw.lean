import TwakeKickstart.TomServer.Addressbook.Listing
import TwakeKickstart.TomServer.UserInfo.LocalData

namespace TwakeKickstart.TomServer.UserInfo

open Library Utils
open Addressbook (Contact listedContacts truthy)
open IdentityServer (DirectoryRow Entry)

/-! Which source each field of a record is taken from, where the address book
of the viewer has only the contacts of their own. -/

/-- The first text that is not empty. -/
def firstText (texts : List (Option String)) : Option String :=
  (texts.find? truthy).join

/-- The contacts of the viewer's own, without those made of the directory. -/
def ownContacts (config : Config) (sources : Sources)
    (viewer : Option String) : List Contact :=
  match viewer with
  | none => []
  | some viewer =>
      if viewer = "" then []
      else
        listedContacts config.addressbook viewer sources.addressbook false none

def ownContact (config : Config) (sources : Sources)
    (viewer : Option String) (id : String) : Option Contact :=
  lastWith (·.mxid) id (ownContacts config sources viewer)

section Law

variable (config : Config) (sources : Sources) (ids : List String)
variable (viewer : Option String) (id : String)

/-- The rows of the sources for one ID; no profile and no entry has an ID
without a local part. -/
def knownRows : Option UserRows :=
  match localPartOf id with
  | some _ => answeredRows config sources ids viewer id
  | none =>
      if (validIds ids).isEmpty then
        some (withoutLocal (sources.rows config viewer id ""))
      else
        (directoryAnswer sources (validIds ids)).map fun _ =>
          withoutLocal (sources.rows config viewer id "")

/-- What is to be told of the user. -/
def expectedRecord (rows : UserRows) : UserInformation :=
  let visible := shows config viewer id rows
  let lastName :=
    firstText [rows.payload.lastName, rows.entry.lookup "sn"]
  let firstName :=
    if truthy rows.payload.firstName then rows.payload.firstName
    else rows.given
  { uid := id
    displayName := firstText
      [(ownContact config sources viewer id).bind (·.displayName),
        rows.payload.displayName, rows.profileRow.displayname,
        rows.entry.lookup "cn"]
    avatarUrl := firstText [rows.profileRow.avatarUrl]
    sn := lastName
    lastName := lastName
    givenName := firstName
    firstName := firstName
    emails := pushedWhen (visible .email) rows.payload.email
      (shown (visible .email) (rows.entry.lookup "mail"))
    phones := pushedWhen (visible .phone) rows.payload.phone
      (shown (visible .phone) (rows.entry.lookup "mobile"))
    language := firstText [rows.payload.language]
    timezone := firstText [rows.payload.timezone]
    workplaceFqdn := firstText [rows.entry.lookup "workplaceFqdn"] }

/-- The user is reached, and there is more to tell than the ID. -/
def Told (rows : UserRows) : Prop :=
  (rows.matrix.isSome ∨ (ownContact config sources viewer id).isSome ∨
    config.enableAdditionalFeatures = true) ∧
  expectedRecord config sources viewer id rows ≠ { uid := id }

structure Merged (rows : UserRows) (record : Option UserInformation) :
    Prop where
  displayName : ∀ info ∈ record, info.displayName =
    (expectedRecord config sources viewer id rows).displayName
  lastName : ∀ info ∈ record,
    info.lastName =
      (expectedRecord config sources viewer id rows).lastName ∧
    info.sn = (expectedRecord config sources viewer id rows).sn
  firstName : ∀ info ∈ record,
    info.firstName =
      (expectedRecord config sources viewer id rows).firstName ∧
    info.givenName = (expectedRecord config sources viewer id rows).givenName
  recorded : record.isSome ↔ Told config sources viewer id rows

/-- The record of a batch is merged of the rows of the sources. -/
def MergeLaw : Prop :=
  ∀ result, getBatch config sources ids viewer = some result →
    ∀ rows, knownRows config sources ids viewer id = some rows →
      Merged config sources viewer id rows (result.lookup id)

/-- No contact that is made of the directory takes the place of a name. -/
def NameKept (rows : UserRows) : Prop :=
  (ownContact config sources viewer id).isSome ∨
  ∀ contact ∈ rows.contact, contact.displayName =
    (expectedRecord config sources viewer id rows).displayName

end Law

theorem firstText_cons (text : Option String) (rest : List (Option String)) :
    firstText (text :: rest) = replaced text (firstText rest) := by
  unfold firstText replaced
  rw [List.find?_cons]
  cases truthy text <;> rfl

theorem firstText_nil : firstText [] = none := rfl

/-! The contact that a record is made with. -/

section Contacts

variable {config : Config} {sources : Sources} {ids : List String}
variable {viewer : Option String} {id : String} {rows : UserRows}

theorem mem_mergeContacts {service : Addressbook.Service}
    {own virtual : List Contact} {contact : Contact} :
    contact ∈ Addressbook.mergeContacts service own virtual ↔
      contact ∈ own ∨ contact ∈ virtual ∧
        ∀ other ∈ own, other.mxid ≠ contact.mxid := by
  simp [Addressbook.mergeContacts, Addressbook.mem_sortByStringField]

theorem virtual_named {service : Addressbook.Service}
    {entry : Addressbook.UserEntry} {contact : Contact}
    (h : Addressbook.userDbContact service entry = some contact) :
    truthy contact.displayName = true := by
  unfold Addressbook.userDbContact at h
  split at h
  · cases h
  · rename_i uid _
    split at h
    · cases h
    · rename_i hnamed
      split at h
      · cases h
      · cases h
        dsimp only
        split
        · assumption
        · split
          · assumption
          · simpa [truthy] using hnamed

theorem contacts_cases (config : Config) (sources : Sources)
    (viewer : Option String) :
    (ownContacts config sources viewer = [] ∧
      viewerContacts config sources viewer = []) ∨
    ∃ own virtual, (own.map Contact.mxid).Nodup ∧
      ownContacts config sources viewer =
        Addressbook.mergeContacts config.addressbook own [] ∧
      viewerContacts config sources viewer =
        Addressbook.mergeContacts config.addressbook own virtual ∧
      (virtual ≠ [] → config.addressbook.readsUserDb = true) ∧
      ∀ contact ∈ virtual, Addressbook.Virtual config.addressbook contact := by
  unfold ownContacts viewerContacts
  cases viewer with
  | none => exact .inl ⟨rfl, rfl⟩
  | some viewer =>
      dsimp only
      split
      · exact .inl ⟨rfl, rfl⟩
      · refine .inr ⟨_, _, Addressbook.nodup_listAddressbookContacts _, rfl,
          rfl, ?_, fun contact => Addressbook.virtual_of_mem⟩
        intro hvirtual
        unfold Addressbook.answeredContacts at hvirtual
        split at hvirtual
        · rename_i hread
          exact (Bool.and_eq_true_iff.mp hread).2
        · exact absurd rfl hvirtual

theorem contact_of_own {contact : Contact}
    (h : ownContact config sources viewer id = some contact) :
    lastWith (·.mxid) id (viewerContacts config sources viewer) =
      some contact := by
  obtain ⟨hmem, hmxid⟩ := mem_of_lastWith h
  rcases contacts_cases config sources viewer with
    ⟨hnone, _⟩ | ⟨own, virtual, hnodup, hown, hlisted, _⟩
  · rw [hnone] at hmem
    cases hmem
  · rw [hown, mem_mergeContacts] at hmem
    have hcontact : contact ∈ own := by simpa using hmem
    rw [hlisted]
    refine lastWith_of_only (mem_mergeContacts.mpr (.inl hcontact)) hmxid ?_
    intro other hother hsame
    rcases mem_mergeContacts.mp hother with hother | ⟨_, hothers⟩
    · exact List.inj_on_of_nodup_map hnodup hother hcontact
        (hsame.trans hmxid.symm)
    · exact absurd (hmxid.trans hsame.symm) (hothers contact hcontact)

theorem virtual_of_not_own {contact : Contact}
    (h : ownContact config sources viewer id = none)
    (found : lastWith (·.mxid) id (viewerContacts config sources viewer) =
      some contact) :
    config.addressbook.readsUserDb = true ∧
      truthy contact.displayName = true := by
  obtain ⟨hmem, hmxid⟩ := mem_of_lastWith found
  rcases contacts_cases config sources viewer with
    ⟨_, hnone⟩ | ⟨own, virtual, hnodup, hown, hlisted, hreads, hvirtual⟩
  · rw [hnone] at hmem
    cases hmem
  · rw [hlisted] at hmem
    rcases mem_mergeContacts.mp hmem with hcontact | ⟨hcontact, _⟩
    · have hlast : ownContact config sources viewer id = some contact := by
        rw [ownContact, hown]
        refine lastWith_of_only (mem_mergeContacts.mpr (.inl hcontact)) hmxid ?_
        intro other hother hsame
        have hother : other ∈ own := by
          simpa using mem_mergeContacts.mp hother
        exact List.inj_on_of_nodup_map hnodup hother hcontact
          (hsame.trans hmxid.symm)
      rw [h] at hlast
      cases hlast
    · refine ⟨hreads (List.ne_nil_of_mem hcontact), ?_⟩
      obtain ⟨entry, hentry⟩ := hvirtual contact hcontact
      exact virtual_named hentry

theorem localName_firstText (rows : UserRows) :
    localName rows =
      firstText [rows.profileRow.displayname, rows.entry.lookup "cn"] := by
  rw [firstText_cons, firstText_cons, firstText_nil]
  rfl

theorem gathered_expected (config : Config) (sources : Sources)
    (viewer : Option String) (id : String) (rows : UserRows) :
    gathered (shows config viewer id rows) id rows =
      { expectedRecord config sources viewer id rows with
        displayName := firstText
          [rows.contactName, rows.payload.displayName,
            rows.profileRow.displayname, rows.entry.lookup "cn"] } := by
  rw [gathered_eq, localName_firstText]
  simp only [expectedRecord, firstText_cons, firstText_nil]
  rfl

theorem gathered_of_contact
    (contact : rows.contact = ownContact config sources viewer id) :
    gathered (shows config viewer id rows) id rows =
      expectedRecord config sources viewer id rows := by
  rw [gathered_expected config sources, UserRows.contactName, contact]
  rfl

theorem merged_none_iff :
    Merged config sources viewer id rows none ↔
      ¬ Told config sources viewer id rows := by
  constructor
  · intro merged told
    cases merged.recorded.mpr told
  · intro untold
    refine ⟨?_, ?_, ?_, ?_⟩
    · exact fun info hinfo => absurd hinfo (Option.not_mem_none info)
    · exact fun info hinfo => absurd hinfo (Option.not_mem_none info)
    · exact fun info hinfo => absurd hinfo (Option.not_mem_none info)
    · simp only [Option.isSome_none, Bool.false_eq_true, false_iff]
      exact untold

theorem merged_expected (told : Told config sources viewer id rows) :
    Merged config sources viewer id rows
      (some (expectedRecord config sources viewer id rows)) := by
  refine ⟨?_, ?_, ?_, ?_⟩
  · intro info hinfo
    rw [Option.mem_some_iff.mp hinfo]
  · intro info hinfo
    rw [Option.mem_some_iff.mp hinfo]
    exact ⟨rfl, rfl⟩
  · intro info hinfo
    rw [Option.mem_some_iff.mp hinfo]
    exact ⟨rfl, rfl⟩
  · simp only [Option.isSome_some, true_iff]
    exact told

/-- The law holds of the merge when it is made with the viewer's own
contact. -/
theorem merged_of_contact
    (contact : rows.contact = ownContact config sources viewer id) :
    Merged config sources viewer id rows
      (mergeUser config viewer id rows) := by
  have hskipped : isSkipped config rows = true ↔
      ¬ (rows.matrix.isSome ∨
        (ownContact config sources viewer id).isSome ∨
        config.enableAdditionalFeatures = true) := by
    rw [isSkipped, contact]
    cases rows.matrix <;> cases config.enableAdditionalFeatures <;>
      cases ownContact config sources viewer id <;> simp
  have hmerge : mergeUser config viewer id rows =
      if isSkipped config rows ||
          expectedRecord config sources viewer id rows == { uid := id } then
        none
      else some (expectedRecord config sources viewer id rows) := by
    rw [mergeUser, gathered_of_contact contact]
  rw [hmerge]
  split
  · rename_i hnone
    refine merged_none_iff.mpr ?_
    rintro ⟨hreached, hmore⟩
    rcases Bool.or_eq_true_iff.mp hnone with hskip | hempty
    · exact hskipped.mp hskip hreached
    · exact hmore (beq_iff_eq.mp hempty)
  · rename_i hsome
    rw [Bool.or_eq_true, not_or] at hsome
    refine merged_expected ⟨?_, fun hempty =>
      hsome.2 (beq_iff_eq.mpr hempty)⟩
    by_contra hunreached
    exact hsome.1 (hskipped.mpr hunreached)

theorem merged_virtual_iff {contact : Contact}
    (features : config.enableAdditionalFeatures = true)
    (found : rows.contact = some contact)
    (named : truthy contact.displayName = true) :
    Merged config sources viewer id rows (mergeUser config viewer id rows) ↔
      contact.displayName =
        (expectedRecord config sources viewer id rows).displayName := by
  have hname : (gathered (shows config viewer id rows) id rows).displayName =
      contact.displayName := by
    rw [gathered_expected config sources, UserRows.contactName, found]
    dsimp only [Option.bind_some]
    rw [firstText_cons, replaced, if_pos named]
  have hmerge : mergeUser config viewer id rows =
      some (gathered (shows config viewer id rows) id rows) := by
    rw [mergeUser]
    refine if_neg fun hnone => ?_
    rw [isSkipped, features, Bool.not_true, Bool.and_false, Bool.false_and,
      Bool.false_or, beq_iff_eq] at hnone
    rw [hnone] at hname
    rw [← hname] at named
    cases named
  rw [hmerge]
  constructor
  · intro merged
    rw [← hname]
    exact merged.displayName _ rfl
  · intro hsame
    have hrecord : gathered (shows config viewer id rows) id rows =
        expectedRecord config sources viewer id rows := by
      have hgathered := gathered_expected config sources viewer id rows
      rw [hgathered] at hname ⊢
      dsimp only at hname
      rw [hname, hsame]
    rw [hrecord]
    refine merged_expected ⟨.inr (.inr features), fun hempty => ?_⟩
    rw [hsame, hempty] at named
    cases named

/-- The law holds of the merge of the rows that are found, unless a contact of
the directory is put over another name. -/
theorem merged_iff
    (flag : config.addressbook.enableAdditionalFeatures = true →
      config.enableAdditionalFeatures = true)
    (listed : rows.contact =
      lastWith (·.mxid) id (viewerContacts config sources viewer)) :
    Merged config sources viewer id rows (mergeUser config viewer id rows) ↔
      NameKept config sources viewer id rows := by
  cases hown : ownContact config sources viewer id with
  | some contact =>
      refine iff_of_true (merged_of_contact ?_) (.inl ?_)
      · rw [listed, contact_of_own hown, hown]
      · rw [hown]
        rfl
  | none =>
      have hkept : NameKept config sources viewer id rows ↔
          ∀ contact ∈ rows.contact, contact.displayName =
            (expectedRecord config sources viewer id rows).displayName := by
        rw [NameKept, hown]
        simp
      rw [hkept]
      cases hcontact : rows.contact with
      | none =>
          refine iff_of_true (merged_of_contact ?_) ?_
          · rw [hcontact, hown]
          · exact fun contact hnone =>
              absurd hnone (Option.not_mem_none contact)
      | some contact =>
          obtain ⟨hreads, hnamed⟩ :=
            virtual_of_not_own hown (listed.symm.trans hcontact)
          have hfeatures : config.addressbook.enableAdditionalFeatures =
              true := by
            rw [Addressbook.Service.readsUserDb, Bool.and_eq_true,
              Bool.and_eq_true] at hreads
            exact hreads.1.1
          rw [merged_virtual_iff (flag hfeatures) hcontact hnamed]
          simp

theorem lookup_knownRows (h : id ∈ ids)
    (known : knownRows config sources ids viewer id = some rows) :
    ∃ result, getBatch config sources ids viewer = some result ∧
      (localPartOf id = none ∧ result.lookup id = none ∨
        localPartOf id ≠ none ∧
          result.lookup id = mergeUser config viewer id rows ∧
          rows.contact =
            lastWith (·.mxid) id (viewerContacts config sources viewer)) := by
  unfold knownRows at known
  split at known
  · rename_i localPart hlocalPart
    obtain ⟨result, hanswer⟩ := answered_of_answeredRows h known
    refine ⟨result, hanswer, .inr ⟨by simp [hlocalPart], ?_, ?_⟩⟩
    · rw [lookup_answeredRows h hanswer, known]
      rfl
    · obtain ⟨directoryRows, _, hrows⟩ := Option.bind_eq_some_iff.mp known
      obtain ⟨_, _, rfl⟩ := Option.map_eq_some_iff.mp hrows
      rfl
  · rename_i hlocalPart
    have hnone : ∀ result, getBatch config sources ids viewer = some result →
        result.lookup id = none := by
      intro result hanswer
      rcases lookup_getBatch h hanswer with
        ⟨_, hlookup⟩ | ⟨directoryRows, _, hlookup⟩
      · exact hlookup
      · rw [hlookup, recordWith, hlocalPart]
        rfl
    have hanswered : ∃ result,
        getBatch config sources ids viewer = some result := by
      rw [getBatch_eq]
      split at known
      · rename_i hempty
        exact ⟨_, if_pos (List.isEmpty_iff.mp hempty)⟩
      · rename_i hvalid
        obtain ⟨directoryRows, hdirectory, _⟩ :=
          Option.map_eq_some_iff.mp known
        rw [if_neg fun hempty => hvalid (List.isEmpty_iff.mpr hempty),
          hdirectory]
        exact ⟨_, rfl⟩
    obtain ⟨result, hanswer⟩ := hanswered
    exact ⟨result, hanswer, .inl ⟨hlocalPart, hnone result hanswer⟩⟩

end Contacts

/-! Alice, who calls herself Ally in her settings, as Bob sees her. -/

def directoryConfig : Config where
  enableAdditionalFeatures := true
  enableCommonSettings := true
  defaultVisibility := some .privateProfile
  defaultVisibleFields := []
  serverName := "example.org"
  addressbook := ⟨true, true, "example.org", fun _ _ => .eq⟩

def allySources : Sources :=
  { sampleSources [aliceEntry] with
    settings := [⟨"@alice:example.org", some { displayName := some "Ally" }⟩] }

/-- The contact that the directory makes of Alice. -/
def aliceContact : Contact :=
  ⟨some "alice", some "@alice:example.org", some "Alice", true, ""⟩

theorem userDbContact_alice :
    Addressbook.userDbContact directoryConfig.addressbook
      (userEntry aliceRow) = some aliceContact := by
  have huid : (userEntry aliceRow).uid = some "alice" := by decide
  have hserver : directoryConfig.addressbook.serverName = "example.org" := rfl
  have hmxid : toMatrixId (some "alice") "example.org" =
      .ok "@alice:example.org" := rfl
  rw [Addressbook.userDbContact, huid, hserver]
  dsimp only
  rw [if_neg (by decide), hmxid]
  rfl

theorem viewerContacts_bob : viewerContacts directoryConfig allySources
    (some "@bob:example.org") = [aliceContact] := by
  have hlisted : allySources.users.getAll contactFields = some [aliceRow] := by
    decide
  rw [viewerContacts, if_neg (by decide), hlisted, listedContacts,
    Addressbook.answeredContacts, if_pos (by decide), Option.map_some,
    Option.getD_some, List.map_singleton,
    List.filterMap_cons_some userDbContact_alice]
  simp [Addressbook.mergeContacts, Addressbook.sortByStringField,
    Addressbook.listAddressbookContacts, Addressbook.bookOf,
    Addressbook.deduplicateByMxid, allySources, sampleSources]

theorem directoryAnswer_ally : directoryAnswer allySources
    (validIds ["@alice:example.org"]) = some [aliceRow] := by
  have hvalid : validIds ["@alice:example.org"] =
      [("@alice:example.org", "alice")] := by
    decide
  rw [hvalid]
  decide

theorem getBatch_ally : getBatch directoryConfig allySources
    ["@alice:example.org"] (some "@bob:example.org") =
    some [("@alice:example.org",
      { uid := "@alice:example.org", displayName := some "Alice" })] := by
  rw [getBatch_eq, directoryAnswer_ally, if_neg (by decide),
    Option.map_some]
  change some (List.filterMap (fun id => (recordWith directoryConfig
    allySources (some "@bob:example.org") [aliceRow] id).map (id, ·))
      ["@alice:example.org"]) = _
  rw [List.filterMap_cons, recordWith, localPartOf_alice, Option.bind_some,
    rowsWith, Sources.rows, viewerContacts_bob]
  rfl

end TwakeKickstart.TomServer.UserInfo
