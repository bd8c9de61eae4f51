import TwakeKickstart.IdentityServer.UserDb
import TwakeKickstart.TomServer.Addressbook.Alone
import TwakeKickstart.Utils.MatrixId

namespace TwakeKickstart.TomServer.UserInfo

open Library Utils
open Addressbook (Contact UserEntry listedContacts truthy)
open IdentityServer (DirectoryRow UserDb getStatement)

/-! `UserInfoService`: the sources of what is known about a user, and how
`getBatch` merges them. -/

/-- A row of the Matrix profiles; `user_id` is a local part. -/
structure ProfileRow where
  userId : String
  displayname : Option String
  avatarUrl : Option String

structure SettingsPayload where
  language : Option String := none
  timezone : Option String := none
  lastName : Option String := none
  firstName : Option String := none
  email : Option String := none
  phone : Option String := none
  displayName : Option String := none

structure UserSettings where
  matrixId : String
  settings : Option SettingsPayload

inductive ProfileField where
  | phone
  | email

def ProfileField.name : ProfileField → String
  | phone => "phone"
  | email => "email"

inductive ProfileVisibility where
  | publicProfile
  | contacts
  | privateProfile
  deriving DecidableEq

/-- The fields that are visible: an array, or a text where the database has no
arrays. -/
inductive VisibleFields where
  | list (names : List String)
  | text (names : String)

def VisibleFields.includes : VisibleFields → ProfileField → Bool
  | list names, field => names.contains field.name
  | text names, field => decide (field.name.toList <:+: names.toList)

/-- A visibility that is none of the three is `none`. -/
structure UserProfileSettingsPayload where
  visibility : Option ProfileVisibility
  visibleFields : Option VisibleFields

structure UserProfileSettings where
  matrixId : String
  payload : UserProfileSettingsPayload

structure UserInformation where
  uid : String
  displayName : Option String := none
  avatarUrl : Option String := none
  sn : Option String := none
  lastName : Option String := none
  givenName : Option String := none
  firstName : Option String := none
  emails : Option (List String) := none
  phones : Option (List String) := none
  language : Option String := none
  timezone : Option String := none
  workplaceFqdn : Option String := none
  deriving DecidableEq

structure Config where
  enableAdditionalFeatures : Bool
  enableCommonSettings : Bool
  defaultVisibility : Option ProfileVisibility
  defaultVisibleFields : List String
  serverName : String
  addressbook : Addressbook.Service

structure Sources where
  profiles : List ProfileRow
  users : UserDb
  settings : List UserSettings
  profileSettings : List UserProfileSettings
  addressbook : Addressbook.Store

def ProfileRow.cell (row : ProfileRow) : String → Cell
  | "user_id" => .text row.userId
  | "displayname" => row.displayname.elim .null .text
  | "avatar_url" => row.avatarUrl.elim .null .text
  | _ => .null

def UserSettings.cell (row : UserSettings) : String → Cell
  | "matrix_id" => .text row.matrixId
  | _ => .null

def UserProfileSettings.cell (row : UserProfileSettings) : String → Cell
  | "matrix_id" => .text row.matrixId
  | _ => .null

namespace Config

def defaultVisibilitySettings (config : Config) :
    UserProfileSettingsPayload where
  visibility := some (match config.defaultVisibility with
    | some .publicProfile => .publicProfile
    | some .contacts => .contacts
    | _ => .privateProfile)
  visibleFields := some (.list
    ((if config.defaultVisibleFields.contains "email" then ["email"] else []) ++
      if config.defaultVisibleFields.contains "phone" then ["phone"] else []))

end Config

/-! What is fetched for a batch. -/

def localPartOf (id : String) : Option String :=
  (getLocalPart id).filter (· != "")

/-- The IDs that have a local part, each with it. -/
def validIds (ids : List String) : List (String × String) :=
  ids.eraseDups.filterMap fun id => (localPartOf id).map (id, ·)

structure Fetched where
  matrixRows : List ProfileRow
  directoryRows : List DirectoryRow
  settingsRows : List UserSettings
  profileSettingsRows : List UserProfileSettings
  contacts : List Contact

def directoryFields : List String :=
  ["uid", "cn", "sn", "givenname", "givenName", "mail", "mobile",
    "workplaceFqdn"]

def contactFields : List String :=
  ["uid", "cn", "displayName", "sn", "givenName", "mail", "mobile"]

def userEntry (row : DirectoryRow) : UserEntry where
  uid := row.lookup "uid"
  cn := row.lookup "cn"
  displayName := row.lookup "displayName"

/-- The contacts of the viewer; a lookup that fails has none. -/
def viewerContacts (config : Config) (sources : Sources)
    (viewer : Option String) : List Contact :=
  match viewer with
  | none => []
  | some viewer =>
      if viewer = "" then []
      else
        listedContacts config.addressbook viewer sources.addressbook true
          ((sources.users.getAll contactFields).map (·.map userEntry))

/-- `none` when one of the queries is refused. -/
def fetch (config : Config) (sources : Sources)
    (valid : List (String × String)) (viewer : Option String) :
    Option Fetched :=
  let localParts := JsValue.strings (valid.map Prod.snd)
  let ids := JsValue.strings (valid.map Prod.fst)
  (getStatement ["user_id", "displayname", "avatar_url"]
      [("user_id", localParts)]).bind fun profiles =>
    (sources.users.get directoryFields [("uid", localParts)]).bind
      fun directoryRows =>
        (getStatement ["*"] [("matrix_id", ids)]).map fun settings =>
          { matrixRows := sources.profiles.filter fun row =>
              profiles.selects row.cell
            directoryRows
            settingsRows :=
              if config.enableCommonSettings then
                sources.settings.filter fun row => settings.selects row.cell
              else []
            profileSettingsRows := sources.profileSettings.filter fun row =>
              settings.selects row.cell
            contacts := viewerContacts config sources viewer }

/-- What the maps hold for one user. -/
structure UserRows where
  matrix : Option ProfileRow
  directory : Option DirectoryRow
  settings : Option SettingsPayload
  profile : Option UserProfileSettingsPayload
  contact : Option Contact

def Fetched.rows (fetched : Fetched) (id localPart : String) : UserRows where
  matrix := lastWith (fun row => some row.userId) localPart fetched.matrixRows
  directory := lastWith (fun row => row.lookup "uid") localPart
    fetched.directoryRows
  settings := (lastWith (fun row => some row.matrixId) id
    (fetched.settingsRows.filter (·.settings.isSome))).bind (·.settings)
  profile := (lastWith (fun row => some row.matrixId) id
    fetched.profileSettingsRows).map (·.payload)
  contact := lastWith (·.mxid) id fetched.contacts

/-! The merge for one user. -/

section Merge

variable (config : Config) (viewer : Option String) (id : String)

def isIdProfileVisible (settings : UserProfileSettingsPayload) : Bool :=
  match settings.visibility with
  | some .publicProfile => true
  | some .contacts =>
      truthy viewer && config.enableAdditionalFeatures &&
        viewer.any fun viewer =>
          let domain := ':' :: config.serverName.toList
          decide (domain <:+ viewer.toList) && decide (domain <:+ id.toList)
  | _ => false

def profileSettingsOf (rows : UserRows) : UserProfileSettingsPayload :=
  rows.profile.getD config.defaultVisibilitySettings

/-- The field may be shown to the viewer. -/
def shows (rows : UserRows) (field : ProfileField) : Bool :=
  let settings := profileSettingsOf config rows
  viewer == some id ||
    (isIdProfileVisible config viewer id settings &&
      settings.visibleFields.any (·.includes field))

end Merge

/-- A value that is there takes the place of the old one. -/
def replaced (value old : Option String) : Option String :=
  if truthy value then value else old

def pushed (value : Option String) (texts : Option (List String)) :
    Option (List String) :=
  match value, texts with
  | some value, some texts =>
      some (if value = "" ∨ value ∈ texts then texts else texts ++ [value])
  | some value, none => if value = "" then none else some [value]
  | none, texts => texts

def addMatrix (row : ProfileRow) (info : UserInformation) :
    UserInformation :=
  { info with
    displayName := replaced row.displayname info.displayName
    avatarUrl := replaced row.avatarUrl info.avatarUrl }

def addDirectory (visible : ProfileField → Bool) (row : DirectoryRow)
    (info : UserInformation) : UserInformation :=
  let given := (row.lookup "givenname").or (row.lookup "givenName")
  { info with
    displayName :=
      if truthy info.displayName then info.displayName
      else replaced (row.lookup "cn") info.displayName
    sn := replaced (row.lookup "sn") info.sn
    lastName := replaced (row.lookup "sn") info.lastName
    givenName := given.or info.givenName
    firstName := given.or info.firstName
    emails :=
      if truthy (row.lookup "mail") && visible .email then
        (row.lookup "mail").map ([·])
      else info.emails
    phones :=
      if truthy (row.lookup "mobile") && visible .phone then
        (row.lookup "mobile").map ([·])
      else info.phones
    workplaceFqdn := replaced (row.lookup "workplaceFqdn") info.workplaceFqdn }

def addSettings (visible : ProfileField → Bool) (row : SettingsPayload)
    (info : UserInformation) : UserInformation :=
  { info with
    displayName := replaced row.displayName info.displayName
    lastName := replaced row.lastName info.lastName
    sn := replaced row.lastName info.sn
    firstName := replaced row.firstName info.firstName
    givenName := replaced row.firstName info.givenName
    emails := if visible .email then pushed row.email info.emails
      else info.emails
    phones := if visible .phone then pushed row.phone info.phones
      else info.phones
    language := replaced row.language info.language
    timezone := replaced row.timezone info.timezone }

def addContact (contact : Contact) (info : UserInformation) :
    UserInformation :=
  { info with displayName := replaced contact.displayName info.displayName }

/-- The steps of the merge, each source over the ones before it. -/
def gathered (visible : ProfileField → Bool) (id : String) (rows : UserRows) :
    UserInformation :=
  let info : UserInformation := { uid := id }
  let info := rows.matrix.elim info (addMatrix · info)
  let info := rows.directory.elim info (addDirectory visible · info)
  let info := rows.settings.elim info (addSettings visible · info)
  rows.contact.elim info (addContact · info)

def isSkipped (config : Config) (rows : UserRows) : Bool :=
  rows.matrix.isNone && !config.enableAdditionalFeatures && rows.contact.isNone

/-- The record of one user, where there is more to tell than the ID. -/
def mergeUser (config : Config) (viewer : Option String) (id : String)
    (rows : UserRows) : Option UserInformation :=
  let info := gathered (shows config viewer id rows) id rows
  if isSkipped config rows || info == { uid := id } then none else some info

/-- The entries of the map, in the order they are put; `none` when the promise
is rejected. -/
def getBatch (config : Config) (sources : Sources) (ids : List String)
    (viewer : Option String) : Option (List (String × UserInformation)) :=
  match validIds ids with
  | [] => some []
  | valid =>
      (fetch config sources valid viewer).map fun fetched =>
        valid.filterMap fun (id, localPart) =>
          (mergeUser config viewer id (fetched.rows id localPart)).map (id, ·)

def get (config : Config) (sources : Sources) (id : String)
    (viewer : Option String) : Option (Option UserInformation) :=
  (getBatch config sources [id] viewer).map (·.lookup id)

end TwakeKickstart.TomServer.UserInfo

namespace TwakeKickstart.TomServer.UserInfo

open Library Utils
open Addressbook (Contact truthy)
open IdentityServer (DirectoryRow)

/-! The merge, field by field: a source that has no row is one that has an
empty row. -/

@[simp] theorem replaced_none (old : Option String) :
    replaced none old = old := rfl

theorem replaced_eq_iff (value old : Option String) :
    replaced value old = replaced value none ↔
      truthy value = true ∨ old = none := by
  unfold replaced
  cases truthy value with
  | true => simp
  | false => simp

theorem replaced_none_eq (value : Option String) :
    replaced value none = none ↔ truthy value = false := by
  cases value with
  | none => simp [truthy]
  | some text =>
      cases h : truthy (some text) with
      | true => simp [replaced, h]
      | false => simp [replaced, h]

theorem replaced_eq_none {value old : Option String}
    (h : replaced value old = none) : truthy value = false ∧ old = none := by
  unfold replaced at h
  split at h
  · rename_i hthere
    rw [h] at hthere
    cases hthere
  · rename_i hmissing
    exact ⟨Bool.eq_false_iff.mpr hmissing, h⟩

@[simp] theorem pushed_none (texts : Option (List String)) :
    pushed none texts = texts := by
  cases texts <;> rfl

namespace UserRows

variable (rows : UserRows)

def profileRow : ProfileRow := rows.matrix.getD ⟨"", none, none⟩

def entry : DirectoryRow := rows.directory.getD []

def payload : SettingsPayload := rows.settings.getD {}

def contactName : Option String := rows.contact.bind (·.displayName)

def given : Option String :=
  (rows.entry.lookup "givenname").or (rows.entry.lookup "givenName")

end UserRows

/-- The name under which the user is known locally. -/
def localName (rows : UserRows) : Option String :=
  if truthy rows.profileRow.displayname then rows.profileRow.displayname
  else replaced (rows.entry.lookup "cn") none

/-- The values of an attribute that may be shown. -/
def shown (visible : Bool) (value : Option String) : Option (List String) :=
  if truthy value && visible then value.map ([·]) else none

def pushedWhen (visible : Bool) (value : Option String)
    (texts : Option (List String)) : Option (List String) :=
  if visible then pushed value texts else texts

theorem shown_eq_none {visible : Bool} {own other : Option String}
    (h : pushedWhen visible own (shown visible other) = none)
    (there : truthy other = true) : visible = false := by
  cases visible with
  | false => rfl
  | true =>
      cases other with
      | none => cases there
      | some value =>
          rw [shown, there, Bool.and_self, if_pos rfl, Option.map_some,
            pushedWhen, if_pos rfl] at h
          cases own <;> cases h

theorem gathered_steps (visible : ProfileField → Bool) (id : String)
    (rows : UserRows) :
    gathered visible id rows =
      let info := addSettings visible rows.payload
        (addDirectory visible rows.entry
          (addMatrix rows.profileRow { uid := id }))
      { info with
        displayName := replaced rows.contactName info.displayName } := by
  obtain ⟨matrix, directory, settings, profile, contact⟩ := rows
  have hdirectory : ∀ info : UserInformation,
      addDirectory visible [] info = info := by
    intro info
    simp only [addDirectory, List.lookup_nil, replaced_none, ite_self]
    rfl
  have hsettings : ∀ info : UserInformation,
      addSettings visible {} info = info := by
    intro info
    simp only [addSettings, pushed_none, replaced_none, ite_self]
  simp only [gathered, UserRows.payload, UserRows.entry, UserRows.profileRow,
    UserRows.contactName]
  cases matrix <;> cases directory <;> cases settings <;> cases contact <;>
    simp only [Option.elim_none, Option.elim_some, Option.getD_none,
      Option.getD_some, hdirectory, hsettings] <;> rfl

theorem localName_eq (visible : ProfileField → Bool) (id : String)
    (rows : UserRows) :
    (addDirectory visible rows.entry
      (addMatrix rows.profileRow { uid := id })).displayName =
      localName rows := by
  unfold addDirectory addMatrix localName
  cases h : truthy rows.profileRow.displayname with
  | true => simp [replaced, h]
  | false =>
      have hnone := (replaced_none_eq _).mpr h
      simp only [hnone, Bool.false_eq_true, if_false]
      rfl

theorem gathered_eq (visible : ProfileField → Bool) (id : String)
    (rows : UserRows) :
    gathered visible id rows =
      { uid := id
        displayName := replaced rows.contactName
          (replaced rows.payload.displayName (localName rows))
        avatarUrl := replaced rows.profileRow.avatarUrl none
        sn := replaced rows.payload.lastName
          (replaced (rows.entry.lookup "sn") none)
        lastName := replaced rows.payload.lastName
          (replaced (rows.entry.lookup "sn") none)
        givenName := replaced rows.payload.firstName rows.given
        firstName := replaced rows.payload.firstName rows.given
        emails := pushedWhen (visible .email) rows.payload.email
          (shown (visible .email) (rows.entry.lookup "mail"))
        phones := pushedWhen (visible .phone) rows.payload.phone
          (shown (visible .phone) (rows.entry.lookup "mobile"))
        language := replaced rows.payload.language none
        timezone := replaced rows.payload.timezone none
        workplaceFqdn := replaced (rows.entry.lookup "workplaceFqdn") none } := by
  rw [gathered_steps, ← localName_eq visible id]
  simp only [addSettings, addDirectory, addMatrix, Option.or_none]
  rfl

end TwakeKickstart.TomServer.UserInfo
