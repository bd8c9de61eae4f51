import TwakeKickstart.Library.Async
import TwakeKickstart.IdentityServer.Db.Store

namespace TwakeKickstart.CommonSettings

open Library
open IdentityServer (SupportedDatabases)

/-! `CommonSettingsService.handleMessage`: a settings message from the queue is
stored in `usersettings` and its display name and avatar are pushed to Synapse
through the Admin Settings API. -/

structure SettingsPayload where
  language : Option String := none
  timezone : Option String := none
  avatar : Option String := none
  lastName : Option String := none
  firstName : Option String := none
  email : Option String := none
  phone : Option String := none
  matrixId : Option String := none
  displayName : Option String := none
  deriving DecidableEq

/-- The fields of a message that the service reads. -/
structure CommonSettingsMessage where
  version : Int
  payload : Option SettingsPayload
  deriving DecidableEq

/-- A row of `usersettings`.  `settings` is a `jsonb` column. -/
structure UserSettings where
  matrixId : String
  settings : SettingsPayload
  version : Int
  deriving DecidableEq

/-- A key is absent, or present with a value, which may be `undefined`. -/
structure UserInformationPayload where
  displayName : Option (Option String) := none
  avatarUrl : Option (Option String) := none
  deriving DecidableEq

/-- What Synapse shows of a user; the avatar stands for the image behind the
URL that was pushed last. -/
structure Profile where
  displayName : Option String := none
  avatarUrl : Option String := none
  deriving DecidableEq

inductive Failure where
  | couldNotParseMessage
  | userIdNotProvided
  | userIdRequired
  | database
  | userInformation
  deriving DecidableEq

inductive Effect where
  | getSettings (userId : String)
  | insertSettings (row : UserSettings)
  | updateSettings (row : UserSettings)
  | postInformation (userId : String) (payload : UserInformationPayload)
  | sleep (delay : Nat)
  | settle (failure : Option Failure)

namespace Effect

-- `none` and `false` are rejected promises.
@[reducible] def Result : Effect → Type
  | getSettings _ => Option (List UserSettings)
  | insertSettings _ => Option Unit
  | updateSettings _ => Option Unit
  | postInformation _ _ => Bool
  | sleep _ => Unit
  | settle _ => Unit

end Effect

abbrev Procedure := Program Effect Effect.Result

namespace UserInformationPayload

def hasKeys (payload : UserInformationPayload) : Bool :=
  payload.displayName.isSome || payload.avatarUrl.isSome

/-- `JSON.stringify` leaves out what is undefined, and the endpoint refuses a
body without either field. -/
def hasFields (payload : UserInformationPayload) : Bool :=
  payload.displayName.join.isSome || payload.avatarUrl.join.isSome

/-- Both fields, as for a record that has just been created. -/
def created (settings : SettingsPayload) : UserInformationPayload where
  displayName := some settings.displayName
  avatarUrl := some settings.avatar

def changed (old : Profile) (settings : SettingsPayload) :
    UserInformationPayload where
  displayName :=
    if old.displayName ≠ settings.displayName then some settings.displayName
    else none
  avatarUrl :=
    if old.avatarUrl ≠ settings.avatar then some settings.avatar else none

end UserInformationPayload

/-- The two fields of the stored settings as `userSettings.settings` gives
them.  PostgreSQL decodes the column; from SQLite it comes as a text, which has
no such properties. -/
def oldConfig (engine : SupportedDatabases) (row : UserSettings) : Profile :=
  match engine with
  | .pg => ⟨row.settings.displayName, row.settings.avatar⟩
  | .sqlite => {}

def settle (failure : Option Failure) : Procedure :=
  .perform (.settle failure) fun _ => .done

/-- The loop of `_updateUserInformationWithRetry`, with what is left of its
attempts.  A missing `base_url` or token makes an attempt fail as well. -/
def updateUserInformation (userId : String)
    (payload : UserInformationPayload) (next : Procedure) :
    (remaining attempt : Nat) → Procedure
  | 0, _ =>
      .perform (.postInformation userId payload) fun ok =>
        if ok then next else settle (some .userInformation)
  | remaining + 1, attempt =>
      .perform (.postInformation userId payload) fun ok =>
        if ok then next
        else
          .perform (.sleep (attempt * 500)) fun _ =>
            updateUserInformation userId payload next remaining (attempt + 1)

def updateUserSettings (row : UserSettings) : Procedure :=
  .perform (.updateSettings row) fun
    | none => settle (some .database)
    | some _ => settle none

def pushChanges (row : UserSettings) (payload : UserInformationPayload) :
    Procedure :=
  if payload.hasKeys then
    updateUserInformation row.matrixId payload (updateUserSettings row) 2 1
  else updateUserSettings row

def onExisting (engine : SupportedDatabases) (row : UserSettings) :
    Option (List UserSettings) → Procedure
  | none => settle (some .database)
  | some (existing :: _) =>
      pushChanges row (.changed (oldConfig engine existing) row.settings)
  | some [] =>
      .perform (.insertSettings row) fun
        | none => settle (some .database)
        | some _ => pushChanges row (.created row.settings)

/-- The row that a message asks for. -/
def onUserId (engine : SupportedDatabases) (row : UserSettings) : Procedure :=
  if row.matrixId = "" then settle (some .userIdRequired)
  else .perform (.getSettings row.matrixId) (onExisting engine row)

def CommonSettingsMessage.row? (message : CommonSettingsMessage) :
    Option UserSettings :=
  message.payload.bind fun settings =>
    settings.matrixId.map fun userId => ⟨userId, settings, message.version⟩

-- `none` when the content is no JSON, or `null`.
def handleMessage (engine : SupportedDatabases)
    (parsed : Option CommonSettingsMessage) : Procedure :=
  match parsed with
  | none => settle (some .couldNotParseMessage)
  | some message =>
      match message.row? with
      | none => settle (some .userIdNotProvided)
      | some row => onUserId engine row

/-! The world around the service. -/

structure World where
  rows : List UserSettings
  profiles : String → Profile
  settled : List (Option Failure) := []

/-- A call that fails may have been carried out all the same. -/
structure Choice where
  fails : Bool
  applied : Bool

def Choice.effective (choice : Choice) : Bool :=
  !choice.fails || choice.applied

def Choice.ok : Choice := ⟨false, true⟩

@[simp] theorem ok_effective : Choice.ok.effective = true := rfl

namespace World

def rowsOf (world : World) (userId : String) : List UserSettings :=
  world.rows.filter (·.matrixId == userId)

/-- `matrix_id` is the primary key. -/
def insert (world : World) (row : UserSettings) : World :=
  { world with rows := world.rows ++ [row] }

def update (world : World) (row : UserSettings) : World :=
  { world with
    rows := world.rows.map fun other =>
      if other.matrixId = row.matrixId then row else other }

/-- `updateUserInformation` of the Admin Settings API: one request to Synapse
with the fields that are given. -/
def push (world : World) (userId : String)
    (payload : UserInformationPayload) : World :=
  { world with
    profiles := Function.update world.profiles userId
      { displayName := payload.displayName.join.or
          (world.profiles userId).displayName
        avatarUrl := payload.avatarUrl.join.or
          (world.profiles userId).avatarUrl } }

end World

def handle (choice : Choice) : Handler Effect Effect.Result World
  | .getSettings userId, world =>
      (if choice.fails then none else some (world.rowsOf userId), world)
  | .insertSettings row, world =>
      if world.rowsOf row.matrixId ≠ [] then (none, world)
      else
        (if choice.fails then none else some (),
          if choice.effective then world.insert row else world)
  | .updateSettings row, world =>
      (if choice.fails then none else some (),
        if choice.effective then world.update row else world)
  | .postInformation userId payload, world =>
      if payload.hasFields then
        (!choice.fails,
          if choice.effective then world.push userId payload else world)
      else (false, world)
  | .sleep _, world => ((), world)
  | .settle failure, world =>
      ((), { world with settled := world.settled ++ [failure] })

/-! Whether the two sides are in step. -/

/-- The profile shows what the settings give. -/
def Agrees (profile : Profile) (settings : SettingsPayload) : Prop :=
  (∀ name ∈ settings.displayName, profile.displayName = some name) ∧
  ∀ url ∈ settings.avatar, profile.avatarUrl = some url

def SidesAgree (world : World) (userId : String) : Prop :=
  ∀ row ∈ world.rowsOf userId, Agrees (world.profiles userId) row.settings

/-- The stored row is this one, and the profile shows its settings. -/
structure InStep (world : World) (row : UserSettings) : Prop where
  stored : row ∈ world.rowsOf row.matrixId
  only : ∀ other ∈ world.rowsOf row.matrixId, other = row
  pushed : Agrees (world.profiles row.matrixId) row.settings

section World

variable (world : World) (row : UserSettings) (userId : String)
variable (payload : UserInformationPayload)

@[simp] theorem mem_rowsOf {other : UserSettings} :
    other ∈ world.rowsOf userId ↔
      other ∈ world.rows ∧ other.matrixId = userId := by
  simp [World.rowsOf]

@[simp] theorem insert_profiles :
    (world.insert row).profiles = world.profiles := rfl

@[simp] theorem update_profiles :
    (world.update row).profiles = world.profiles := rfl

@[simp] theorem push_rows : (world.push userId payload).rows = world.rows :=
  rfl

@[simp] theorem push_rowsOf (other : String) :
    (world.push userId payload).rowsOf other = world.rowsOf other := rfl

@[simp] theorem push_same :
    (world.push userId payload).profiles userId =
      { displayName := payload.displayName.join.or
          (world.profiles userId).displayName
        avatarUrl := payload.avatarUrl.join.or
          (world.profiles userId).avatarUrl } :=
  Function.update_self _ _ _

theorem push_other {other : String} (h : other ≠ userId) :
    (world.push userId payload).profiles other = world.profiles other :=
  Function.update_of_ne h _ _

theorem update_rowsOf (userId : String) :
    (world.update row).rowsOf userId =
      (world.rowsOf userId).map fun other =>
        if other.matrixId = row.matrixId then row else other := by
  unfold World.update World.rowsOf
  rw [List.filter_map]
  congr 1
  refine List.filter_congr fun other _ => ?_
  by_cases hsame : other.matrixId = row.matrixId
  · simp [hsame]
  · simp [hsame]

theorem update_rowsOf_same :
    (world.update row).rowsOf row.matrixId =
      (world.rowsOf row.matrixId).map fun _ => row := by
  rw [update_rowsOf]
  refine List.map_congr_left fun other hother => ?_
  rw [if_pos ((mem_rowsOf world _).mp hother).2]

theorem update_rowsOf_other {userId : String} (h : userId ≠ row.matrixId) :
    (world.update row).rowsOf userId = world.rowsOf userId := by
  rw [update_rowsOf]
  refine (List.map_congr_left fun other hother => ?_).trans (List.map_id _)
  rw [((mem_rowsOf world _).mp hother).2, if_neg h]
  rfl

theorem insert_rowsOf_same :
    (world.insert row).rowsOf row.matrixId =
      world.rowsOf row.matrixId ++ [row] := by
  simp [World.insert, World.rowsOf]

theorem insert_rowsOf_other {userId : String} (h : userId ≠ row.matrixId) :
    (world.insert row).rowsOf userId = world.rowsOf userId := by
  simp [World.insert, World.rowsOf, Ne.symm h]

end World

/-! What a profile shows after a push. -/

theorem agrees_created {payload : UserInformationPayload} {profile : Profile}
    {settings : SettingsPayload} (h : payload = .created settings) :
    Agrees
      { displayName := payload.displayName.join.or profile.displayName
        avatarUrl := payload.avatarUrl.join.or profile.avatarUrl } settings := by
  subst h
  refine ⟨fun name hname => ?_, fun url hurl => ?_⟩
  · rw [Option.mem_def] at hname
    simp [UserInformationPayload.created, hname]
  · rw [Option.mem_def] at hurl
    simp [UserInformationPayload.created, hurl]

theorem agrees_changed {old profile : Profile} {settings : SettingsPayload}
    (name : old.displayName = settings.displayName →
      ∀ name ∈ settings.displayName, profile.displayName = some name)
    (url : old.avatarUrl = settings.avatar →
      ∀ url ∈ settings.avatar, profile.avatarUrl = some url) :
    Agrees
      { displayName :=
          (UserInformationPayload.changed old settings).displayName.join.or
            profile.displayName
        avatarUrl :=
          (UserInformationPayload.changed old settings).avatarUrl.join.or
            profile.avatarUrl } settings := by
  refine ⟨fun value hvalue => ?_, fun value hvalue => ?_⟩
  · by_cases hsame : old.displayName = settings.displayName
    · have hshown := name hsame value hvalue
      simpa [UserInformationPayload.changed, hsame] using hshown
    · rw [Option.mem_def] at hvalue
      rw [hvalue] at hsame
      simp [UserInformationPayload.changed, hsame, hvalue]
  · by_cases hsame : old.avatarUrl = settings.avatar
    · have hshown := url hsame value hvalue
      simpa [UserInformationPayload.changed, hsame] using hshown
    · rw [Option.mem_def] at hvalue
      rw [hvalue] at hsame
      simp [UserInformationPayload.changed, hsame, hvalue]

theorem agrees_unchanged {old profile : Profile} {settings : SettingsPayload}
    (noKeys : (UserInformationPayload.changed old settings).hasKeys = false)
    (name : old.displayName = settings.displayName →
      ∀ name ∈ settings.displayName, profile.displayName = some name)
    (url : old.avatarUrl = settings.avatar →
      ∀ url ∈ settings.avatar, profile.avatarUrl = some url) :
    Agrees profile settings := by
  simp only [UserInformationPayload.hasKeys, UserInformationPayload.changed,
    Bool.or_eq_false_iff, Option.isSome_eq_false_iff, Option.isNone_iff_eq_none,
    ite_eq_right_iff, reduceCtorEq, imp_false, not_not] at noKeys
  exact ⟨name noKeys.1, url noKeys.2⟩

end TwakeKickstart.CommonSettings
