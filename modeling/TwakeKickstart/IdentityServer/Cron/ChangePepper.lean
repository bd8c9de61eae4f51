import TwakeKickstart.Library.EventLoop
import TwakeKickstart.Utils.MatrixId
import TwakeKickstart.IdentityServer.Lookup.UpdateHash

namespace TwakeKickstart.IdentityServer

open Library Utils

/-! `updateHashes`: a new pepper replaces the published one, and the directory
is hashed with it. -/

/-- A row of the user database, with the field `active` that `filter` sets. -/
structure UserRow where
  uid : Option String
  mail : Option String
  mobile : Option String
  active : Option Int := none
  deriving DecidableEq

/-- `name.replace(/^@(.*?):(?:.*)$/, '$1')` -/
def localPart (name : String) : String :=
  match name.toList with
  | '@' :: rest =>
      if ':' ∈ rest ∧ rest.all (!isLineTerminator ·) then
        String.ofList (rest.takeWhile (· != ':'))
      else name
  | _ => name

def listed (names : List String) (row : UserRow) : Bool :=
  row.uid.any names.contains

/-- The rows that are hashed.  `entries` are the names that the Matrix database
gives, `none` when its query failed. -/
def filter (conf : Config) (rows : List UserRow)
    (entries : Option (List String)) : List UserRow :=
  let names := (entries.getD []).map localPart
  if names.isEmpty then
    if conf.isFederatedIdentityServiceSet then [] else rows
  else if conf.isFederatedIdentityServiceSet then
    (rows.filter (listed names)).map fun row => { row with active := some 1 }
  else
    rows.map fun row =>
      if listed names row then { row with active := some 1 } else row

def userFields (conf : Config) (row : UserRow) : ValueField where
  active := if conf.isMatrixDbAvailable then row.active else some 1
  email := row.mail
  phone := row.mobile

/-- One step of the reduction of the directory, which stops at the first row
whose `uid` gives no Matrix ID. -/
def addUser (conf : Config) (res : UpdatableFields) (row : UserRow) :
    Except MatrixIdError UpdatableFields :=
  (toMatrixId row.uid conf.serverName).map fun mxid =>
    res.put mxid (userFields conf row)

def usersData (conf : Config) (rows : List UserRow) :
    Except MatrixIdError UpdatableFields :=
  rows.foldlM (addUser conf) []

inductive RotationOperation where
  | getPreviousPepper
  | deleteOldHashes (pepper : String)
  | getPepper
  | setPreviousPepper (pepper : String)
  | getUsers
  | getMatrixUsers (rows : List UserRow)
  | hash (operation : HashOperation)
  | publish
  deriving DecidableEq

/-- How an operation ends, and what the two directories answer. -/
structure Outcome where
  fails : Bool := false
  users : List UserRow := []
  entries : Option (List String) := none

/-- The store and the variables of the rotation in progress; `rejected` and
`published` tell how its promise ends. -/
structure Rotation where
  store : Store
  newPepper : String
  workers : Workers := ⟨"", [], 0⟩
  previousSet : Bool := false
  hashed : Bool := false
  published : Bool := false
  rejected : Bool := false

abbrev RotationLoop := Loop RotationOperation Rotation

namespace Rotation

def reject (rotation : Rotation) : Rotation × List RotationOperation :=
  ({ rotation with rejected := true }, [])

/-- The end of `Promise.all`. -/
def settle (rotation : Rotation) : Rotation × List RotationOperation :=
  (rotation,
    if rotation.previousSet && rotation.hashed then [.publish] else [])

def onHashStep (rotation : Rotation) (step : HashStep) :
    Rotation × List RotationOperation :=
  let rotation :=
    { rotation with store := step.store, workers := step.workers }
  match step.verdict with
  | .going => (rotation, step.issued.map .hash)
  | .resolved => { rotation with hashed := true }.settle
  | .rejected => rotation.reject

def onUsers (conf : Config) (rotation : Rotation)
    (rows : List UserRow) : Rotation × List RotationOperation :=
  match usersData conf rows with
  | .error _ => rotation.reject
  | .ok data =>
      let params := updateParams data
      if params.isEmpty then { rotation with hashed := true }.settle
      else
        let (workers, issued) := Workers.start rotation.newPepper params
        ({ rotation with workers }, issued.map .hash)

def react (env : Environment) (conf : Config) (outcome : Outcome) :
    RotationOperation → Rotation → Rotation × List RotationOperation
  | .getPreviousPepper, rotation =>
      match (attempt env outcome.fails
          (.get .keys ["data"] [("name", .str "previousPepper")])
          rotation.store).1 with
      | some (key :: _) =>
          (rotation, if key.data.length = 32 then [.deleteOldHashes key.data]
            else [])
      | _ => (rotation, [])
  | .deleteOldHashes pepper, rotation =>
      let (_, store) := attempt env outcome.fails
        (.deleteEqual .hashes "pepper" (.str pepper)) rotation.store
      ({ rotation with store }, [])
  | .getPepper, rotation =>
      match (attempt env outcome.fails
          (.get .keys ["data"] [("name", .str "pepper")])
          rotation.store).1 with
      | some (key :: _) => (rotation, [.setPreviousPepper key.data, .getUsers])
      | _ => rotation.reject
  | .setPreviousPepper pepper, rotation =>
      match attempt env outcome.fails
          (.update .keys (fun key => { key with data := pepper }) "name"
            (.str "previousPepper")) rotation.store with
      | (none, _) => rotation.reject
      | (some _, store) => { rotation with store, previousSet := true }.settle
  | .getUsers, rotation =>
      if outcome.fails then rotation.reject
      else if conf.isMatrixDbAvailable then
        (rotation, [.getMatrixUsers outcome.users])
      else rotation.onUsers conf outcome.users
  | .getMatrixUsers rows, rotation =>
      if outcome.fails then rotation.reject
      else rotation.onUsers conf (filter conf rows outcome.entries)
  | .hash operation, rotation =>
      rotation.onHashStep
        (rotation.workers.react env outcome.fails rotation.store operation)
  | .publish, rotation =>
      match attempt env outcome.fails
          (.update .keys (fun key => { key with data := rotation.newPepper })
            "name" (.str "pepper")) rotation.store with
      | (none, _) => rotation.reject
      | (some _, store) => ({ rotation with store, published := true }, [])

end Rotation

inductive RotationEvent where
  | start (newPepper : String)
  | complete (index : Nat) (outcome : Outcome)

/-- The two operations that a rotation begins with.  `newPepper` is the random
string that it draws. -/
def startRotation (store : Store) (newPepper : String) : RotationLoop where
  vars := { store, newPepper }
  pending := [.getPreviousPepper, .getPepper]

/-- Rotations follow one another: none starts while an operation is under
way. -/
def rotationStep (env : Environment) (conf : Config) (loop : RotationLoop) :
    RotationEvent → Option RotationLoop
  | .start newPepper =>
      if loop.pending.isEmpty then
        some (startRotation loop.vars.store newPepper)
      else none
  | .complete index outcome =>
      loop.complete (Rotation.react env conf) index outcome

/-! What each operation does. -/

variable {env : Environment} {conf : Config} {outcome : Outcome}
variable {rotation : Rotation} {pepper previous : String}

/-- A deletion that fails changes nothing; one that succeeds takes exactly the
rows under the pepper. -/
theorem attempt_deleteHashes (env : Environment) (fails : Bool)
    (pepper : String) (store : Store) :
    attempt env fails (.deleteEqual .hashes "pepper" (.str pepper)) store =
      (none, store) ∨
    attempt env fails (.deleteEqual .hashes "pepper" (.str pepper)) store =
      (some (), Function.update store .hashes
        ((store .hashes).filter fun row => !(row.pepper == pepper))) := by
  unfold attempt execute
  split
  · exact .inl rfl
  · dsimp only
    split
    · exact .inl rfl
    · refine .inr ?_
      have hequals : (fun row : HashRow =>
          !equals env.driver .hashes ("pepper", .str pepper) row) =
          fun row => !(row.pepper == pepper) := by
        funext row
        simp [equals, cell, Cell.same]
      rw [hequals]

theorem attempt_setKey_healthy (env : Environment) (name data : String)
    (store : Store) :
    ∃ rows, attempt env false
      (.update .keys (fun key => { key with data }) "name" (.str name)) store =
      (some rows, Function.update store .keys
        ((store .keys).map fun key =>
          if key.name == name then { key with data } else key)) := by
  refine ⟨_, Prod.ext rfl ?_⟩
  change Function.update store .keys _ = _
  rw [updateRows]
  have hequals : (fun key : KeyRow =>
      if equals env.driver .keys ("name", .str name) key = true then
        { key with data } else key) =
      fun key => if (key.name == name) = true then { key with data }
        else key := by
    funext key
    simp [equals, cell, Cell.same]
  exact congrArg (fun values => Function.update store .keys
    ((store .keys).map values)) hequals

theorem attempt_setKey (env : Environment) (fails : Bool)
    (name data : String) (store : Store) :
    attempt env fails
      (.update .keys (fun key => { key with data }) "name" (.str name)) store =
      (none, store) ∨
    ∃ rows, attempt env fails
      (.update .keys (fun key => { key with data }) "name" (.str name)) store =
      (some rows, Function.update store .keys
        ((store .keys).map fun key =>
          if key.name == name then { key with data } else key)) := by
  cases fails with
  | true => exact .inl rfl
  | false => exact .inr (attempt_setKey_healthy env name data store)

theorem setKey_pepper (pepper previous data : String) :
    (keyRows pepper previous).map (fun key =>
      if key.name == "pepper" then { key with data } else key) =
      keyRows data previous := rfl

theorem setKey_previous (pepper previous data : String) :
    (keyRows pepper previous).map (fun key =>
      if key.name == "previousPepper" then { key with data } else key) =
      keyRows pepper data := rfl

namespace Rotation

theorem react_getPreviousPepper
    (keys : rotation.store .keys = keyRows pepper previous) :
    react env conf outcome .getPreviousPepper rotation =
      (rotation,
        if outcome.fails = false ∧ previous.length = 32 then
          [.deleteOldHashes previous]
        else []) := by
  simp only [react, attempt_previousPepper outcome.fails keys]
  cases outcome.fails with
  | true => rfl
  | false => simp

theorem react_getPepper
    (keys : rotation.store .keys = keyRows pepper previous) :
    react env conf outcome .getPepper rotation =
      if outcome.fails then rotation.reject
      else (rotation, [.setPreviousPepper pepper, .getUsers]) := by
  simp only [react, attempt_pepper outcome.fails keys]
  cases outcome.fails with
  | true => rfl
  | false => rfl

theorem react_deleteOldHashes (env : Environment) (conf : Config)
    (outcome : Outcome) (data : String) (rotation : Rotation) :
    react env conf outcome (.deleteOldHashes data) rotation = (rotation, []) ∨
    react env conf outcome (.deleteOldHashes data) rotation =
      ({ rotation with
          store := Function.update rotation.store .hashes
            ((rotation.store .hashes).filter fun row =>
              !(row.pepper == data)) }, []) := by
  rcases attempt_deleteHashes env outcome.fails data rotation.store with
    hrefused | hdeleted
  · left
    simp only [react, hrefused]
  · right
    simp only [react, hdeleted]

theorem react_setPreviousPepper_healthy
    (keys : rotation.store .keys = keyRows pepper previous)
    (healthy : outcome.fails = false) (data : String) :
    react env conf outcome (.setPreviousPepper data) rotation =
      settle { rotation with
        store := Function.update rotation.store .keys (keyRows pepper data),
        previousSet := true } := by
  obtain ⟨rows, hset⟩ :=
    attempt_setKey_healthy env "previousPepper" data rotation.store
  rw [keys, setKey_previous] at hset
  simp only [react, healthy, hset]

theorem react_setPreviousPepper
    (keys : rotation.store .keys = keyRows pepper previous) (data : String) :
    react env conf outcome (.setPreviousPepper data) rotation =
      rotation.reject ∨
    react env conf outcome (.setPreviousPepper data) rotation =
      settle { rotation with
        store := Function.update rotation.store .keys (keyRows pepper data),
        previousSet := true } := by
  cases hfails : outcome.fails with
  | true =>
      left
      simp only [react, hfails]
      rfl
  | false => exact .inr (react_setPreviousPepper_healthy keys hfails data)

theorem react_publish_healthy
    (keys : rotation.store .keys = keyRows pepper previous)
    (healthy : outcome.fails = false) :
    react env conf outcome .publish rotation =
      ({ rotation with
          store := Function.update rotation.store .keys
            (keyRows rotation.newPepper previous),
          published := true }, []) := by
  obtain ⟨rows, hset⟩ :=
    attempt_setKey_healthy env "pepper" rotation.newPepper rotation.store
  rw [keys, setKey_pepper] at hset
  simp only [react, healthy, hset]

theorem react_publish
    (keys : rotation.store .keys = keyRows pepper previous) :
    react env conf outcome .publish rotation = rotation.reject ∨
    react env conf outcome .publish rotation =
      ({ rotation with
          store := Function.update rotation.store .keys
            (keyRows rotation.newPepper previous),
          published := true }, []) := by
  cases hfails : outcome.fails with
  | true =>
      left
      simp only [react, hfails]
      rfl
  | false => exact .inr (react_publish_healthy keys hfails)

theorem onUsers_cases (conf : Config)
    (rotation : Rotation) (rows : List UserRow) :
    (∃ error, usersData conf rows = .error error ∧
      rotation.onUsers conf rows = rotation.reject) ∨
    ∃ data, usersData conf rows = .ok data ∧
      ((updateParams data = [] ∧ rotation.onUsers conf rows =
          settle { rotation with hashed := true }) ∨
        (updateParams data ≠ [] ∧ rotation.onUsers conf rows =
          ({ rotation with
              workers :=
                (Workers.start rotation.newPepper (updateParams data)).1 },
            (Workers.start rotation.newPepper
              (updateParams data)).2.map .hash))) := by
  unfold onUsers
  split
  · rename_i error herror
    exact .inl ⟨error, herror, rfl⟩
  · rename_i data hdata
    refine .inr ⟨data, hdata, ?_⟩
    dsimp only
    split
    · rename_i hempty
      exact .inl ⟨List.isEmpty_iff.mp hempty, rfl⟩
    · rename_i hparams
      exact .inr ⟨fun hempty => hparams (List.isEmpty_iff.mpr hempty), rfl⟩

/-- The rotation after a worker's step, before the step is accounted for. -/
def afterHash (rotation : Rotation) (step : HashStep) : Rotation :=
  { rotation with store := step.store, workers := step.workers }

theorem onHashStep_cases (rotation : Rotation) (step : HashStep) :
    (step.verdict = .going ∧ rotation.onHashStep step =
      (rotation.afterHash step, step.issued.map .hash)) ∨
    (step.verdict = .resolved ∧ rotation.onHashStep step =
      settle { rotation.afterHash step with hashed := true }) ∨
    (step.verdict = .rejected ∧
      rotation.onHashStep step = (rotation.afterHash step).reject) := by
  unfold onHashStep
  dsimp only
  cases step.verdict with
  | going => exact .inl ⟨rfl, rfl⟩
  | resolved => exact .inr (.inl ⟨rfl, rfl⟩)
  | rejected => exact .inr (.inr ⟨rfl, rfl⟩)

/-- An operation that touches no key and deletes no hash, and after which no
hashes are to be deleted: every one but those on the old peppers and the
publication. -/
structure Ordinary (before after : Rotation)
    (issued : List RotationOperation) : Prop where
  keys : after.store .keys = before.store .keys
  hashes : ∀ row ∈ before.store .hashes, row ∈ after.store .hashes
  newPepper : after.newPepper = before.newPepper
  previousSet : after.previousSet = before.previousSet
  published : after.published = before.published
  deletes : ∀ data, .deleteOldHashes data ∉ issued
  copies : ∀ data, .setPreviousPepper data ∈ issued →
    ∃ previous, before.store .keys = keyRows data previous
  publishes : .publish ∈ issued → before.previousSet = true

theorem ordinary_reject (rotation : Rotation) :
    Ordinary rotation rotation.reject.1 rotation.reject.2 :=
  ⟨rfl, fun _ h => h, rfl, rfl, rfl, by simp [reject], by simp [reject],
    by simp [reject]⟩

theorem mem_settle {rotation : Rotation} {operation : RotationOperation}
    (h : operation ∈ rotation.settle.2) :
    operation = .publish ∧ rotation.previousSet = true ∧
      rotation.hashed = true := by
  simp only [settle] at h
  split at h
  · rename_i hboth
    rw [Bool.and_eq_true] at hboth
    exact ⟨List.mem_singleton.mp h, hboth⟩
  · cases h

theorem ordinary_settle_hashed {before after : Rotation}
    (keys : after.store .keys = before.store .keys)
    (hashes : ∀ row ∈ before.store .hashes, row ∈ after.store .hashes)
    (newPepper : after.newPepper = before.newPepper)
    (previousSet : after.previousSet = before.previousSet)
    (published : after.published = before.published) :
    Ordinary before after.settle.1 after.settle.2 := by
  refine ⟨keys, hashes, newPepper, previousSet, published, ?_, ?_, ?_⟩
  · intro data h
    exact absurd (mem_settle h).1 (by simp)
  · intro data h
    exact absurd (mem_settle h).1 (by simp)
  · intro h
    rw [← previousSet]
    exact (mem_settle h).2.1

theorem ordinary_onHashStep {step : HashStep}
    (keys : step.store .keys = rotation.store .keys)
    (hashes : ∀ row ∈ rotation.store .hashes, row ∈ step.store .hashes) :
    Ordinary rotation (rotation.onHashStep step).1
      (rotation.onHashStep step).2 := by
  rcases onHashStep_cases rotation step with
    ⟨_, hstep⟩ | ⟨_, hstep⟩ | ⟨_, hstep⟩
  · rw [hstep]
    exact ⟨keys, hashes, rfl, rfl, rfl, by simp, by simp, by simp⟩
  · rw [hstep]
    exact ordinary_settle_hashed keys hashes rfl rfl rfl
  · rw [hstep]
    exact ⟨keys, hashes, rfl, rfl, rfl, by simp [reject], by simp [reject],
      by simp [reject]⟩

theorem ordinary_hash (operation : HashOperation) :
    Ordinary rotation (react env conf outcome (.hash operation) rotation).1
      (react env conf outcome (.hash operation) rotation).2 := by
  simp only [react]
  rcases @Workers.react_store env rotation.store rotation.workers
      outcome.fails operation with hsame | ⟨row, hstored⟩
  · apply ordinary_onHashStep
    · rw [hsame]
    · rw [hsame]
      exact fun _ h => h
  · apply ordinary_onHashStep
    · rw [hstored]
      exact Function.update_of_ne (by decide) _ _
    · intro other hother
      rw [hstored, Function.update_self]
      exact List.mem_append_left _ hother

theorem ordinary_onUsers (rows : List UserRow) :
    Ordinary rotation (rotation.onUsers conf rows).1
      (rotation.onUsers conf rows).2 := by
  rcases onUsers_cases conf rotation rows with
    ⟨_, _, hreject⟩ | ⟨data, _, ⟨_, hsettle⟩ | ⟨_, hstart⟩⟩
  · rw [hreject]
    exact ordinary_reject rotation
  · rw [hsettle]
    exact ordinary_settle_hashed rfl (fun _ h => h) rfl rfl rfl
  · rw [hstart]
    exact ⟨rfl, fun _ h => h, rfl, rfl, rfl, by simp, by simp, by simp⟩

theorem ordinary_getPepper
    (keys : rotation.store .keys = keyRows pepper previous) :
    Ordinary rotation (react env conf outcome .getPepper rotation).1
      (react env conf outcome .getPepper rotation).2 := by
  rw [react_getPepper keys]
  split
  · exact ordinary_reject rotation
  · refine ⟨rfl, fun _ h => h, rfl, rfl, rfl, by simp, ?_, by simp⟩
    intro data h
    have hdata : data = pepper := by simpa using h
    rw [hdata]
    exact ⟨previous, keys⟩

theorem ordinary_getUsers :
    Ordinary rotation (react env conf outcome .getUsers rotation).1
      (react env conf outcome .getUsers rotation).2 := by
  simp only [react]
  split
  · exact ordinary_reject rotation
  · split
    · exact ⟨rfl, fun _ h => h, rfl, rfl, rfl, by simp, by simp, by simp⟩
    · exact ordinary_onUsers outcome.users

theorem ordinary_getMatrixUsers (rows : List UserRow) :
    Ordinary rotation (react env conf outcome (.getMatrixUsers rows) rotation).1
      (react env conf outcome (.getMatrixUsers rows) rotation).2 := by
  simp only [react]
  split
  · exact ordinary_reject rotation
  · exact ordinary_onUsers _

/-- A rotation has nothing to do with the history, and does not take back what
it has published. -/
theorem react_frame (env : Environment) (conf : Config) (outcome : Outcome)
    (operation : RotationOperation) (rotation : Rotation) :
    (react env conf outcome operation rotation).1.store .userHistory =
      rotation.store .userHistory ∧
    (rotation.published = true →
      (react env conf outcome operation rotation).1.published = true) := by
  have hhistory : Collections.userHistory ≠ .hashes ∧
      Collections.userHistory ≠ .keys := by decide
  have husers : ∀ rows,
      (rotation.onUsers conf rows).1.store .userHistory =
        rotation.store .userHistory ∧
      (rotation.published = true →
        (rotation.onUsers conf rows).1.published = true) := by
    intro rows
    rcases onUsers_cases conf rotation rows with
      ⟨_, _, hreject⟩ | ⟨_, _, ⟨_, hsettle⟩ | ⟨_, hstart⟩⟩
    · rw [hreject]
      exact ⟨rfl, fun h => h⟩
    · rw [hsettle]
      exact ⟨rfl, fun h => h⟩
    · rw [hstart]
      exact ⟨rfl, fun h => h⟩
  cases operation with
  | getPreviousPepper =>
      simp only [react]
      split
      · exact ⟨rfl, fun h => h⟩
      · exact ⟨rfl, fun h => h⟩
  | deleteOldHashes data =>
      rcases react_deleteOldHashes env conf outcome data rotation with
        hreact | hreact
      · rw [hreact]
        exact ⟨rfl, fun h => h⟩
      · rw [hreact]
        dsimp only
        exact ⟨Function.update_of_ne hhistory.1 _ _, fun h => h⟩
  | getPepper =>
      simp only [react]
      split
      · exact ⟨rfl, fun h => h⟩
      · exact ⟨rfl, fun h => h⟩
  | setPreviousPepper data =>
      rcases attempt_setKey env outcome.fails "previousPepper" data
        rotation.store with hrefused | ⟨_, hset⟩
      · simp only [react, hrefused]
        exact ⟨rfl, fun h => h⟩
      · simp only [react, hset, settle]
        exact ⟨Function.update_of_ne hhistory.2 _ _, fun h => h⟩
  | publish =>
      rcases attempt_setKey env outcome.fails "pepper" rotation.newPepper
        rotation.store with hrefused | ⟨_, hset⟩
      · simp only [react, hrefused]
        exact ⟨rfl, fun h => h⟩
      · simp only [react, hset]
        exact ⟨Function.update_of_ne hhistory.2 _ _, fun _ => trivial⟩
  | getUsers =>
      simp only [react]
      split
      · exact ⟨rfl, fun h => h⟩
      · split
        · exact ⟨rfl, fun h => h⟩
        · exact husers outcome.users
  | getMatrixUsers rows =>
      simp only [react]
      split
      · exact ⟨rfl, fun h => h⟩
      · exact husers _
  | hash task =>
      have hstore : (rotation.workers.react env outcome.fails rotation.store
          task).store .userHistory = rotation.store .userHistory := by
        rcases @Workers.react_store env rotation.store rotation.workers
          outcome.fails task with hsame | ⟨row, hsame⟩
        · rw [hsame]
        · rw [hsame]
          exact Function.update_of_ne hhistory.1 _ _
      simp only [react]
      rcases onHashStep_cases rotation (rotation.workers.react env
        outcome.fails rotation.store task) with
        ⟨_, hstep⟩ | ⟨_, hstep⟩ | ⟨_, hstep⟩
      · rw [hstep]
        exact ⟨hstore, fun h => h⟩
      · rw [hstep]
        exact ⟨hstore, fun h => h⟩
      · rw [hstep]
        exact ⟨hstore, fun h => h⟩

end Rotation

end TwakeKickstart.IdentityServer
