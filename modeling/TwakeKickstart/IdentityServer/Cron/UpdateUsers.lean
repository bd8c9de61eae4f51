import TwakeKickstart.IdentityServer.Cron.ChangePepper

namespace TwakeKickstart.IdentityServer

open Library Utils

/-! `updateUsers`: the directory is compared with the hashes that are stored,
and the history of the users is brought up to date. -/

/-- The values that every object answers for, whatever was stored in it. -/
def inheritedMembers : List String :=
  ["constructor", "__defineGetter__", "__defineSetter__", "hasOwnProperty",
    "__lookupGetter__", "__lookupSetter__", "isPrototypeOf",
    "propertyIsEnumerable", "toString", "valueOf", "__proto__",
    "toLocaleString"]

inductive UserOperation where
  | getUsers
  | getHashes
  | getHistory
  | getMatrixUsers
  | updateHistory (row : HistoryRow)
  | insertHistory (row : HistoryRow)
  | activateHashes (matrixAddress : String)
  | hash (operation : HashOperation)
  | getActive (address : String) (timestamp : Nat)
  | deactivateHistory (address : String)
  deriving DecidableEq

/-- How an operation ends, what the two directories answer, and the time. -/
structure UserOutcome extends Outcome where
  now : Nat := 0

def knownEntry (row : HashRow) : String × Option Int :=
  (localPart row.value, row.active)

/-- What the first requests have found. -/
structure Facts where
  users : List UserRow
  known : List (String × Option Int)
  existing : List String
  matrixUsers : Option (List String)

/-- The store and the variables of the run in progress; `rejected` tells that
its promise was rejected. -/
structure UserUpdate where
  store : Store
  users : Option (List UserRow) := none
  known : Option (List (String × Option Int)) := none
  existing : Option (List String) := none
  matrixUsers : Option (List String) := none
  workers : Workers := ⟨"", [], 0⟩
  rejected : Bool := false

abbrev UserLoop := Loop UserOperation UserUpdate

namespace Facts

variable (conf : Config) (facts : Facts)

def isMatrixUser (uid : Option String) : Bool :=
  facts.matrixUsers.any fun names => uid.any names.contains

/-- The first row that is known for the `uid`. -/
def position (uid : Option String) : Option (Option Int) :=
  (facts.known.find? fun entry => some entry.1 == uid).map Prod.snd

def activity (uid : Option String) : Int :=
  if conf.isMatrixDbAvailable then
    if facts.isMatrixUser uid then 1 else 0
  else 1

def writeHistory (row : HistoryRow) : UserOperation :=
  if facts.existing.contains row.address then .updateHistory row
  else .insertHistory row

/-- What is launched for a user of the directory. -/
def userWrites (now : Nat) (user : UserRow) (matrixAddress : String) :
    List UserOperation :=
  match facts.position user.uid with
  | none =>
      if facts.activity conf user.uid ≠ 0 then
        [facts.writeHistory ⟨matrixAddress, facts.activity conf user.uid, now⟩]
      else []
  | some active =>
      if facts.isMatrixUser user.uid && !(active.any (· != 0)) then
        [.activateHashes matrixAddress,
          facts.writeHistory ⟨matrixAddress, 1, now⟩]
      else []

def isNew (user : UserRow) : Bool := (facts.position user.uid).isNone

def enrols (user : UserRow) : Bool :=
  facts.isNew user &&
    (!conf.isFederatedIdentityServiceSet || facts.isMatrixUser user.uid)

def newFields (user : UserRow) : ValueField where
  active := some (facts.activity conf user.uid)
  email := user.mail
  phone := user.mobile

/-- The pass over the directory: what is launched, the users to hash and
whether one is new; the last component tells that it was not interrupted by a
`uid` that gives no Matrix ID. -/
def scanUsers (now : Nat) :
    List UserRow → List UserOperation → UpdatableFields → Bool →
      List UserOperation × UpdatableFields × Bool × Bool
  | [], updates, usersToUpdate, found => (updates, usersToUpdate, found, true)
  | user :: rest, updates, usersToUpdate, found =>
      match toMatrixId user.uid conf.serverName with
      | .error _ => (updates, usersToUpdate, found, false)
      | .ok matrixAddress =>
          scanUsers now rest
            (updates ++ facts.userWrites conf now user matrixAddress)
            (if facts.enrols conf user then
              usersToUpdate.put matrixAddress (facts.newFields conf user)
            else usersToUpdate)
            (found || facts.isNew user)

/-- The pass over the rows that are known: each `uid` that the directory no
longer has is looked up once, unless the object that remembers them inherits a
member of that name. -/
def scanKnown (now : Nat) :
    List (String × Option Int) → (seen : List String) →
      List UserOperation × Bool
  | [], _ => ([], true)
  | (uid, _) :: rest, seen =>
      if facts.users.any fun user => user.uid == some uid then
        scanKnown now rest seen
      else if seen.contains uid || inheritedMembers.contains uid then
        scanKnown now rest seen
      else
        match toMatrixId (some uid) conf.serverName with
        | .error _ => ([], false)
        | .ok matrixAddress =>
            let (updates, passed) := scanKnown now rest (uid :: seen)
            (.getActive matrixAddress now :: updates, passed)

end Facts

namespace UserUpdate

/-- What the requests have found, once all of them have answered. -/
def facts (conf : Config) (update : UserUpdate) : Option Facts :=
  update.users.bind fun users =>
    update.known.bind fun known =>
      update.existing.bind fun existing =>
        if conf.isMatrixDbAvailable then
          update.matrixUsers.map fun names =>
            ⟨users, known, existing, some names⟩
        else some ⟨users, known, existing, none⟩

/-- The synchronous part of the run. -/
def proceed (conf : Config) (now : Nat) (update : UserUpdate) (facts : Facts) :
    UserUpdate × List UserOperation :=
  let (updates, usersToUpdate, found, passed) :=
    facts.scanUsers conf now facts.users [] [] false
  if passed then
    let (workers, tasks) :=
      if found then Workers.start "" (updateParams usersToUpdate)
      else (update.workers, [])
    let (inactive, passed) := facts.scanKnown conf now facts.known []
    ({ update with workers, rejected := !passed },
      updates ++ tasks.map .hash ++ inactive)
  else ({ update with rejected := true }, updates)

/-- One more answer; the last one sets the run going. -/
def collect (conf : Config) (now : Nat) (update : UserUpdate) :
    UserUpdate × List UserOperation :=
  match update.facts conf with
  | none => (update, [])
  | some facts => update.proceed conf now facts

def react (env : Environment) (conf : Config) (outcome : UserOutcome) :
    UserOperation → UserUpdate → UserUpdate × List UserOperation
  | .getUsers, update =>
      if outcome.fails then ({ update with rejected := true }, [])
      else
        { update with users := some outcome.users }.collect conf outcome.now
  | .getHashes, update =>
      match (attempt env outcome.fails (.get .hashes ["value", "active"] [])
          update.store).1 with
      | none => ({ update with rejected := true }, [])
      | some rows =>
          { update with known := some (rows.map knownEntry) }.collect conf
            outcome.now
  | .getHistory, update =>
      match (attempt env outcome.fails (.get .userHistory ["address"] [])
          update.store).1 with
      | none => ({ update with rejected := true }, [])
      | some rows =>
          { update with existing := some (rows.map HistoryRow.address) }.collect
            conf outcome.now
  | .getMatrixUsers, update =>
      if outcome.fails then ({ update with rejected := true }, [])
      else
        let names := (outcome.entries.getD []).map localPart
        { update with matrixUsers := some names }.collect conf outcome.now
  | .updateHistory row, update =>
      let (_, store) := attempt env outcome.fails
        (.update .userHistory (fun _ => row) "address" (.str row.address))
        update.store
      ({ update with store }, [])
  | .insertHistory row, update =>
      let (_, store) := attempt env outcome.fails
        (.insert .userHistory row) update.store
      ({ update with store }, [])
  | .activateHashes matrixAddress, update =>
      let (_, store) := attempt env outcome.fails
        (.update .hashes (fun row => { row with active := some 1 }) "value"
          (.str matrixAddress)) update.store
      ({ update with store }, [])
  | .hash operation, update =>
      let step :=
        update.workers.react env outcome.fails update.store operation
      ({ update with store := step.store, workers := step.workers },
        step.issued.map .hash)
  | .getActive address timestamp, update =>
      match (attempt env outcome.fails
          (.get .userHistory ["active"] [("address", .str address)])
          update.store).1 with
      | none => (update, [])
      | some [] => (update, [.insertHistory ⟨address, 0, timestamp⟩])
      | some (row :: _) =>
          (update, if row.active ≠ 0 then [.deactivateHistory address] else [])
  | .deactivateHistory address, update =>
      let (_, store) := attempt env outcome.fails
        (.update .userHistory (fun row => { row with active := 0 }) "address"
          (.str address)) update.store
      ({ update with store }, [])

end UserUpdate

def startUpdate (conf : Config) (store : Store) : UserLoop where
  vars := { store }
  pending := [.getUsers, .getHashes, .getHistory] ++
    if conf.isMatrixDbAvailable then [.getMatrixUsers] else []

/-- One operation of the run completes. -/
def updateStep (env : Environment) (conf : Config) (loop : UserLoop)
    (event : Nat × UserOutcome) : Option UserLoop :=
  loop.complete (UserUpdate.react env conf) event.1 event.2

end TwakeKickstart.IdentityServer
