import TwakeKickstart.Library.Regex
import TwakeKickstart.IdentityServer.Effects

namespace TwakeKickstart.IdentityServer

open Library

/-! `updateHash`: the rows of the hash table that a set of users gets, and the
pool of workers that inserts them. -/

inductive HashMethod where
  | sha256
  deriving DecidableEq

def supportedHashes : List HashMethod := [.sha256]

def HashMethod.apply (env : Environment) : HashMethod → String → String
  | .sha256 => env.sha256

inductive Field where
  | phone
  | email
  deriving DecidableEq

def fieldsToHash : List Field := [.phone, .email]

structure ValueField where
  active : Option Int
  email : Option String
  phone : Option String
  deriving DecidableEq

def ValueField.value (fields : ValueField) : Field → Option String
  | .phone => fields.phone
  | .email => fields.email

/-- An object whose keys are Matrix IDs, in insertion order. -/
abbrev UpdatableFields := List (String × ValueField)

namespace UpdatableFields

def put : UpdatableFields → String → ValueField → UpdatableFields
  | [], key, value => [(key, value)]
  | (other, old) :: rest, key, value =>
      if other = key then (key, value) :: rest
      else (other, old) :: put rest key value

end UpdatableFields

structure UpdateArgs where
  matrixAddress : String
  method : HashMethod
  field : Field
  value : String
  active : Option Int
  deriving DecidableEq

/-- `value.replace(/\s/g, '').replace(/^\+/, '')` -/
def normalizePhone (value : String) : String :=
  match value.toList.filter (!isSpaceChar ·) with
  | '+' :: rest => String.ofList rest
  | characters => String.ofList characters

namespace Field

def word : Field → String
  | phone => "msisdn"
  | email => "email"

def format : Field → String → String
  | phone, value => normalizePhone value
  | email, value => value

end Field

namespace UpdateArgs

def text (args : UpdateArgs) (pepper : String) : String :=
  hashedText (args.field.format args.value) args.field.word pepper

/-- The row that `update` inserts. -/
def row (env : Environment) (pepper : String) (args : UpdateArgs) :
    HashRow where
  hash := args.method.apply env (args.text pepper)
  pepper := pepper
  type := args.field.word
  value := args.matrixAddress
  active := args.active

end UpdateArgs

def fieldParams (matrixAddress : String) (fields : ValueField)
    (field : Field) : List UpdateArgs :=
  match fields.value field with
  | none => []
  | some value =>
      if value = "" then []
      else
        supportedHashes.map fun method =>
          { matrixAddress, method, field, value, active := fields.active }

def updateParams (data : UpdatableFields) : List UpdateArgs :=
  data.flatMap fun (matrixAddress, fields) =>
    fieldsToHash.flatMap (fieldParams matrixAddress fields)

/-! The pool.  A worker inserts one row at a time; a worker whose insertion
fails is never given back to the pool. -/

def jobs : Nat := 5

inductive HashOperation where
  | getPepper (args : UpdateArgs)
  | insert (args : UpdateArgs) (pepper : String)
  deriving DecidableEq

def HashOperation.args : HashOperation → UpdateArgs
  | getPepper args => args
  | insert args _ => args

/-- The variables that `updateHash` closes over. -/
structure Workers where
  pepper : String
  waiting : List UpdateArgs
  unresolved : Nat
  deriving DecidableEq

/-- How the promise of `updateHash` stands. -/
inductive Verdict where
  | going
  | resolved
  | rejected
  deriving DecidableEq

structure HashStep where
  workers : Workers
  store : Store
  issued : List HashOperation
  verdict : Verdict

/-- A database call that is refused changes nothing. -/
def attempt (env : Environment) (fails : Bool) (call : DbCall)
    (store : Store) : call.Result × Store :=
  if fails then (call.refused, store) else execute env.driver call store

namespace Workers

/-- What a worker does first: an empty pepper is looked up. -/
def assign (pepper : String) (args : UpdateArgs) : HashOperation :=
  if pepper = "" then .getPepper args else .insert args pepper

def start (pepper : String) (params : List UpdateArgs) :
    Workers × List HashOperation :=
  ({ pepper, waiting := params.drop jobs, unresolved := params.length },
    (params.take jobs).map (assign pepper))

/-- A worker is released and takes the next task. -/
def release (workers : Workers) (store : Store) : HashStep where
  workers :=
    { workers with
      waiting := workers.waiting.tail, unresolved := workers.unresolved - 1 }
  store := store
  issued := workers.waiting.head?.toList.map (assign workers.pepper)
  verdict := if workers.unresolved = 1 then .resolved else .going

def react (env : Environment) (fails : Bool) (workers : Workers)
    (store : Store) : HashOperation → HashStep
  | .getPepper args =>
      match (attempt env fails
          (.get .keys ["data"] [("name", .str "pepper")]) store).1 with
      | some (key :: _) =>
          { workers := { workers with pepper := key.data }, store,
            issued := [.insert args key.data], verdict := .going }
      | _ => { workers, store, issued := [], verdict := .rejected }
  | .insert args pepper =>
      match attempt env fails (.insert .hashes (args.row env pepper)) store with
      | (none, store) =>
          { workers, store, issued := [], verdict := .rejected }
      | (some _, store) => workers.release store

end Workers

/-- The table `keys`, which is created with both rows. -/
def keyRows (pepper previous : String) : List KeyRow :=
  [{ name := "pepper", data := pepper },
    { name := "previousPepper", data := previous }]

variable {env : Environment} {store : Store}

theorem attempt_key {name : String} (env : Environment) (store : Store)
    (named : name ≠ "") :
    (attempt env false (.get .keys ["data"] [("name", .str name)]) store).1 =
      some ((store .keys).filter (·.name == name)) := by
  simp only [attempt, Bool.false_eq_true, if_false, execute_get]
  rw [resolve_cons_str, if_neg named]
  simp only [resolve_nil, Option.map_some, Option.some.injEq]
  apply List.filter_congr
  intro key _
  simp [selectsAll, cell, Operator.test]

theorem attempt_keys {pepper previous name : String} (fails : Bool)
    (keys : store .keys = keyRows pepper previous) (named : name ≠ "") :
    (attempt env fails (.get .keys ["data"] [("name", .str name)]) store).1 =
      if fails then none
      else some ((keyRows pepper previous).filter (·.name == name)) := by
  cases fails with
  | true => rfl
  | false =>
      rw [attempt_key env store named, keys]
      rfl

theorem attempt_pepper {pepper previous : String} (fails : Bool)
    (keys : store .keys = keyRows pepper previous) :
    (attempt env fails
      (.get .keys ["data"] [("name", .str "pepper")]) store).1 =
      if fails then none
      else some [{ name := "pepper", data := pepper }] :=
  attempt_keys fails keys (by decide)

theorem attempt_previousPepper {pepper previous : String} (fails : Bool)
    (keys : store .keys = keyRows pepper previous) :
    (attempt env fails
      (.get .keys ["data"] [("name", .str "previousPepper")]) store).1 =
      if fails then none
      else some [{ name := "previousPepper", data := previous }] :=
  attempt_keys fails keys (by decide)

theorem attempt_insertHash (env : Environment) (fails : Bool) (row : HashRow)
    (store : Store) :
    attempt env fails (.insert .hashes row) store = (none, store) ∨
    ∃ rows, attempt env fails (.insert .hashes row) store =
      (some rows, Function.update store .hashes (store .hashes ++ [row])) := by
  unfold attempt execute
  split
  · exact .inl rfl
  · dsimp only
    split
    · exact .inl rfl
    · exact .inr ⟨_, rfl⟩

theorem Workers.react_store (workers : Workers) (fails : Bool)
    (operation : HashOperation) :
    (workers.react env fails store operation).store = store ∨
    ∃ row, (workers.react env fails store operation).store =
      Function.update store .hashes (store .hashes ++ [row]) := by
  cases operation with
  | getPepper args =>
      left
      simp only [Workers.react]
      split
      · rfl
      · rfl
  | insert args pepper =>
      rcases attempt_insertHash env fails (args.row env pepper) store with
        hrefused | ⟨rows, hstored⟩
      · left
        simp only [Workers.react, hrefused]
      · right
        refine ⟨args.row env pepper, ?_⟩
        simp only [Workers.react, hstored]
        rfl

/-- Every worker holds one task, and the tasks that are left are those that are
waiting or held. -/
structure Workers.Balanced (before : Workers) (step : HashStep) : Prop where
  tasks : 1 + before.waiting.length + step.workers.unresolved =
    step.issued.length + step.workers.waiting.length + before.unresolved
  busy : step.issued = [] → step.workers.waiting = []
  resolved : step.verdict = .resolved → step.workers.unresolved = 0
  going : step.verdict = .going → 0 < step.workers.unresolved

theorem Workers.react_unresolved (workers : Workers) (fails : Bool)
    (store : Store) (operation : HashOperation)
    (resolved : workers.unresolved = 0) :
    (workers.react env fails store operation).workers.unresolved = 0 := by
  cases operation with
  | getPepper args =>
      simp only [Workers.react]
      split
      · exact resolved
      · exact resolved
  | insert args pepper =>
      simp only [Workers.react]
      split
      · exact resolved
      · simp [Workers.release, resolved]

theorem Workers.react_balanced (workers : Workers) (fails : Bool)
    (store : Store) (operation : HashOperation)
    (unresolved : 0 < workers.unresolved)
    (accepted : (workers.react env fails store operation).verdict ≠
      .rejected) :
    workers.Balanced (workers.react env fails store operation) := by
  cases operation with
  | getPepper args =>
      simp only [Workers.react] at accepted ⊢
      split
      · refine ⟨?_, ?_, ?_, fun _ => unresolved⟩
        · simp only [List.length_singleton]
        · intro h
          cases h
        · intro h
          cases h
      · rename_i hnone
        split at accepted
        · rename_i key keys hsome
          exact absurd hsome (hnone key keys)
        · exact absurd rfl accepted
  | insert args pepper =>
      rcases attempt_insertHash env fails (args.row env pepper) store with
        hrefused | ⟨rows, hstored⟩
      · simp only [Workers.react, hrefused] at accepted
        exact absurd rfl accepted
      · simp only [Workers.react, hstored, Workers.release]
        refine ⟨?_, ?_, ?_, ?_⟩
        · cases workers.waiting with
          | nil =>
              simp only [List.head?_nil, Option.toList_none, List.map_nil,
                List.length_nil, List.tail_nil]
              omega
          | cons head tail =>
              simp only [List.head?_cons, Option.toList_some, List.map_cons,
                List.map_nil, List.length_cons, List.length_nil,
                List.tail_cons]
              omega
        · cases workers.waiting with
          | nil => exact fun _ => rfl
          | cons head tail => exact fun h => absurd h (by simp)
        · dsimp only
          intro h
          split at h
          · omega
          · cases h
        · dsimp only
          intro h
          split at h
          · cases h
          · omega

end TwakeKickstart.IdentityServer
