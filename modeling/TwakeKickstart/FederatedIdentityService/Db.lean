import TwakeKickstart.IdentityServer.Effects

namespace TwakeKickstart.FederatedIdentityService

open Library IdentityServer

/-! The database of the federated identity service: the tables of the identity
server and `hashByServer`. -/

structure ServerHash where
  hash : String
  server : String
  pepper : String
  deriving DecidableEq

def ServerHash.cell (row : ServerHash) : String → Cell
  | "hash" => .text row.hash
  | "server" => .text row.server
  | "pepper" => .text row.pepper
  | _ => .null

structure FdStore where
  tables : Store
  hashByServer : List ServerHash

/-- `none` binds NULL. -/
structure ISQLCondition where
  field : String
  operator : Operator
  value : Option String

def ISQLCondition.holds (condition : ISQLCondition) (row : ServerHash) :
    Bool :=
  condition.value.any (condition.operator.test (row.cell condition.field))

/-- The value that a `varchar` column keeps; `none` when it is refused.
PostgreSQL cuts off spaces only, SQLite does not look at the length. -/
def varchar (engine : SupportedDatabases) (limit : Nat) (text : String) :
    Option String :=
  match engine with
  | .sqlite => some text
  | .pg =>
      if text.length ≤ limit then some text
      else if (text.toList.drop limit).all (· == ' ') then
        some (String.ofList (text.toList.take limit))
      else none

/-- The row as the table keeps it. -/
def fit (engine : SupportedDatabases) (row : ServerHash) :
    Option ServerHash :=
  (varchar engine 48 row.hash).map fun hash => { row with hash }

/-- `none` when the row is refused: its hash is too long, or its primary key
`(hash, server, pepper)` is taken. -/
def insertRow (engine : SupportedDatabases) (rows : List ServerHash)
    (row : ServerHash) : Option (List ServerHash) :=
  (fit engine row).bind fun row =>
    if row ∈ rows then none else some (rows ++ [row])

/-- All the insertions are issued, whatever becomes of the others. -/
def insertAll (engine : SupportedDatabases) :
    List ServerHash → List ServerHash → Bool × List ServerHash
  | [], rows => (true, rows)
  | row :: rest, rows =>
      match insertRow engine rows row with
      | none => (false, (insertAll engine rest rows).2)
      | some rows => insertAll engine rest rows

inductive FdCall where
  | get (table : Collections) (fields : List String) (filter : Filter)
  | getHashByServer (fields : List String) (filter : Filter)
  | deleteWhere (conditions : List ISQLCondition)
  | insertAll (rows : List ServerHash)

inductive FdEffect where
  | db (call : FdCall)
  | send (status : Nat) (body : JsValue)

-- An error is the text of the exception with which the promise is rejected.
@[reducible] def FdCall.Result : FdCall → Type
  | get table _ _ => Except String (List (Row table))
  | getHashByServer _ _ => Except String (List ServerHash)
  | deleteWhere _ => Except String Unit
  | insertAll _ => Except String Unit

@[reducible] def FdEffect.Result : FdEffect → Type
  | db call => call.Result
  | send _ _ => Unit

abbrev FdProcedure := Program FdEffect FdEffect.Result

/-- The database client, with the texts of its errors. -/
structure FdEnvironment where
  driver : Driver
  failure : FdCall → String

def FdEnvironment.sample : FdEnvironment where
  driver := { engine := .sqlite, encode := fun value => value.text?.getD "" }
  failure := fun _ => "Error: SQLITE_CONSTRAINT"

def orFailure {α : Type} (env : FdEnvironment) (call : FdCall) :
    Option α → Except String α
  | none => .error (env.failure call)
  | some value => .ok value

namespace FdCall

def refused (env : FdEnvironment) : (call : FdCall) → call.Result
  | .get table fields filter => orFailure env (.get table fields filter) none
  | .getHashByServer fields filter =>
      orFailure env (.getHashByServer fields filter) none
  | .deleteWhere conditions => orFailure env (.deleteWhere conditions) none
  | .insertAll rows => orFailure env (.insertAll rows) none

def execute (env : FdEnvironment) :
    (call : FdCall) → FdStore → call.Result × FdStore
  | .get table fields filter, store =>
      (orFailure env (.get table fields filter)
        (IdentityServer.execute env.driver (.get table fields filter)
          store.tables).1, store)
  | .getHashByServer fields filter, store =>
      (orFailure env (.getHashByServer fields filter)
        ((getStatement fields filter).map fun statement =>
          store.hashByServer.filter fun row => statement.selects row.cell),
        store)
  | .deleteWhere conditions, store =>
      -- without any condition the statement ends after WHERE
      if conditions.isEmpty then
        (orFailure env (.deleteWhere conditions) none, store)
      else
        (.ok (), { store with
          hashByServer := store.hashByServer.filter fun row =>
            !conditions.all (·.holds row) })
  | .insertAll rows, store =>
      let (inserted, hashByServer) :=
        FederatedIdentityService.insertAll env.driver.engine rows
          store.hashByServer
      (if inserted then .ok ()
        else orFailure env (.insertAll rows) none,
        { store with hashByServer })

end FdCall

structure FdWorld where
  store : FdStore
  sent : List (Nat × JsValue) := []

def handle (env : FdEnvironment) (fails : Bool) :
    Handler FdEffect FdEffect.Result FdWorld
  | .db call, world =>
      if fails then (call.refused env, world)
      else
        let (result, store) := call.execute env world.store
        (result, { world with store })
  | .send status body, world =>
      ((), { world with sent := world.sent ++ [(status, body)] })

/-- A complete run in which no database call is refused. -/
def serve (env : FdEnvironment) (procedure : FdProcedure) (world : FdWorld) :
    FdWorld :=
  procedure.run (handle env false) world

def reply (status : Nat) (body : JsValue) : FdProcedure :=
  .perform (.send status body) fun _ => .done

section Serve

variable (env : FdEnvironment) (world : FdWorld)

@[simp] theorem serve_reply (status : Nat) (body : JsValue) :
    serve env (reply status body) world =
      { world with sent := world.sent ++ [(status, body)] } := rfl

@[simp] theorem serve_db (call : FdCall) (next : call.Result → FdProcedure) :
    serve env (.perform (.db call) next) world =
      serve env (next (call.execute env world.store).1)
        { world with store := (call.execute env world.store).2 } := rfl

end Serve

theorem execute_getHashByServer (env : FdEnvironment) (fields : List String)
    (filter : Filter) (store : FdStore) :
    FdCall.execute env (.getHashByServer fields filter) store =
      (orFailure env (.getHashByServer fields filter)
        (filter.resolve.map fun resolved =>
          store.hashByServer.filter fun row =>
            selectsAll .eq resolved row.cell), store) := by
  rcases getStatement_spec fields filter with
    ⟨hresolve, hstatement⟩ |
    ⟨resolved, statement, hresolve, hstatement, hselects⟩
  · simp [FdCall.execute, hresolve, hstatement]
  · simp [FdCall.execute, hresolve, hstatement, hselects]

end TwakeKickstart.FederatedIdentityService
