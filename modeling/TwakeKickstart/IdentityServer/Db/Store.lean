import Mathlib.Logic.Function.Basic
import TwakeKickstart.IdentityServer.Db.Filter

namespace TwakeKickstart.IdentityServer

open Library

/-! The tables of `IdentityServerDb` that the handlers read or write, with the
additional table of the tom-server, and the calls on them. -/

inductive SupportedDatabases where
  | sqlite
  | pg
  deriving DecidableEq

inductive Collections where
  | accessTokens
  | matrixTokens
  | oneTimeTokens
  | invitationTokens
  | hashes
  | keys
  | longTermKeypairs
  | mappings
  | userHistory
  | userPolicies
  deriving DecidableEq

/-- A text column that holds JSON, kept as the value `JSON.parse` gives for it;
`none` when `JSON.parse` throws. -/
abbrev JsonText := Option JsValue

/-- A row of `accessTokens` or `matrixTokens`. -/
structure TokenRow where
  id : String
  data : JsonText

structure OneTimeToken where
  id : String
  expires : Nat
  data : JsonText

structure InvitationToken where
  id : String
  address : String
  data : JsonText

structure HashRow where
  hash : String
  pepper : String
  type : String
  value : String
  active : Option Int
  deriving DecidableEq

structure KeyRow where
  name : String
  data : String
  deriving DecidableEq

structure Keypair where
  name : Option String
  keyId : String
  privateKey : String
  deriving DecidableEq

structure Mapping where
  clientSecret : String
  sessionId : String
  medium : String
  valid : Int
  address : String
  submitTime : Nat
  sendAttempt : Cell
  deriving DecidableEq

structure HistoryRow where
  address : String
  active : Int
  timestamp : Nat
  deriving DecidableEq

structure PolicyRow where
  userId : String
  policyName : String
  accepted : Int
  deriving DecidableEq

@[reducible] def Row : Collections → Type
  | .accessTokens => TokenRow
  | .matrixTokens => TokenRow
  | .oneTimeTokens => OneTimeToken
  | .invitationTokens => InvitationToken
  | .hashes => HashRow
  | .keys => KeyRow
  | .longTermKeypairs => Keypair
  | .mappings => Mapping
  | .userHistory => HistoryRow
  | .userPolicies => PolicyRow

abbrev Store := (table : Collections) → List (Row table)

def TokenRow.cell (row : TokenRow) : String → Cell
  | "id" => .text row.id
  | _ => .null

/-- The columns that a statement can compare.  No statement compares a column
that holds JSON. -/
def cell : (table : Collections) → Row table → String → Cell
  | .accessTokens, row => row.cell
  | .matrixTokens, row => row.cell
  | .oneTimeTokens, row => fun
      | "id" => .text row.id
      | "expires" => .int row.expires
      | _ => .null
  | .invitationTokens, row => fun
      | "id" => .text row.id
      | "address" => .text row.address
      | _ => .null
  | .hashes, row => fun
      | "hash" => .text row.hash
      | "pepper" => .text row.pepper
      | "type" => .text row.type
      | "value" => .text row.value
      | "active" => row.active.elim .null .int
      | _ => .null
  | .keys, row => fun
      | "name" => .text row.name
      | "data" => .text row.data
      | _ => .null
  | .longTermKeypairs, row => fun
      | "name" => row.name.elim .null .text
      | "keyID" => .text row.keyId
      | "private" => .text row.privateKey
      | _ => .null
  | .mappings, row => fun
      | "client_secret" => .text row.clientSecret
      | "session_id" => .text row.sessionId
      | "medium" => .text row.medium
      | "valid" => .int row.valid
      | "address" => .text row.address
      | "submit_time" => .int row.submitTime
      | "send_attempt" => row.sendAttempt
      | _ => .null
  | .userHistory, row => fun
      | "address" => .text row.address
      | "active" => .int row.active
      | "timestamp" => .int row.timestamp
      | _ => .null
  | .userPolicies, row => fun
      | "user_id" => .text row.userId
      | "policy_name" => .text row.policyName
      | "accepted" => .int row.accepted
      | _ => .null

def primaryKey : Collections → Option String
  | .accessTokens => some "id"
  | .matrixTokens => some "id"
  | .oneTimeTokens => some "id"
  | .invitationTokens => some "id"
  | .hashes => some "hash"
  | .keys => some "name"
  | .longTermKeypairs => some "name"
  | .mappings => some "client_secret"
  | .userHistory => some "address"
  | .userPolicies => none

/-- A database client.  `encode` is the text it binds for an array or an
object that a statement passes as one parameter. -/
structure Driver where
  engine : SupportedDatabases
  encode : JsValue → String

namespace Driver

def text (driver : Driver) : JsValue → String
  | .str s => s
  | .num n => toString n
  | value => driver.encode value

def bound (driver : Driver) : JsValue → Cell
  | .undefined => .null
  | .null => .null
  | .bool b => .int (if b then 1 else 0)
  | .num n => .int n
  | value => .text (driver.text value)

@[simp] theorem text_str (driver : Driver) (s : String) :
    driver.text (.str s) = s := rfl

@[simp] theorem bound_str (driver : Driver) (s : String) :
    driver.bound (.str s) = .text s := rfl

end Driver

inductive DbCall where
  | get (table : Collections) (fields : List String) (filter : Filter)
  | insert (table : Collections) (row : Row table)
  | update (table : Collections) (values : Row table → Row table)
      (field : String) (value : JsValue)
  | updateAnd (table : Collections) (values : Row table → Row table)
      (condition1 condition2 : String × JsValue)
  | deleteEqual (table : Collections) (field : String) (value : JsValue)
  | deleteEqualAnd (table : Collections)
      (condition1 condition2 : String × JsValue)

namespace DbCall

-- `none` is a rejected promise.
@[reducible] def Result : DbCall → Type
  | get table _ _ => Option (List (Row table))
  | insert table _ => Option (List (Row table))
  | update table _ _ _ => Option (List (Row table))
  | updateAnd table _ _ _ => Option (List (Row table))
  | deleteEqual _ _ _ => Option Unit
  | deleteEqualAnd _ _ _ => Option Unit

end DbCall

def equals (driver : Driver) (table : Collections)
    (condition : String × JsValue) (row : Row table) : Bool :=
  (cell table row condition.1).same (driver.bound condition.2)

/-- A row with the primary key of `row` is already stored. -/
def conflicts (table : Collections) (rows : List (Row table))
    (row : Row table) : Bool :=
  (primaryKey table).any fun key =>
    rows.any fun other => (cell table other key).same (cell table row key)

def updateRows {table : Collections} (rows : List (Row table))
    (selected : Row table → Bool) (values : Row table → Row table) :
    List (Row table) :=
  rows.map fun row => if selected row then values row else row

/-- The guard of the PostgreSQL `deleteEqual`; the SQLite one has none. -/
def refusesDelete (engine : SupportedDatabases) (value : JsValue) : Bool :=
  match engine with
  | .sqlite => false
  | .pg =>
      match value with
      | .undefined => true
      | .null => true
      | .bool false => true
      | .num 0 => true
      | value => value.text?.elim true (· == "")

def execute (driver : Driver) :
    (call : DbCall) → Store → call.Result × Store
  | .get table fields filter, store =>
      ((getStatement fields filter).map fun statement =>
        (store table).filter fun row => statement.selects (cell table row),
        store)
  | .insert table row, store =>
      if conflicts table (store table) row then (none, store)
      else
        (some [row], Function.update store table (store table ++ [row]))
  | .update table values field value, store =>
      let selected := equals driver table (field, value)
      (some (((store table).filter selected).map values),
        Function.update store table
          (updateRows (store table) selected values))
  | .updateAnd table values condition1 condition2, store =>
      let selected := fun row =>
        equals driver table condition1 row &&
          equals driver table condition2 row
      (some (((store table).filter selected).map values),
        Function.update store table
          (updateRows (store table) selected values))
  | .deleteEqual table field value, store =>
      if refusesDelete driver.engine value then (none, store)
      else
        (some (), Function.update store table
          ((store table).filter fun row =>
            !equals driver table (field, value) row))
  | .deleteEqualAnd table condition1 condition2, store =>
      if refusesDelete driver.engine condition1.2 ||
          refusesDelete driver.engine condition2.2 then (none, store)
      else
        (some (), Function.update store table
          ((store table).filter fun row =>
            !(equals driver table condition1 row &&
              equals driver table condition2 row)))

theorem execute_get (driver : Driver) (table : Collections)
    (fields : List String) (filter : Filter) (store : Store) :
    execute driver (.get table fields filter) store =
      (filter.resolve.map fun resolved =>
        (store table).filter fun row => selectsAll .eq resolved (cell table row),
        store) := by
  rcases getStatement_spec fields filter with
    ⟨hresolve, hstatement⟩ |
    ⟨resolved, statement, hresolve, hstatement, hselects⟩
  · simp [execute, hresolve, hstatement]
  · simp [execute, hresolve, hstatement, hselects]

end TwakeKickstart.IdentityServer
