import TwakeKickstart.Library.JsonText
import TwakeKickstart.Library.Promise
import TwakeKickstart.IdentityServer.Invitation.StoreInvit

namespace TwakeKickstart.IdentityServer

open Library Invitation

/-! The promises of `IdentityServerDb` for tokens and keys, whatever becomes of
the statements behind them. -/

namespace StorePromises

inductive Statement where
  | insert (table : String) (values : JsObject)
  | get (table : String) (fields : List String) (filter : Filter)
  | getAll (table : String) (fields : List String)
  | update (table : String) (values : JsObject) (field : String)
      (value : JsValue)
  | deleteEqual (table field : String) (value : JsValue)

/-- An error of the database, one that the code raises by accident, or one of
its own. -/
inductive StoreError where
  | database
  | raised
  | error (text : String)

abbrev Rows := List JsObject

/-- The answers of the database, `none` where a statement fails, with the clock
and `JSON.parse`. -/
structure Backend where
  answer : Statement → Option Rows
  epoch : Int
  jsonParse : String → Option JsValue

abbrev Promise := Settlement StoreError JsValue

abbrev Handlers := Chain StoreError JsValue

def column (row : JsObject) (name : String) : JsValue :=
  (row.lookup name).getD .undefined

/-- `value >= now` for a scalar of a row. -/
def atLeast (value : JsValue) (now : Int) : Bool :=
  match value with
  | .num n => decide (now ≤ n)
  | .str s => s.toInt?.any (now ≤ ·)
  | .bool b => decide (now ≤ if b then 1 else 0)
  | .null => decide (now ≤ 0)
  | _ => false

/-- The text that `JSON.parse` reads for a scalar of a row. -/
def jsonText : JsValue → Option String
  | .str s => some s
  | .num n => some (toString n)
  | .bool b => some (if b then "true" else "false")
  | .null => some "null"
  | _ => none

section Calls

variable (db : Backend)

def query (statement : Statement) : Handlers Rows :=
  .await (some (match db.answer statement with
    | some rows => .ok rows
    | none => .error .database))

/-! Creation of tokens. -/

def oneTimeToken (id : String) (data : JsObject) (expires : Option Int)
    (nextLink : JsValue) : Statement :=
  let data := if nextLink.truthy then data.put "next_link" nextLink else data
  let seconds :=
    match expires with
    | some expires => if 0 < expires then expires else 600
    | none => 600
  .insert "oneTimeTokens" [("id", .str id),
    ("expires", .num (db.epoch + 1000 * seconds)),
    ("data", .str (stringify (.obj data)))]

def createOneTimeToken (id : String) (data : JsObject) (expires : Option Int)
    (nextLink : JsValue) : Promise :=
  (query db (oneTimeToken db id data expires nextLink)
    |>.andThen (fun _ => Chain.resolve (.str id))
    -- the error is only logged
    |>.onError fun _ => .done).settle

def invitationToken (id address : String) (data : JsObject) : Statement :=
  .insert "invitationTokens" [("id", .str id), ("address", .str address),
    ("data", .str (stringify (.obj data)))]

def createInvitationToken (id address : String) (data : JsObject) : Promise :=
  (query db (invitationToken id address data)
    |>.andThen (fun _ => Chain.resolve (.str id))
    |>.onError .reject).settle

/-! Verification of tokens. -/

def readToken (id : String) : Statement :=
  .get "oneTimeTokens" ["data", "expires"] [("id", .str id)]

/-- What the row of a token gives: its data, or the error that says why it gives
none. -/
def tokenOf (row : JsObject) : Except StoreError JsValue :=
  if atLeast (column row "expires") db.epoch then
    match (jsonText (column row "data")).bind db.jsonParse with
    | some data => .ok data
    | none => .error .raised
  else
    match (column row "expires").text? with
    | some expires => .error (.error ("Token expired" ++ expires))
    | none => .error .raised

def onToken : Rows → Handlers Unit
  | [] => .throw .raised
  | row :: _ =>
      match tokenOf db row with
      | .ok data => .resolve data
      | .error (.error text) => .reject (.error text)
      | .error error => .throw error

def verifyToken (id : String) : Promise :=
  (query db (readToken id)
    |>.andThen (onToken db)
    |>.onError .reject).settle

/-- A deletion that fails is taken for one that another call has made. -/
def deleteToken (id : String) : Promise :=
  (query db (.deleteEqual "oneTimeTokens" "id" (.str id))
    |>.andThen (fun _ => Chain.resolve .undefined)
    |>.onError fun _ => Chain.resolve .undefined).settle

def verifyOneTimeToken (id : String) : Promise :=
  (Chain.await (verifyToken db id)
    |>.andThen (fun res => (Chain.await (deleteToken db id)).andThen fun _ =>
      Chain.resolve res)
    |>.onError .reject).settle

/-! Keys. -/

inductive KeyAge where
  | current
  | previous

def readKeys : Statement :=
  .getAll "longTermKeypairs" ["keyID", "public", "private"]

def onKeys (age : KeyAge) (rows : Rows) : Handlers Unit :=
  let name :=
    match age with
    | .current => "currentKey"
    | .previous => "previousKey"
  let missing : Handlers Unit :=
    if rows.isEmpty then .reject (.error ("No " ++ name ++ " found")) else .done
  missing.andThen fun _ =>
    match rows with
    | [] => .throw .raised
    | row :: _ => .resolve (.obj [("keyId", column row "keyID"),
        ("publicKey", column row "public"),
        ("privateKey", column row "private")])

def getKeys (age : KeyAge) : Promise :=
  (query db readKeys
    |>.andThen (onKeys age)
    |>.onError .reject).settle

def keyRow (type : KeyType) (keyPair : KeyPair) : Statement :=
  let values := [("keyID", .str keyPair.keyId),
    ("public", .str keyPair.publicKey), ("private", .str keyPair.privateKey)]
  match type with
  | .longTerm => .insert "longTermKeypairs"
      (values ++ [("name", .str "currentKey")])
  | .shortTerm => .insert "shortTermKeypairs" values

def namedKeys (name : String) : Statement :=
  .get "longTermKeypairs" ["name"] [("name", .str name)]

/-- The current key becomes the previous one. -/
def rotate : KeyType → Handlers Unit
  | .shortTerm => .done
  | .longTerm =>
      (query db (namedKeys "currentKey")).andThen fun currentKey =>
        if currentKey.isEmpty then .done
        else
          let dropped : Handlers Unit :=
            (query db (namedKeys "previousKey")).andThen fun previousKey =>
              if previousKey.isEmpty then .done
              else
                (query db (.deleteEqual "longTermKeypairs" "name"
                  (.str "previousKey"))).andThen fun _ => .done
          dropped.andThen fun _ =>
            (query db (.update "longTermKeypairs"
              [("name", .str "previousKey")] "name"
              (.str "currentKey"))).andThen fun _ => .done

def insertKey (type : KeyType) (keyPair : KeyPair) : Promise :=
  (query db (keyRow type keyPair)
    |>.andThen (fun _ => .resolve (.obj [("keyId", .str keyPair.keyId),
      ("publicKey", .str keyPair.publicKey),
      ("privateKey", .str keyPair.privateKey)]))
    -- the error is only logged, and there is no `reject`
    |>.onError fun _ => .done).settle

/-- The errors of the rotation are logged, and the new key is inserted
nevertheless. -/
def createKeypair (type : KeyType) (algorithm : Algorithm) (drawn : Drawn) :
    Promise :=
  let keyPair := generateKeyPair algorithm drawn
  let rotation : Handlers Unit := (rotate db type).onError fun _ => .done
  (rotation.andThen fun _ =>
    (Chain.await (insertKey db type keyPair) : Handlers JsValue)).outcome

end Calls

/-! What the promises are to do. -/

inductive Call where
  | createOneTimeToken (id : String) (data : JsObject) (expires : Option Int)
      (nextLink : JsValue)
  | createInvitationToken (id address : String) (data : JsObject)
  | createKeypair (type : KeyType) (algorithm : Algorithm) (drawn : Drawn)
  | getKeys (age : KeyAge)
  | verifyToken (id : String)
  | verifyOneTimeToken (id : String)

namespace Call

variable (db : Backend)

def promise : Call → Promise
  | createOneTimeToken id data expires nextLink =>
      StorePromises.createOneTimeToken db id data expires nextLink
  | createInvitationToken id address data =>
      StorePromises.createInvitationToken db id address data
  | createKeypair type algorithm drawn =>
      StorePromises.createKeypair db type algorithm drawn
  | getKeys age => StorePromises.getKeys db age
  | verifyToken id => StorePromises.verifyToken db id
  | verifyOneTimeToken id => StorePromises.verifyOneTimeToken db id

/-- The statement that the call cannot do without: the rotation of the keys and
the deletion of a token may fail. -/
def needed : Call → Statement
  | createOneTimeToken id data expires nextLink =>
      oneTimeToken db id data expires nextLink
  | createInvitationToken id address data => invitationToken id address data
  | createKeypair type algorithm drawn =>
      keyRow type (generateKeyPair algorithm drawn)
  | getKeys _ => readKeys
  | verifyToken id => readToken id
  | verifyOneTimeToken id => readToken id

/-- The rows give a token that has not expired and whose data can be read. -/
def holdsToken : Rows → Prop
  | [] => False
  | row :: _ => atLeast (column row "expires") db.epoch = true ∧
      ((jsonText (column row "data")).bind db.jsonParse).isSome = true

/-- The row that the call is after is there. -/
def finds (rows : Rows) : Call → Prop
  | createOneTimeToken _ _ _ _ => True
  | createInvitationToken _ _ _ => True
  | createKeypair _ _ _ => True
  | getKeys _ => rows ≠ []
  | verifyToken _ => holdsToken db rows
  | verifyOneTimeToken _ => holdsToken db rows

def Succeeds (call : Call) : Prop :=
  ∃ rows, db.answer (call.needed db) = some rows ∧ call.finds db rows

structure Settles (call : Call) : Prop where
  settled : call.promise db ≠ none
  resolved : (∃ value, call.promise db = some (.ok value)) ↔ call.Succeeds db
  rejected : (∃ error, call.promise db = some (.error error)) ↔
    ¬ call.Succeeds db

/-- The handler of errors does not reject. -/
def onlyLogs : Call → Bool
  | createOneTimeToken _ _ _ _ => true
  | createKeypair _ _ _ => true
  | _ => false

end Call

section Outcomes

variable {db : Backend} {statement : Statement} {β : Type}
  (handler : Rows → Handlers β)

theorem query_ends : (query db statement).Ends := nofun

theorem andThen_answered {rows : Rows}
    (answered : db.answer statement = some rows) :
    (query db statement).andThen handler = handler rows := by
  rw [query, answered]
  exact Chain.andThen_ok rows handler

theorem andThen_failed (failed : db.answer statement = none) :
    (query db statement).andThen handler = .throw .database := by
  rw [query, failed]
  exact Chain.andThen_error .database handler

end Outcomes

section Promises

variable {db : Backend}

theorem deleteToken_resolves (id : String) :
    deleteToken db id = some (.ok .undefined) := by
  rw [deleteToken]
  cases h : db.answer (.deleteEqual "oneTimeTokens" "id" (.str id)) with
  | none =>
      rw [andThen_failed _ h]
      rfl
  | some rows =>
      rw [andThen_answered _ h]
      rfl

theorem rotate_ends (db : Backend) (type : KeyType) : (rotate db type).Ends := by
  cases type with
  | shortTerm => exact Chain.done_ends
  | longTerm =>
      apply query_ends.andThen
      intro currentKey
      split
      · exact Chain.done_ends
      · apply Chain.Ends.andThen
        · apply query_ends.andThen
          intro previousKey
          split
          · exact Chain.done_ends
          · exact query_ends.andThen fun _ => Chain.done_ends
        · exact fun _ => query_ends.andThen fun _ => Chain.done_ends

section Insertions

variable {rows : Rows}

theorem createOneTimeToken_answered {id : String} {data : JsObject}
    {expires : Option Int} {nextLink : JsValue}
    (answered : db.answer (oneTimeToken db id data expires nextLink) =
      some rows) :
    createOneTimeToken db id data expires nextLink = some (.ok (.str id)) := by
  rw [createOneTimeToken, andThen_answered _ answered, Chain.settle_resolve]

theorem createOneTimeToken_failed {id : String} {data : JsObject}
    {expires : Option Int} {nextLink : JsValue}
    (failed : db.answer (oneTimeToken db id data expires nextLink) = none) :
    createOneTimeToken db id data expires nextLink = none := by
  rw [createOneTimeToken, andThen_failed _ failed, Chain.onError_throw]
  rfl

theorem createInvitationToken_answered {id address : String} {data : JsObject}
    (answered : db.answer (invitationToken id address data) = some rows) :
    createInvitationToken db id address data = some (.ok (.str id)) := by
  rw [createInvitationToken, andThen_answered _ answered, Chain.settle_resolve]

theorem createInvitationToken_failed {id address : String} {data : JsObject}
    (failed : db.answer (invitationToken id address data) = none) :
    createInvitationToken db id address data =
      some (.error .database) := by
  rw [createInvitationToken, andThen_failed _ failed, Chain.onError_throw]
  rfl

theorem insertKey_answered {type : KeyType} {keyPair : KeyPair}
    (answered : db.answer (keyRow type keyPair) = some rows) :
    ∃ key, insertKey db type keyPair = some (.ok key) := by
  rw [insertKey, andThen_answered _ answered, Chain.settle_resolve]
  exact ⟨_, rfl⟩

theorem insertKey_failed {type : KeyType} {keyPair : KeyPair}
    (failed : db.answer (keyRow type keyPair) = none) :
    insertKey db type keyPair = none := by
  rw [insertKey, andThen_failed _ failed, Chain.onError_throw]
  rfl

end Insertions

theorem createKeypair_eq (type : KeyType) (algorithm : Algorithm)
    (drawn : Drawn) :
    createKeypair db type algorithm drawn =
      insertKey db type (generateKeyPair algorithm drawn) := by
  have logged := (rotate_ends db type).onError_done
  rw [createKeypair, Chain.andThen, logged]
  rfl

theorem tokenOf_eq_ok {row : JsObject} {data : JsValue} :
    tokenOf db row = .ok data ↔
      atLeast (column row "expires") db.epoch = true ∧
        (jsonText (column row "data")).bind db.jsonParse = some data := by
  rw [tokenOf]
  by_cases alive : atLeast (column row "expires") db.epoch = true
  · rw [if_pos alive]
    cases (jsonText (column row "data")).bind db.jsonParse with
    | none => simp
    | some parsed => simp [alive]
  · rw [if_neg alive]
    cases (column row "expires").text? <;> simp [alive]

theorem verifyToken_holds {id : String} {rows : Rows}
    (answered : db.answer (readToken id) = some rows)
    (holds : Call.holdsToken db rows) :
    ∃ data, verifyToken db id = some (.ok data) := by
  cases rows with
  | nil => exact holds.elim
  | cons row rest =>
      obtain ⟨alive, reads⟩ := holds
      obtain ⟨data, hdata⟩ := Option.isSome_iff_exists.mp reads
      refine ⟨data, ?_⟩
      rw [verifyToken, andThen_answered _ answered, onToken,
        tokenOf_eq_ok.mpr ⟨alive, hdata⟩]
      exact Chain.settle_resolve _ data

theorem verifyToken_rejects {id : String}
    (missing : ¬ ∃ rows, db.answer (readToken id) = some rows ∧
      Call.holdsToken db rows) :
    ∃ error, verifyToken db id = some (.error error) := by
  rw [verifyToken]
  cases answered : db.answer (readToken id) with
  | none =>
      rw [andThen_failed _ answered]
      exact ⟨.database, rfl⟩
  | some rows =>
      rw [andThen_answered _ answered]
      cases rows with
      | nil => exact ⟨.raised, rfl⟩
      | cons row rest =>
          rw [onToken]
          cases token : tokenOf db row with
          | ok data =>
              obtain ⟨alive, hdata⟩ := tokenOf_eq_ok.mp token
              exact absurd ⟨row :: rest, answered, alive,
                Option.isSome_of_mem hdata⟩ missing
          | error error => cases error <;> exact ⟨_, rfl⟩

theorem verifyOneTimeToken_ok {id : String} {data : JsValue}
    (verified : verifyToken db id = some (.ok data)) :
    verifyOneTimeToken db id = some (.ok data) := by
  rw [verifyOneTimeToken, verified, Chain.andThen_ok, deleteToken_resolves,
    Chain.andThen_ok]
  rfl

theorem verifyOneTimeToken_error {id : String} {error : StoreError}
    (verified : verifyToken db id = some (.error error)) :
    verifyOneTimeToken db id = some (.error error) := by
  rw [verifyOneTimeToken, verified, Chain.andThen_error]
  rfl

theorem getKeys_holds {age : KeyAge} {rows : Rows}
    (answered : db.answer readKeys = some rows) (some_key : rows ≠ []) :
    ∃ key, getKeys db age = some (.ok key) := by
  rw [getKeys, andThen_answered _ answered]
  cases rows with
  | nil => exact absurd rfl some_key
  | cons row rest => exact ⟨_, rfl⟩

theorem getKeys_rejects {age : KeyAge}
    (missing : ¬ ∃ rows, db.answer readKeys = some rows ∧ rows ≠ []) :
    ∃ error, getKeys db age = some (.error error) := by
  rw [getKeys]
  cases answered : db.answer readKeys with
  | none =>
      rw [andThen_failed _ answered]
      exact ⟨.database, rfl⟩
  | some rows =>
      rw [andThen_answered _ answered]
      cases rows with
      | nil => exact ⟨.error ("No " ++ _ ++ " found"), rfl⟩
      | cons row rest => exact absurd ⟨row :: rest, answered, nofun⟩ missing

end Promises

namespace Call

variable {db : Backend} {call : Call}

theorem resolves (succeeds : call.Succeeds db) :
    ∃ value, call.promise db = some (.ok value) := by
  obtain ⟨rows, answered, finds⟩ := succeeds
  cases call with
  | createOneTimeToken id data expires nextLink =>
      exact ⟨.str id, createOneTimeToken_answered answered⟩
  | createInvitationToken id address data =>
      exact ⟨.str id, createInvitationToken_answered answered⟩
  | createKeypair type algorithm drawn =>
      rw [promise, createKeypair_eq]
      exact insertKey_answered answered
  | getKeys age => exact getKeys_holds answered finds
  | verifyToken id => exact verifyToken_holds answered finds
  | verifyOneTimeToken id =>
      obtain ⟨data, verified⟩ := verifyToken_holds answered finds
      exact ⟨data, verifyOneTimeToken_ok verified⟩

theorem hangs (logs : call.onlyLogs = true)
    (failed : db.answer (call.needed db) = none) : call.promise db = none := by
  cases call with
  | createOneTimeToken id data expires nextLink =>
      exact createOneTimeToken_failed failed
  | createKeypair type algorithm drawn =>
      rw [promise, createKeypair_eq]
      exact insertKey_failed failed
  | _ => exact nomatch logs

/-- Of the calls that only log errors, an insertion that is answered has
succeeded. -/
theorem rejects (fails : ¬ call.Succeeds db)
    (answered : call.onlyLogs = true →
      (db.answer (call.needed db)).isSome = true) :
    ∃ error, call.promise db = some (.error error) := by
  have finds_all : ∀ rows, db.answer (call.needed db) = some rows →
      ¬ call.finds db rows := fun rows h finds => fails ⟨rows, h, finds⟩
  cases call with
  | createOneTimeToken id data expires nextLink =>
      obtain ⟨rows, h⟩ := Option.isSome_iff_exists.mp (answered rfl)
      exact absurd trivial (finds_all rows h)
  | createKeypair type algorithm drawn =>
      obtain ⟨rows, h⟩ := Option.isSome_iff_exists.mp (answered rfl)
      exact absurd trivial (finds_all rows h)
  | createInvitationToken id address data =>
      have failed : db.answer (invitationToken id address data) = none :=
        Option.eq_none_iff_forall_ne_some.mpr fun rows h =>
          finds_all rows h trivial
      exact ⟨.database, createInvitationToken_failed failed⟩
  | getKeys age => exact getKeys_rejects fails
  | verifyToken id => exact verifyToken_rejects fails
  | verifyOneTimeToken id =>
      obtain ⟨error, verified⟩ := verifyToken_rejects fails
      exact ⟨error, verifyOneTimeToken_error verified⟩

theorem settles_of_resolved (succeeds : call.Succeeds db) {value : JsValue}
    (resolved : call.promise db = some (.ok value)) : call.Settles db where
  settled := by
    rw [resolved]
    exact nofun
  resolved := ⟨fun _ => succeeds, fun _ => ⟨value, resolved⟩⟩
  rejected := by
    rw [resolved]
    exact ⟨nofun, fun fails => absurd succeeds fails⟩

theorem settles_of_rejected (fails : ¬ call.Succeeds db) {error : StoreError}
    (rejected : call.promise db = some (.error error)) : call.Settles db where
  settled := by
    rw [rejected]
    exact nofun
  resolved := by
    rw [rejected]
    exact ⟨nofun, fun succeeds => absurd succeeds fails⟩
  rejected := ⟨fun _ => fails, fun _ => ⟨error, rejected⟩⟩

/-- A promise settles as it should unless the insertion fails in a call that
only logs its errors. -/
theorem settles_iff (db : Backend) (call : Call) :
    call.Settles db ↔
      (call.onlyLogs = true → (db.answer (call.needed db)).isSome = true) := by
  constructor
  · intro settles logs
    by_contra failed
    exact settles.settled (hangs logs (Option.not_isSome_iff_eq_none.mp failed))
  · intro answered
    by_cases succeeds : call.Succeeds db
    · obtain ⟨value, resolved⟩ := resolves succeeds
      exact settles_of_resolved succeeds resolved
    · obtain ⟨error, rejected⟩ := rejects succeeds answered
      exact settles_of_rejected succeeds rejected

/-- A full disk when a token is created. -/
theorem createOneTimeToken_hangs :
    ¬ (createOneTimeToken "token" [] none .undefined).Settles
      ⟨fun _ => none, 0, fun _ => none⟩ :=
  fun settles => settles.settled rfl

end Call

end StorePromises

end TwakeKickstart.IdentityServer
