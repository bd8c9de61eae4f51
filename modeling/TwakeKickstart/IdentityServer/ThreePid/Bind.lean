import TwakeKickstart.IdentityServer.Authenticate

namespace TwakeKickstart.IdentityServer

open Library Utils

/-! `POST /3pid/bind`: a validated address is associated with a Matrix ID. -/

def isServerChar (c : Char) : Bool :=
  c.isAlphanum || ".-".toList.contains c

def mxidRe : Regex :=
  .sequence
    [.literal '@', .some1 isSecretChar, .literal ':', .some1 isServerChar]

def sidRe : Regex := .run isSecretChar 1 (some 255)

def refuseParam (accepted : Option Bool) (message : String)
    (rest : Procedure) : Procedure :=
  refuseUnless accepted 400 (errMsg .invalidParam (.str message)) rest

/-- The three checks that `bind` and `unbind` share. -/
def checkSession (clientSecret mxid sid : JsValue) (rest : Procedure) :
    Procedure :=
  refuseParam (testValue clientSecretRe clientSecret) "invalid client_secret"
    (refuseParam (testValue mxidRe mxid) "invalid Matrix user ID"
      (refuseParam (testValue sidRe sid) "invalid session ID" rest))

/-- The server part of a Matrix ID; `none` when the value has no `split`. -/
def getServerNameFromMatrixId : JsValue → Option String
  | .str mxid =>
      some (((mxid.toList.splitOn ':')[1]?).elim "undefined" String.ofList)
  | _ => none

-- `none` when parsing one of the rows throws.
def parsedInvitations (rows : List InvitationToken) : Option (List JsValue) :=
  rows.mapM (·.data)

def listInvitationTokens (address : String)
    (next : Option (List JsValue) → Procedure) : Procedure :=
  .perform (.db (.get .invitationTokens ["data", "address", "id"]
    [("address", .str address)])) fun rows =>
      next (rows.bind parsedInvitations)

def onInvitations (server : String) (mxid : JsValue)
    (address medium : String) : Option (List JsValue) → Procedure
  | none => .done
  | some [] => .done
  | some tokens =>
      match tokens.mapM (·.property "data") with
      | none => .done
      | some invites =>
          .perform (.post server "/_matrix/federation/v1/3pid/onbind"
            (.obj [("mxid", mxid), ("address", .str address),
              ("medium", .str medium), ("invites", .arr invites)])) fun _ =>
            .done

def _onBind (mxid : JsValue) (address medium : String) : Procedure :=
  match getServerNameFromMatrixId mxid with
  | none => .done
  | some server =>
      listInvitationTokens address (onInvitations server mxid address medium)

def bindField (medium : String) : String :=
  if medium = "email" then "mail" else "msisdn"

/-- The row that `bind` stores. -/
def bindRow (env : Environment) (mxid : JsValue) (mapping : Mapping)
    (pepper : String) : HashRow where
  hash :=
    env.sha256 (hashedText mapping.address (bindField mapping.medium) pepper)
  pepper := pepper
  type := bindField mapping.medium
  value := env.driver.text mxid
  active := some 1

def bindBody (mxid : JsValue) (mapping : Mapping) : JsValue :=
  .obj [("address", .str mapping.address), ("medium", .str mapping.medium),
    ("mxid", mxid), ("not_after", .num (mapping.submitTime + 86400000 * 36500)),
    ("not_before", .num mapping.submitTime), ("ts", .num mapping.submitTime)]

/-- PostgreSQL gives the column `keyID` back as `keyid`, so that the check on
the types fails and nothing is sent. -/
def onKeypair (env : Environment) (conf : Config) (mxid : JsValue)
    (mapping : Mapping) : Option (List Keypair) → Procedure
  | none => reply 500 (errMsg .unknown errorObject)
  | some [] => reply 500 (errMsg .unknown errorObject)
  | some (key :: _) =>
      match env.driver.engine with
      | .pg => .done
      | .sqlite =>
          reply 200 (env.signJson (bindBody mxid mapping) key.privateKey
            conf.serverName key.keyId)

def onBindPepper (env : Environment) (conf : Config) (mxid : JsValue)
    (mapping : Mapping) : Option (List KeyRow) → Procedure
  | none => reply 500 (errMsg .unknown errorObject)
  | some [] => reply 500 (errMsg .unknown errorObject)
  | some (key :: _) =>
      .perform (.db (.insert .hashes (bindRow env mxid mapping key.data))) fun
        | none => reply 500 (errMsg .unknown errorObject)
        | some _ =>
            .perform (.db (.get .longTermKeypairs ["keyID", "private"] []))
              (onKeypair env conf mxid mapping)

def onBindMapping (env : Environment) (conf : Config) (mxid : JsValue) :
    Option (List Mapping) → Procedure
  | none => reply 500 (errMsg .unknown errorObject)
  | some [] =>
      reply 404 (errMsg .noValidSession (.str
        "No valid session was found matching that sid and client secret"))
  | some (mapping :: _) =>
      if mapping.valid = 0 then
        reply 400 (errMsg .sessionNotValidated (.str
          "This validation session has not yet been completed"))
      else
        .fork (_onBind mxid mapping.address mapping.medium)
          (.perform (.db (.get .keys ["data"] [("name", .str "pepper")]))
            (onBindPepper env conf mxid mapping))

def bindSchema : List (String × Bool) :=
  [("client_secret", true), ("mxid", true), ("sid", true)]

def onBindContent (env : Environment) (conf : Config) (content : JsValue) :
    Procedure :=
  let clientSecret := field content "client_secret"
  let mxid := field content "mxid"
  let sid := field content "sid"
  checkSession clientSecret mxid sid
    (.perform (.db (.get .mappings
        ["address", "medium", "submit_time", "valid"]
        [("session_id", sid), ("client_secret", clientSecret)]))
      (onBindMapping env conf mxid))

def bind (env : Environment) (conf : Config) (req : Request) : Procedure :=
  Authenticate (fun _ _ =>
    jsonContent req fun content =>
      validateParameters bindSchema content (onBindContent env conf content))
    true req

structure SessionAccepted (clientSecret mxid sid : JsValue) : Prop where
  clientSecret : testValue clientSecretRe clientSecret = some true
  mxid : testValue mxidRe mxid = some true
  sid : testValue sidRe sid = some true

section Serve

variable (env : Environment) (now : Nat) (world : World)

theorem serve_refuseParam (accepted : Option Bool) (message : String)
    (rest : Procedure) :
    (accepted = some true ∧
      serve env now (refuseParam accepted message rest) world =
        serve env now rest world) ∨
    (accepted ≠ some true ∧ ∃ sent,
      serve env now (refuseParam accepted message rest) world =
        { world with sent }) := by
  match accepted with
  | none => exact .inr ⟨by simp, world.sent, rfl⟩
  | some false => exact .inr ⟨by simp, _, rfl⟩
  | some true => exact .inl ⟨rfl, rfl⟩

theorem serve_checkSession (clientSecret mxid sid : JsValue)
    (rest : Procedure) :
    (SessionAccepted clientSecret mxid sid ∧
      serve env now (checkSession clientSecret mxid sid rest) world =
        serve env now rest world) ∨
    (¬ SessionAccepted clientSecret mxid sid ∧ ∃ sent,
      serve env now (checkSession clientSecret mxid sid rest) world =
        { world with sent }) := by
  unfold checkSession
  rcases serve_refuseParam env now world (testValue clientSecretRe clientSecret)
      "invalid client_secret" (refuseParam (testValue mxidRe mxid)
        "invalid Matrix user ID" (refuseParam (testValue sidRe sid)
          "invalid session ID" rest)) with
    ⟨hsecret, hserve⟩ | ⟨hsecret, sent, hserve⟩
  · rw [hserve]
    rcases serve_refuseParam env now world (testValue mxidRe mxid)
        "invalid Matrix user ID" (refuseParam (testValue sidRe sid)
          "invalid session ID" rest) with
      ⟨hmxid, hserve⟩ | ⟨hmxid, sent, hserve⟩
    · rw [hserve]
      rcases serve_refuseParam env now world (testValue sidRe sid)
          "invalid session ID" rest with
        ⟨hsid, hserve⟩ | ⟨hsid, sent, hserve⟩
      · exact .inl ⟨⟨hsecret, hmxid, hsid⟩, hserve⟩
      · exact .inr ⟨fun h => hsid h.sid, sent, hserve⟩
    · exact .inr ⟨fun h => hmxid h.mxid, sent, hserve⟩
  · exact .inr ⟨fun h => hsecret h.clientSecret, sent, hserve⟩

theorem serve_onBind (mxid : JsValue) (address medium : String) :
    serve env now (_onBind mxid address medium) world = world := by
  unfold _onBind
  cases getServerNameFromMatrixId mxid with
  | none => rfl
  | some server =>
      simp only [listInvitationTokens, serve_get]
      unfold onInvitations
      split
      · rfl
      · rfl
      · split
        · rfl
        · rfl

theorem store_onKeypair (conf : Config) (mxid : JsValue) (mapping : Mapping)
    (keys : Option (List Keypair)) :
    (serve env now (onKeypair env conf mxid mapping keys) world).store =
      world.store := by
  unfold onKeypair
  split
  · rfl
  · rfl
  · split
    · rfl
    · rfl

/-- Behind the pepper, the table of hashes keeps its rows and gets at most the
row of this mapping. -/
theorem hashes_onBindPepper (conf : Config) (mxid : JsValue)
    (mapping : Mapping) (keys : Option (List KeyRow)) :
    (serve env now (onBindPepper env conf mxid mapping keys) world).store
        .hashes = world.store .hashes ∨
    ∃ pepper,
      (serve env now (onBindPepper env conf mxid mapping keys) world).store
        .hashes = world.store .hashes ++ [bindRow env mxid mapping pepper] := by
  unfold onBindPepper
  split
  · exact .inl rfl
  · exact .inl rfl
  · rename_i key rest
    rw [serve_db]
    simp only [execute]
    cases conflicts .hashes (world.store .hashes)
        (bindRow env mxid mapping key.data) with
    | true => exact .inl rfl
    | false =>
        refine .inr ⟨key.data, ?_⟩
        simp only [Bool.false_eq_true, if_false, serve_get, store_onKeypair]
        exact Function.update_self _ _ _

theorem hashes_onBindMapping (conf : Config) (mxid : JsValue)
    (rows : Option (List Mapping)) :
    (serve env now (onBindMapping env conf mxid rows) world).store .hashes =
      world.store .hashes ∨
    ∃ mapping pepper,
      (serve env now (onBindMapping env conf mxid rows) world).store .hashes =
        world.store .hashes ++ [bindRow env mxid mapping pepper] := by
  unfold onBindMapping
  split
  · exact .inl rfl
  · exact .inl rfl
  · rename_i mapping rest
    split
    · exact .inl rfl
    · rw [serve_fork, serve_onBind, serve_get]
      rcases hashes_onBindPepper env now world conf mxid mapping _ with
        hkept | ⟨pepper, hadded⟩
      · exact .inl hkept
      · exact .inr ⟨mapping, pepper, hadded⟩

theorem hashes_bind (conf : Config) (req : Request) :
    (serve env now (bind env conf req) world).store .hashes =
      world.store .hashes ∨
    ∃ content mapping pepper, acceptedBody bindSchema req = some content ∧
      (serve env now (bind env conf req) world).store .hashes =
        world.store .hashes ++
          [bindRow env (field content "mxid") mapping pepper] := by
  unfold bind
  rcases authenticate_cases env now world _ true req with
    ⟨data, _, hserve⟩ | ⟨_, sent, hserve⟩
  · rw [hserve]
    rcases serve_body env now world bindSchema req (onBindContent env conf) with
      ⟨content, hbody, hserve⟩ | ⟨_, sent, _, hserve⟩
    · rw [hserve]
      unfold onBindContent
      rcases serve_checkSession env now world (field content "client_secret")
          (field content "mxid") (field content "sid") _ with
        ⟨_, hserve⟩ | ⟨_, sent, hserve⟩
      · rw [hserve, serve_get]
        rcases hashes_onBindMapping env now world conf (field content "mxid") _
          with hkept | ⟨mapping, pepper, hadded⟩
        · exact .inl hkept
        · exact .inr ⟨content, mapping, pepper, hbody, hadded⟩
      · rw [hserve]
        exact .inl rfl
    · rw [hserve]
      exact .inl rfl
  · rw [hserve]
    exact .inl rfl

end Serve

end TwakeKickstart.IdentityServer
