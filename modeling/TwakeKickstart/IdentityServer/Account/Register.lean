import TwakeKickstart.IdentityServer.Request

namespace TwakeKickstart.IdentityServer

open Library Utils

/-! `POST /account/register`: a token of the homeserver is exchanged for one of
the identity server. -/

def isHostChar (c : Char) : Bool := c == '-' || c.isAlphanum

/-- `(([a-zA-Z0-9][-a-zA-Z0-9]*)?[a-zA-Z0-9])[.]` -/
def hostLabel : Regex :=
  .sequence
    [.optional (.seq (.one Char.isAlphanum) (.many isHostChar)),
      .one Char.isAlphanum, .literal '.']

def hostnameRe : Regex :=
  .sequence
    [.star hostLabel,
      .alt
        (.sequence [.one Char.isAlpha, .many isHostChar,
          .one Char.isAlphanum])
        (.one Char.isAlpha),
      .optional (.seq (.literal ':') (.some1 Char.isDigit))]

/-- `/^@(.+?):[^:]+$/` -/
def subRe : Regex :=
  .sequence
    [.literal '@', .some1 (!isLineTerminator ·), .literal ':',
      .some1 (· != ':')]

def isUriChar (c : Char) : Bool :=
  c.isAlphanum || ";,/?:@&=+$-_.!~*'()#".toList.contains c

def percentEncoded (c : Char) : List Char :=
  (String.singleton c).toUTF8.toList.flatMap fun byte =>
    ['%', Nat.digitChar (byte.toNat / 16) |>.toUpper,
      Nat.digitChar (byte.toNat % 16) |>.toUpper]

def encodeURI (uri : String) : String :=
  String.ofList (uri.toList.flatMap fun c =>
    if isUriChar c then [c] else percentEncoded c)

-- `undefined` where the array of URLs is empty.
def baseUrlText : JsValue → Option String
  | .arr [] => some "undefined"
  | .arr (first :: _) => first.text?
  | value => value.text?

def userInfoUrl (baseUrl accessToken : String) : String :=
  encodeURI (baseUrl ++
    "_matrix/federation/v1/openid/userinfo?access_token=" ++ accessToken)

def onUserInfo (resolved rejected : String → Procedure) :
    Option JsValue → Procedure
  | none => rejected "Token rejected"
  | some userInfo =>
      match userInfo.property "sub" with
      | none => rejected "Token rejected"
      | some (.str sub) =>
          if subRe.test sub then resolved sub
          else rejected "Invalid response from Matrix Server"
      | some sub =>
          if sub.isNullish then rejected "Invalid server"
          else rejected "Token rejected"

def onBaseUrl (accessToken : JsValue) (resolved rejected : String → Procedure) :
    Option JsValue → Procedure
  | none => rejected "Invalid server"
  | some baseUrl =>
      match baseUrlText baseUrl, accessToken.text? with
      | some base, some token =>
          .perform (.fetch (userInfoUrl base token) none)
            (onUserInfo resolved rejected)
      | _, _ => rejected "Invalid server"

/-- The promise of the validated user, with the procedures that follow its two
outcomes. -/
def validateMatrixToken (matrixServer accessToken : JsValue)
    (resolved rejected : String → Procedure) : Procedure :=
  match testValue hostnameRe matrixServer with
  | none => .done
  | some false => rejected "Bad matrix_server_name"
  | some true =>
      .perform (.resolve (matrixServer.text?.getD ""))
        (onBaseUrl accessToken resolved rejected)

def registerSchema : List (String × Bool) :=
  [("access_token", true), ("expires_in", true), ("matrix_server_name", true),
    ("token_type", true)]

def createSession (token sub : String) : Procedure :=
  .perform .epoch fun now =>
    .perform (.db (.insert .accessTokens
        { id := token, data := some (tokenContent (.str sub) now) })) fun
      | some _ => reply 200 (.obj [("token", .str token)])
      | none =>
          reply 500 (errMsg .unknown (.str "Unable to create session"))

/-- `token` is the random string of this call. -/
def Register (token : String) (req : Request) : Procedure :=
  jsonContent req fun content =>
    validateParameters registerSchema content
      (validateMatrixToken (field content "matrix_server_name")
        (field content "access_token") (createSession token)
        fun reason => reply 401 (errMsg .sessionNotValidated (.str reason)))

/-! What a new token row can name. -/

/-- The server that the body names was asked for the owner of the body's access
token and answered `sub`. -/
inductive AnsweredBy (env : Environment) (content : JsValue) :
    (server sub : String) → Prop
  | intro {server base accessToken sub : String} {baseUrl userInfo : JsValue}
      (named : (field content "matrix_server_name").text? = some server)
      (hostname : hostnameRe.test server = true)
      (resolved : env.resolve server = some baseUrl)
      (based : baseUrlText baseUrl = some base)
      (token : (field content "access_token").text? = some accessToken)
      (answered : env.fetch (userInfoUrl base accessToken) none =
        some userInfo)
      (vouched : userInfo.property "sub" = some (.str sub))
      (shaped : subRe.test sub = true) :
      AnsweredBy env content server sub

theorem serve_onUserInfo (env : Environment) (now : Nat) (world : World)
    (resolved rejected : String → Procedure) (answer : Option JsValue) :
    (∃ userInfo sub, answer = some userInfo ∧
      userInfo.property "sub" = some (.str sub) ∧ subRe.test sub = true ∧
      serve env now (onUserInfo resolved rejected answer) world =
        serve env now (resolved sub) world) ∨
    ∃ reason, serve env now (onUserInfo resolved rejected answer) world =
      serve env now (rejected reason) world := by
  cases answer with
  | none => exact .inr ⟨_, rfl⟩
  | some userInfo =>
      simp only [onUserInfo]
      split
      · exact .inr ⟨_, rfl⟩
      · rename_i sub hsub
        split
        · rename_i hshape
          exact .inl ⟨userInfo, sub, rfl, hsub, hshape, rfl⟩
        · exact .inr ⟨_, rfl⟩
      · split
        · exact .inr ⟨_, rfl⟩
        · exact .inr ⟨_, rfl⟩

theorem serve_validateMatrixToken (env : Environment) (now : Nat)
    (world : World) (content : JsValue)
    (resolved rejected : String → Procedure)
    (present : (field content "matrix_server_name").isNullish = false) :
    (∃ server sub, AnsweredBy env content server sub ∧
      serve env now (validateMatrixToken (field content "matrix_server_name")
        (field content "access_token") resolved rejected) world =
        serve env now (resolved sub) world) ∨
    (∃ reason,
      serve env now (validateMatrixToken (field content "matrix_server_name")
        (field content "access_token") resolved rejected) world =
        serve env now (rejected reason) world) ∨
    serve env now (validateMatrixToken (field content "matrix_server_name")
      (field content "access_token") resolved rejected) world = world := by
  unfold validateMatrixToken
  split
  · exact .inr (.inr rfl)
  · exact .inr (.inl ⟨_, rfl⟩)
  · rename_i htest
    obtain ⟨server, hserver, hhostname⟩ := testValue_true present htest
    rw [serve_resolve, hserver, Option.getD_some]
    cases hresolve : env.resolve server with
    | none => exact .inr (.inl ⟨_, rfl⟩)
    | some baseUrl =>
        simp only [onBaseUrl]
        split
        · rename_i base accessToken hbase htoken
          rw [serve_fetch]
          rcases serve_onUserInfo env now world resolved rejected
              (env.fetch (userInfoUrl base accessToken) none) with
            ⟨userInfo, sub, hanswer, hsub, hshape, hserve⟩ | ⟨reason, hserve⟩
          · exact .inl ⟨server, sub, .intro hserver hhostname hresolve hbase
              htoken hanswer hsub hshape, hserve⟩
          · exact .inr (.inl ⟨reason, hserve⟩)
        · exact .inr (.inl ⟨_, rfl⟩)

theorem serve_createSession (env : Environment) (now : Nat) (world : World)
    (token sub : String) :
    let row : TokenRow :=
      { id := token, data := some (tokenContent (.str sub) now) }
    serve env now (createSession token sub) world =
      if conflicts .accessTokens (world.store .accessTokens) row then
        { world with sent := world.sent ++ [(500,
            errMsg .unknown (.str "Unable to create session"))] }
      else
        { world.setTable .accessTokens (world.store .accessTokens ++ [row]) with
          sent := world.sent ++ [(200, .obj [("token", .str token)])] } := by
  intro row
  simp only [createSession, serve_epoch, serve_db, execute]
  cases conflicts .accessTokens (world.store .accessTokens) row with
  | true => rfl
  | false => rfl

/-- A local part and a server part, the latter without a colon. -/
def MatrixIdShape (sub : String) : Prop :=
  ∃ localpart server : List Char,
    sub.toList = '@' :: localpart ++ ':' :: server ∧
    localpart ≠ [] ∧ server ≠ [] ∧ ':' ∉ server

theorem subRe_shape {sub : String} (h : subRe.test sub = true) :
    MatrixIdShape sub := by
  have hmatch := Regex.matches_of_test h
  obtain ⟨sigil, rest, hsplit, hsigil, hrest⟩ :=
    Regex.matches_sequence_cons hmatch
  obtain ⟨localpart, rest', hsplit', hlocal, hrest'⟩ :=
    Regex.matches_sequence_cons hrest
  obtain ⟨colon, server, hsplit'', hcolon, hserver⟩ :=
    Regex.matches_sequence_cons hrest'
  have hsigil' := Regex.matches_literal hsigil
  have hcolon' := Regex.matches_literal hcolon
  refine ⟨localpart, server, ?_, ?_, ?_, ?_⟩
  · rw [hsplit, hsplit', hsplit'', hsigil', hcolon']
    simp
  · cases hlocal with
    | run _ lower _ =>
        rintro rfl
        simp at lower
  · cases hserver with
    | run _ lower _ =>
        rintro rfl
        simp at lower
  · cases hserver with
    | run all _ _ =>
        intro hmem
        have hchar := all ':' hmem
        simp at hchar

def RegisterAdds (env : Environment) (now : Nat) (token : String)
    (req : Request) (store : Store) (server sub : String) : Prop :=
  ∃ content, acceptedBody registerSchema req = some content ∧
    AnsweredBy env content server sub ∧
    (serve env now (Register token req) { store }).store =
      Function.update store .accessTokens (store .accessTokens ++
        [{ id := token, data := some (tokenContent (.str sub) now) }])

/-- A registration stores nothing, or one token for the `sub` that the named
server answered for the presented access token. -/
theorem register_names_answer (env : Environment) (now : Nat)
    (token : String) (req : Request) (store : Store) :
    ((serve env now (Register token req) { store }).store = store ∧
      ∀ answer ∈ (serve env now (Register token req) { store }).sent,
        answer.1 ≠ 200) ∨
    ∃ server sub, RegisterAdds env now token req store server sub ∧
      MatrixIdShape sub := by
  unfold RegisterAdds Register
  rcases serve_body env now { store } registerSchema req (fun content =>
      validateMatrixToken (field content "matrix_server_name")
        (field content "access_token") (createSession token)
        fun reason => reply 401 (errMsg .sessionNotValidated (.str reason)))
    with ⟨content, hbody, hserve⟩ | ⟨hbody, sent, hsent, hserve⟩
  · have hpresent : (field content "matrix_server_name").isNullish = false :=
      field_present (missingParameters_of_acceptedBody hbody) (by decide)
    rw [hserve]
    rcases serve_validateMatrixToken env now { store } content
        (createSession token) (fun reason =>
          reply 401 (errMsg .sessionNotValidated (.str reason))) hpresent with
      ⟨server, sub, hanswered, hvalidate⟩ | ⟨reason, hvalidate⟩ | hvalidate
    · rw [hvalidate, serve_createSession]
      split
      · refine .inl ⟨rfl, ?_⟩
        simp
      · cases hanswered with
        | intro named hostname resolved based token answered vouched shaped =>
            exact .inr ⟨server, sub, ⟨content, hbody, .intro named hostname
              resolved based token answered vouched shaped, rfl⟩,
              subRe_shape shaped⟩
    · rw [hvalidate]
      refine .inl ⟨rfl, ?_⟩
      simp
    · rw [hvalidate]
      refine .inl ⟨rfl, ?_⟩
      simp
  · rw [hserve]
    refine .inl ⟨rfl, ?_⟩
    intro answer hanswer
    rw [hsent answer (by simpa using hanswer)]
    decide

/-- The server part of a Matrix ID. -/
def serverPart (mxid : String) : String :=
  String.ofList ((mxid.toList.dropWhile (· != ':')).drop 1)

/-- Every new token row names a user of the server that the body names. -/
def VouchesOwnUsersOnly (env : Environment) (now : Nat) (token : String)
    (req : Request) (store : Store) : Prop :=
  ∀ content server, acceptedBody registerSchema req = some content →
    (field content "matrix_server_name").text? = some server →
    ∀ row ∈ (serve env now (Register token req) { store }).store .accessTokens,
      row ∉ store .accessTokens →
      ∃ sub, row.data = some (tokenContent (.str sub) now) ∧
        serverPart sub = server

/-! A server that answers with a user of another server. -/

def evilEnvironment : Environment :=
  { Environment.offline id with
    resolve := fun server =>
      if server = "evil.org" then some (.str "https://evil.org/") else none
    fetch := fun url _ =>
      if url = "https://evil.org/_matrix/federation/v1/openid/" ++
          "userinfo?access_token=t0ken" then
        some (.obj [("sub", .str "@alice:matrix.org")])
      else none }

def evilRequest : Request where
  body := some (.obj [("access_token", .str "t0ken"),
    ("expires_in", .num 3600), ("matrix_server_name", .str "evil.org"),
    ("token_type", .str "Bearer")])

theorem register_names_foreign_user :
    ¬ VouchesOwnUsersOnly evilEnvironment 0 "fresh" evilRequest
      emptyStore := by
  intro hsound
  have hstored : (serve evilEnvironment 0 (Register "fresh" evilRequest)
      { store := emptyStore }).store .accessTokens =
      [{ id := "fresh",
         data := some (tokenContent (.str "@alice:matrix.org") 0) }] := by
    rfl
  obtain ⟨sub, hdata, hserver⟩ := hsound _ "evil.org" rfl rfl _
    (hstored ▸ List.mem_singleton_self _) List.not_mem_nil
  cases hdata
  exact absurd hserver (by decide)

end TwakeKickstart.IdentityServer
