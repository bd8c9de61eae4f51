import TwakeKickstart.Library.RelyGuarantee
import TwakeKickstart.IdentityServer.Authenticate

namespace TwakeKickstart.IdentityServer

open Library Utils

/-! `validate/email`: `requestToken` mails a one-time token to an address and
`submitToken` exchanges it for a validated session. -/

def isMailboxChar (c : Char) : Bool :=
  isWordChar c || "+.-".toList.contains c

def isMailHostChar (c : Char) : Bool :=
  isWordChar c || ".-".toList.contains c

def validEmailRe : Regex :=
  .sequence
    [.one isWordChar, .many isMailboxChar, .one isWordChar, .literal '@',
      .one isWordChar, .many isMailHostChar, .one isWordChar, .literal '.',
      .run isWordChar 2 (some 6)]

def isValidUrl (env : Environment) (link : JsValue) : Bool :=
  (link.text?.bind env.parseUrl).isSome

/-- What a query gives for a value of a column. -/
def columnValue : Cell → JsValue
  | .null => .null
  | .int n => .num n
  | .text s => .str s

/-- What `createOneTimeToken` stores for a session. -/
def tokenData (sid : String) (email clientSecret nextLink : JsValue) :
    JsValue :=
  .obj ([("sid", .str sid), ("email", email), ("client_secret", clientSecret)] ++
    if nextLink.truthy then [("next_link", nextLink)] else [])

/-- A failed insertion is only logged: the promise is never settled. -/
def createOneTimeToken (conf : Config) (id : String) (data : JsValue)
    (next : Procedure) : Procedure :=
  .perform .epoch fun now =>
    let delay := if conf.mailLinkDelay > 0 then conf.mailLinkDelay else 600
    .perform (.db (.insert .oneTimeTokens
      { id, expires := now + 1000 * delay, data := some data })) fun
      | none => .done
      | some _ => next

/-- The arguments of `requestToken` that follow it through `fillTable`. -/
structure RequestTokenArgs where
  clientSecret : JsValue
  email : JsValue
  nextLink : JsValue
  sendAttempt : JsValue

def RequestTokenArgs.of (content : JsValue) : RequestTokenArgs where
  clientSecret := field content "client_secret"
  email := field content "email"
  nextLink := field content "next_link"
  sendAttempt := field content "send_attempt"

namespace RequestTokenArgs

def mail (args : RequestTokenArgs) (sid token : String) : Mail where
  dst := args.email
  token := token
  clientSecret := args.clientSecret
  sid := sid

def mapping (driver : Driver) (args : RequestTokenArgs) (sid : String) :
    Mapping where
  clientSecret := driver.text args.clientSecret
  sessionId := sid
  medium := "email"
  valid := 0
  address := driver.text args.email
  submitTime := 0
  sendAttempt := driver.bound args.sendAttempt

end RequestTokenArgs

/-- `sid` and `token` are the two random strings that one call draws. -/
def fillTable (env : Environment) (conf : Config) (args : RequestTokenArgs)
    (sid token : String) : Procedure :=
  createOneTimeToken conf token
    (tokenData sid args.email args.clientSecret args.nextLink)
    (.perform (.sendMail (args.mail sid token)) fun _ =>
      .perform (.db (.insert .mappings (args.mapping env.driver sid))) fun
        | none => reply 400 (errMsg .unknown errorObject)
        | some _ => reply 200 (.obj [("sid", .str sid)]))

def onPreviousAttempt (env : Environment) (conf : Config)
    (args : RequestTokenArgs) (sid token : String) :
    Option (List Mapping) → Procedure
  | none => reply 400 (errMsg .unknown errorObject)
  | some [] => fillTable env conf args sid token
  | some (row :: _) =>
      if args.sendAttempt.strictEq (columnValue row.sendAttempt) then
        reply 200 (.obj [("sid", .str row.sessionId)])
      else
        .perform (.db (.deleteEqualAnd .mappings
          ("client_secret", args.clientSecret)
          ("session_id", .str row.sessionId))) fun
          | none => reply 400 (errMsg .unknown errorObject)
          | some _ => fillTable env conf args sid token

def requestTokenSchema : List (String × Bool) :=
  [("client_secret", true), ("email", true), ("next_link", false),
    ("send_attempt", true)]

def onRequestTokenArgs (env : Environment) (conf : Config)
    (args : RequestTokenArgs) (sid token : String) : Procedure :=
  refuseUnless (testValue clientSecretRe args.clientSecret) 400
    (errMsg .invalidParam (.str "invalid client_secret"))
    (refuseUnless (testValue validEmailRe args.email) 400
      (errMsg .invalidEmail)
      (if args.nextLink.truthy && !isValidUrl env args.nextLink then
        reply 400 (errMsg .invalidParam (.str "invalid next_link"))
      else
        .perform (.db (.get .mappings ["send_attempt", "session_id"]
          [("client_secret", args.clientSecret), ("address", args.email)]))
          (onPreviousAttempt env conf args sid token)))

def RequestToken (env : Environment) (conf : Config) (req : Request)
    (sid token : String) : Procedure :=
  Authenticate (fun _ _ =>
    jsonContent req fun content =>
      validateParameters requestTokenSchema content
        (onRequestTokenArgs env conf (RequestTokenArgs.of content) sid token))
    true req

/-- The text of an error that the database or the engine raises. -/
def raisedText : String := "Error"

/-- `verifyToken` gives the content of the first row selected, or the text of
the error. -/
def onOneTimeTokens (next : Except String JsValue → Procedure) :
    Option (List OneTimeToken) → Procedure
  | none => next (.error raisedText)
  | some [] => next (.error raisedText)
  | some (row :: _) =>
      .perform .epoch fun now =>
        if row.expires ≥ now then
          match row.data with
          | none => next (.error raisedText)
          | some data => next (.ok data)
        else next (.error ("Error: Token expired" ++ toString row.expires))

def verifyToken (id : JsValue) (next : Except String JsValue → Procedure) :
    Procedure :=
  .perform (.db (.get .oneTimeTokens ["data", "expires"] [("id", id)]))
    (onOneTimeTokens next)

-- Both outcomes resolve: a failed deletion is only logged.
def deleteToken (id : JsValue) (next : Procedure) : Procedure :=
  .perform (.db (.deleteEqual .oneTimeTokens "id" id)) fun _ => next

def validate (now : Nat) (row : Mapping) : Mapping :=
  { row with valid := 1, submitTime := now }

def onValidated (env : Environment) (req : Request) (data : JsValue) :
    Option (List Mapping) → Procedure
  | none => .done
  | some _ =>
      let nextLink := field data "next_link"
      if req.method = "GET" ∧ nextLink.truthy then
        match nextLink.text?.bind env.parseUrl with
        | none => .done
        | some location => .perform (.redirect location) fun _ => .done
      else reply 200 (.obj [("success", .bool true)])

def validateSession (env : Environment) (req : Request)
    (token data : JsValue) : Procedure :=
  deleteToken token
    (.perform .epoch fun now =>
      .perform (.db (.updateAnd .mappings (validate now)
        ("session_id", field data "sid")
        ("client_secret", field data "client_secret")))
        (onValidated env req data))

def refuseToken (text : String) : Procedure :=
  reply 400 (errMsg .invalidParam (.str ("Unknown or expired token" ++ text)))

def onVerifiedToken (env : Environment) (req : Request) (prms : JsValue) :
    Except String JsValue → Procedure
  | .error text => refuseToken text
  | .ok data =>
      match data.property "sid", data.property "client_secret" with
      | some sid, some clientSecret =>
          if sid.strictEq (field prms "sid") &&
              clientSecret.strictEq (field prms "client_secret") then
            validateSession env req (field prms "token") data
          else
            reply 400 (errMsg .invalidParam (.str "sid or secret mismatch"))
      | _, _ => refuseToken raisedText

def realMethod (env : Environment) (req : Request) (prms : JsValue) :
    Procedure :=
  if prms.isNullish then .done
  else if (field prms "client_secret").hasLength &&
      (field prms "token").hasLength && (field prms "sid").hasLength then
    verifyToken (field prms "token") (onVerifiedToken env req prms)
  else reply 400 (errMsg .missingParams)

def SubmitToken (env : Environment) (req : Request) : Procedure :=
  if req.method = "GET" then realMethod env req (.obj req.query)
  else if req.method = "POST" then jsonContent req (realMethod env req)
  else reply 400 (errMsg .unAuthorized (.str "Unauthorized method"))

end TwakeKickstart.IdentityServer
