import TwakeKickstart.IdentityServer.Authenticate

namespace TwakeKickstart.TomServer

open Library Utils IdentityServer

/-! The authenticator of the tom-server.  A token that its own table does not
know is first shown to the homeserver and then to the authenticator of the
identity server. -/

def whoamiUrl (conf : Config) : String :=
  "https://" ++ conf.matrixServer ++ "/_matrix/client/r0/account/whoami"

def onWhoAmI (env : Environment) (callback : JsValue → JsValue → Procedure)
    (token : JsValue) : Option JsValue → Procedure
  | none => reply 401 (errMsg .unAuthorized)
  | some userInfo =>
      match userInfo.property "user_id" with
      | none => reply 401 (errMsg .unAuthorized)
      | some uid =>
          if uid.isNullish then
            IdentityServer.authenticateToken callback true token
          else
            .perform .epoch fun now =>
              .fork
                (.perform (.db (.insert .matrixTokens
                    { id := env.driver.text token,
                      data := some (tokenContent uid now) }))
                  fun _ => .done)
                (callback (tokenContent uid now) token)

def askMatrix (env : Environment) (conf : Config)
    (callback : JsValue → JsValue → Procedure) (token : JsValue) :
    Procedure :=
  match token.text? with
  | none => .done
  | some text =>
      .perform (.fetch (whoamiUrl conf) (some ("Bearer " ++ text)))
        (onWhoAmI env callback token)

def onMatrixTokens (env : Environment) (conf : Config)
    (callback : JsValue → JsValue → Procedure) (token : JsValue) :
    Option (List TokenRow) → Procedure
  | some (row :: _) =>
      match row.data with
      | some data => callback data token
      | none => askMatrix env conf callback token
  | _ => askMatrix env conf callback token

def authenticateToken (env : Environment) (conf : Config)
    (callback : JsValue → JsValue → Procedure) (token : JsValue) :
    Procedure :=
  if token.isNullish then reply 401 (errMsg .unAuthorized)
  else
    .perform (.db (.get .matrixTokens ["data"] [("id", token)]))
      (onMatrixTokens env conf callback token)

def Authenticate (env : Environment) (conf : Config)
    (callback : JsValue → JsValue → Procedure) (req : Request) : Procedure :=
  authenticateToken env conf callback (presentedToken req)

/-- The user that the homeserver names for a bearer token; `none` when the call
fails or its answer cannot be read. -/
def whoami (env : Environment) (conf : Config) (text : String) :
    Option JsValue :=
  (env.fetch (whoamiUrl conf) (some ("Bearer " ++ text))).bind
    (·.property "user_id")

def askDecision (env : Environment) (conf : Config) (now : Nat)
    (store : Store) (token : JsValue) (text : String) :
    Except (Nat × ErrCode) JsValue :=
  match whoami env conf text with
  | none => .error (401, .unAuthorized)
  | some uid =>
      if uid.isNullish then identify store token true
      else .ok (tokenContent uid now)

def decideToken (env : Environment) (conf : Config) (now : Nat)
    (store : Store) (token : JsValue) (text : String) :
    Except (Nat × ErrCode) JsValue :=
  match selectTokens (store .matrixTokens) token with
  | some (row :: _) =>
      match row.data with
      | some data => .ok data
      | none => askDecision env conf now store token text
  | _ => askDecision env conf now store token text

section Observed

variable (env : Environment) (conf : Config) (now : Nat) (world : World)
variable {token : JsValue}

theorem observed_askMatrix {text : String} (htext : token.text? = some text) :
    observed (serve env now (askMatrix env conf recordCallback token) world) =
      observed (settle env now
        (askDecision env conf now world.store token text) token recordCallback
        world) := by
  simp only [askMatrix, htext, serve_fetch, askDecision, whoami]
  cases env.fetch (whoamiUrl conf) (some ("Bearer " ++ text)) with
  | none => rfl
  | some userInfo =>
      simp only [onWhoAmI, Option.bind_some]
      cases userInfo.property "user_id" with
      | none => rfl
      | some uid =>
          simp only
          cases uid.isNullish with
          | true =>
              simp only [if_true, serve_authenticateToken]
          | false => rfl

theorem observed_authenticateToken {text : String}
    (htext : token.text? = some text) :
    observed (serve env now
        (authenticateToken env conf recordCallback token) world) =
      observed (settle env now
        (decideToken env conf now world.store token text) token recordCallback
        world) := by
  have hask := observed_askMatrix env conf now world htext
  simp only [authenticateToken, isNullish_of_text? htext, Bool.false_eq_true,
    if_false, serve_get, decideToken]
  change observed (serve env now (onMatrixTokens env conf recordCallback token
    (selectTokens (world.store .matrixTokens) token)) world) = _
  cases selectTokens (world.store .matrixTokens) token with
  | none => exact hask
  | some rows =>
      cases rows with
      | nil => exact hask
      | cons row rest =>
          simp only [onMatrixTokens]
          cases row.data with
          | none => exact hask
          | some data => rfl

end Observed

end TwakeKickstart.TomServer
