import TwakeKickstart.IdentityServer.Authenticate

namespace TwakeKickstart.FederatedIdentityService

open Library Utils IdentityServer

/-! The authenticator of the federated identity service.  `trusted` is what
the comparison of the caller's address with the trusted list gives; `none`
when the address cannot be parsed. -/

def tokenTrustedServer : String := "TOKEN_TRUSTED_SERVER"

def onTokenRows (callback : JsValue → JsValue → Procedure) (token : JsValue) :
    Option (List TokenRow) → Procedure
  | some (row :: _) =>
      match row.data with
      | some data => callback data token
      | none => IdentityServer.reply 401 (errMsg .unAuthorized)
  | _ => IdentityServer.reply 401 (errMsg .unAuthorized)

def authenticateToken (callback : JsValue → JsValue → Procedure)
    (token : JsValue) : Procedure :=
  if token.isNullish then IdentityServer.reply 401 (errMsg .unAuthorized)
  else
    .perform (.db (.get .accessTokens ["data"] [("id", token)]))
      (onTokenRows callback token)

def Authenticate (trusted : Option Bool)
    (callback : JsValue → JsValue → Procedure) (req : Request) : Procedure :=
  match trusted with
  | none => IdentityServer.reply 401 (errMsg .unAuthorized)
  | some true =>
      callback (.obj [("sub", .str ""), ("epoch", .num 0)])
        (.str tokenTrustedServer)
  | some false => authenticateToken callback (presentedToken req)

/-- Without terms to accept, both services decide alike. -/
theorem serve_authenticateToken (env : Environment) (now : Nat)
    (world : World) (callback : JsValue → JsValue → Procedure)
    (token : JsValue) :
    IdentityServer.serve env now (authenticateToken callback token) world =
      settle env now (identify world.store token false) token callback
        world := by
  unfold authenticateToken identify
  cases token.isNullish with
  | true => rfl
  | false =>
      simp only [Bool.false_eq_true, if_false, serve_get]
      change IdentityServer.serve env now (onTokenRows callback token
        (selectTokens (world.store .accessTokens) token)) world = _
      cases selectTokens (world.store .accessTokens) token with
      | none => rfl
      | some rows =>
          cases rows with
          | nil => rfl
          | cons row rest =>
              simp only [onTokenRows, admitRow]
              cases row.data with
              | none => rfl
              | some data => rfl

end TwakeKickstart.FederatedIdentityService
