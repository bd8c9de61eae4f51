import TwakeKickstart.Library.Paths
import TwakeKickstart.IdentityServer.Authenticate

namespace TwakeKickstart.IdentityServer

open Library Utils

/-! `POST /account/logout`: the token that the request presents is deleted. -/

def onLogoutDelete : Option Unit → Procedure
  | some _ => reply 200 (.obj [])
  | none => reply 401 (errMsg .unknownToken)

/-- The authenticator of the server that the handler belongs to. -/
def Logout
    (authenticate : (JsValue → JsValue → Procedure) → Request → Procedure)
    (req : Request) : Procedure :=
  authenticate (fun _ id =>
    .perform (.db (.deleteEqual .accessTokens "id" id)) onLogoutDelete) req

/-! What every path through an authenticator shares. -/

/-- Queries and refusals are never bad. -/
structure Spares (bad : Effect → Prop) : Prop where
  get : ∀ table fields filter, ¬ bad (.db (.get table fields filter))
  epoch : ¬ bad .epoch
  fetch : ∀ url authorization, ¬ bad (.fetch url authorization)
  resolve : ∀ server, ¬ bad (.resolve server)
  refusal : ∀ status body, status ≠ 200 → ¬ bad (.send status body)

section Until

variable {bad : Effect → Prop} {released : Sigma Effect.Result → Prop}
variable {callback : JsValue → JsValue → Procedure} {token : JsValue}

theorem Spares.refuse (spares : Spares bad) {status : Nat} (body : JsValue)
    (refused : status ≠ 200) : (reply status body).Until bad released :=
  .perform (spares.refusal status body refused) fun _ => trivial

theorem until_onPolicies (spares : Spares bad) {proceed : Procedure}
    (onward : proceed.Until bad released)
    (policies : Option (List PolicyRow)) :
    (onPolicies proceed policies).Until bad released := by
  unfold onPolicies
  split
  · exact spares.refuse _ (by decide)
  · split
    · exact onward
    · split
      · exact spares.refuse _ (by decide)
      · exact onward

theorem until_onTokenRow (spares : Spares bad)
    (onward : ∀ data, (callback data token).Until bad released)
    (requiresTerms : Bool) (row : TokenRow) :
    (onTokenRow callback requiresTerms token row).Until bad released := by
  unfold onTokenRow
  split
  · exact spares.refuse _ (by decide)
  · rename_i data _
    split
    · split
      · exact spares.refuse _ (by decide)
      · exact .perform (spares.get _ _ _) fun policies =>
          until_onPolicies spares (onward data) policies
    · exact onward data

theorem until_authenticateToken (spares : Spares bad)
    (onward : ∀ data, (callback data token).Until bad released)
    (requiresTerms : Bool) :
    (authenticateToken callback requiresTerms token).Until bad released := by
  unfold authenticateToken
  split
  · exact spares.refuse _ (by decide)
  · refine .perform (spares.get _ _ _) fun rows => ?_
    match rows with
    | none => exact spares.refuse _ (by decide)
    | some [] => exact spares.refuse _ (by decide)
    | some (row :: _) =>
        exact until_onTokenRow spares onward requiresTerms row

end Until

end TwakeKickstart.IdentityServer
