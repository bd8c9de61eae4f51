import TwakeKickstart.Library.RelyGuarantee
import TwakeKickstart.IdentityServer.Authenticate

namespace TwakeKickstart.IdentityServer

open Library Utils

/-! Handlers that run side by side: the parts that they share keep to every
discipline under which reading and answering are harmless. -/

section Disciplined

variable {Call : Type} (discipline : Discipline Effect World Call Choice)
variable (env : Environment) (call : Call)

structure Answers : Prop where
  get : ∀ table fields filter,
    discipline.Harmless (handle env) call (.db (.get table fields filter))
  epoch : discipline.Harmless (handle env) call .epoch
  send : ∀ status body,
    discipline.Harmless (handle env) call (.send status body)

variable {discipline} {env} {call} {calls : List Call} {world : World}

theorem handle_get (env : Environment) (choice : Choice) (table : Collections)
    (fields : List String) (filter : Filter) (world : World) :
    (handle env choice (.db (.get table fields filter)) world).2 = world := by
  cases hfails : choice.fails with
  | true => simp [handle, hfails]
  | false => simp [handle, hfails, execute_get]

namespace Answers

variable (answers : Answers discipline env call)
include answers

theorem reply (status : Nat) (body : JsValue) :
    discipline.Safe (handle env) call (reply status body) calls world := by
  apply Discipline.Safe.perform_harmless (answers.send status body)
  intro _
  trivial

theorem refuseUnless {accepted : Option Bool} {status : Nat} {body : JsValue}
    {rest : Procedure}
    (safe : discipline.Safe (handle env) call rest calls world) :
    discipline.Safe (handle env) call
      (refuseUnless accepted status body rest) calls world := by
  match accepted with
  | none => trivial
  | some false => exact answers.reply status body
  | some true => exact safe

theorem jsonContent {req : Request} {callback : JsValue → Procedure}
    (safe : ∀ content, req.body = some content →
      discipline.Safe (handle env) call (callback content) calls world) :
    discipline.Safe (handle env) call (jsonContent req callback) calls
      world := by
  unfold IdentityServer.jsonContent
  cases hbody : req.body with
  | none => exact answers.reply 400 _
  | some content => exact safe content hbody

theorem validateParameters {schema : List (String × Bool)}
    {content : JsValue} {callback : Procedure}
    (safe : discipline.Safe (handle env) call callback calls world) :
    discipline.Safe (handle env) call
      (validateParameters schema content callback) calls world := by
  unfold IdentityServer.validateParameters
  split
  · trivial
  · exact safe
  · exact answers.reply 400 _

theorem onPolicies {proceed : Procedure}
    (safe : discipline.Safe (handle env) call proceed calls world)
    (policies : Option (List PolicyRow)) :
    discipline.Safe (handle env) call (onPolicies proceed policies) calls
      world := by
  unfold IdentityServer.onPolicies
  split
  · exact answers.reply 403 _
  · split
    · exact safe
    · split
      · exact answers.reply 403 _
      · exact safe

variable {callback : JsValue → JsValue → Procedure}

theorem onTokenRow {token : JsValue}
    (safe : ∀ data,
      discipline.Safe (handle env) call (callback data token) calls world)
    (requiresTerms : Bool) (row : TokenRow) :
    discipline.Safe (handle env) call
      (onTokenRow callback requiresTerms token row) calls world := by
  unfold IdentityServer.onTokenRow
  split
  · exact answers.reply 401 _
  · rename_i data _
    split
    · split
      · exact answers.reply 401 _
      · apply Discipline.Safe.perform_harmless (answers.get _ _ _)
        intro policies
        exact answers.onPolicies (safe data) policies
    · exact safe data

/-- An authenticated procedure is safe when its callback is, for whomever it
is called. -/
theorem Authenticate {req : Request}
    (safe : ∀ data token,
      discipline.Safe (handle env) call (callback data token) calls world)
    (requiresTerms : Bool) :
    discipline.Safe (handle env) call (Authenticate callback requiresTerms req)
      calls world := by
  unfold IdentityServer.Authenticate authenticateToken
  split
  · exact answers.reply 401 _
  · apply Discipline.Safe.perform_harmless (answers.get _ _ _)
    intro rows
    match rows with
    | none => exact answers.reply 401 _
    | some [] => exact answers.reply 401 _
    | some (row :: _) =>
        exact answers.onTokenRow (fun data => safe data _) requiresTerms row

end Answers

end Disciplined

end TwakeKickstart.IdentityServer
