import TwakeKickstart.IdentityServer.Incoming
import TwakeKickstart.IdentityServer.Terms
import TwakeKickstart.IdentityServer.ThreePid.Unbind
import TwakeKickstart.IdentityServer.Validate.Email

namespace TwakeKickstart.IdentityServer

open Library Utils
open Library.Program (Path path_done path_perform path_fork path_forkAll)

/-! How many HTTP responses a handler sends, on every path through it. -/

abbrev Performed := Sigma Effect.Result

namespace Performed

def isResponse : Performed → Bool
  | ⟨.send _ _, _⟩ | ⟨.redirect _, _⟩ => true
  | _ => false

/-- The row that a token query has found. -/
def tokenRow? : Performed → Option TokenRow
  | ⟨.db (.get .accessTokens _ _), some (row :: _)⟩ => some row
  | _ => none

def policies? : Performed → Option (List PolicyRow)
  | ⟨.db (.get .userPolicies _ _), policies⟩ => policies
  | _ => none

def findsKeypair : Performed → Bool
  | ⟨.db (.get .longTermKeypairs _ _), some (_ :: _)⟩ => true
  | _ => false

/-- The content of the one-time token that a query has found. -/
def tokenContent? : Performed → Option JsValue
  | ⟨.db (.get .oneTimeTokens _ _), some (row :: _)⟩ => row.data
  | _ => none

def rejectsUpdate : Performed → Bool
  | ⟨.db (.updateAnd _ _ _ _), result⟩ => result.isNone
  | _ => false

def acceptsUpdate : Performed → Bool
  | ⟨.db (.updateAnd _ _ _ _), result⟩ => result.isSome
  | _ => false

end Performed

def responses (path : List Performed) : Nat := path.countP Performed.isResponse

/-! When a path has exactly one. -/

/-- The authenticator has let the request pass. -/
def admitted (requiresTerms : Bool) (path : List Performed) : Bool :=
  match (path.findSome? Performed.tokenRow?).bind TokenRow.data with
  | none => false
  | some data =>
      !requiresTerms || (data.property "sub").isSome &&
        (path.findSome? Performed.policies?).any
          (!·.any (·.accepted == 0))

def sessionChecks (content : JsValue) : List (Option Bool) :=
  [testValue clientSecretRe (field content "client_secret"),
    testValue mxidRe (field content "mxid"),
    testValue sidRe (field content "sid")]

/-- The first check that does not pass throws. -/
def undecided (checks : List (Option Bool)) : Bool :=
  checks.find? (· != some true) == some none

/-- What throws behind `validateParameters`, which throws itself on `null` and
`undefined`. -/
def throwsBehind (schema : List (String × Bool)) (content : JsValue)
    (within : Bool) : Bool :=
  (missingParameters schema content).elim true fun missing =>
    missing.isEmpty && within

def unsigned (content : JsValue) : Bool :=
  (field content "client_secret").isNullish ||
    (field content "sid").isNullish

/-- The link to which a validated session would be sent on is no URL. -/
def LeadsNowhere (env : Environment) (req : Request) (path : List Performed) :
    Prop :=
  req.method = "GET" ∧ path.any Performed.acceptsUpdate = true ∧
    ∃ data ∈ path.findSome? Performed.tokenContent?,
      (field data "next_link").truthy = true ∧
      (field data "next_link").text?.bind env.parseUrl = none

inductive AnsweringHandler where
  | bind
  | unbind
  | submitToken
  | postTerms

namespace AnsweringHandler

/-- What the handler does with a content. -/
def callback (env : Environment) (conf : Config) (policies : Policies)
    (req : Request) : AnsweringHandler → JsValue → Procedure
  | bind, content =>
      validateParameters bindSchema content (onBindContent env conf content)
  | unbind, content =>
      validateParameters unbindSchema content (onUnbindContent content)
  | submitToken, content => realMethod env req content
  | postTerms, content =>
      validateParameters termsSchema content
        (onAccepts (getUrlsFromPolicies policies) req content)

def throws (policies : Policies) : AnsweringHandler → JsValue → Bool
  | bind, content =>
      throwsBehind bindSchema content (undecided (sessionChecks content))
  | unbind, content =>
      throwsBehind unbindSchema content
        (!unsigned content && undecided (sessionChecks content))
  | submitToken, content => content.isNullish
  | postTerms, content =>
      throwsBehind termsSchema content
        (donePolicies (getUrlsFromPolicies policies)
          (field content "user_accepts")).isNone

/-- The branch of `unbind` that is not written. -/
def unfinished : AnsweringHandler → JsValue → Bool
  | unbind, content =>
      missingParameters unbindSchema content == some [] && unsigned content
  | _, _ => false

-- The authenticator catches what its callback throws; `submitToken` has none,
-- but a content that was parsed before is never nullish.
def caught : AnsweringHandler → Procedure
  | bind | unbind => reply 403 (errMsg .termsNotSigned)
  | submitToken => .done
  | postTerms => reply 401 (errMsg .unAuthorized)

section Procedure

variable (env : Environment) (conf : Config) (policies : Policies)
variable (decoders : JsonContent.Decoders) (incoming : Incoming)

def deliver (handler : AnsweringHandler) : Procedure :=
  IdentityServer.deliver decoders incoming.message (handler.throws policies)
    handler.caught (handler.callback env conf policies incoming.request)

def procedure : AnsweringHandler → Procedure
  | bind =>
      Authenticate (fun _ _ =>
        bind.deliver env conf policies decoders incoming) true incoming.request
  | unbind =>
      Authenticate (fun _ _ =>
        unbind.deliver env conf policies decoders incoming) true
        incoming.request
  | submitToken =>
      if incoming.method = "GET" then
        realMethod env incoming.request (.obj incoming.query)
      else if incoming.method = "POST" then
        submitToken.deliver env conf policies decoders incoming
      else reply 400 (errMsg .unAuthorized (.str "Unauthorized method"))
  | postTerms =>
      Authenticate (fun _ _ =>
        postTerms.deliver env conf policies decoders incoming) false
        incoming.request

end Procedure

/-- The outcomes of the calls leave no promise without its response. -/
def Settled (env : Environment) (req : Request) (path : List Performed) :
    AnsweringHandler → Prop
  | bind => path.any Performed.findsKeypair = true → env.driver.engine = .sqlite
  | unbind => True
  | submitToken =>
      path.any Performed.rejectsUpdate = false ∧ ¬ LeadsNowhere env req path
  | postTerms => path.any Performed.rejectsUpdate = false

/-- The handler comes to read the body. -/
def reads (req : Request) (path : List Performed) : AnsweringHandler → Bool
  | bind | unbind => admitted true path
  | submitToken => req.method == "POST"
  | postTerms => admitted false path

/-- The body has one response: it comes, comes once, and is handled to the end. -/
def Handles (policies : Policies) (handler : AnsweringHandler) :
    Arrival → Prop
  | .nothing => False
  | .refused => True
  | .content now content => handler.unfinished content = false ∧
      (now = true ∨ handler.throws policies content = false)
  | .twice => False

structure Answers (env : Environment) (policies : Policies)
    (decoders : JsonContent.Decoders) (incoming : Incoming)
    (path : List Performed) (handler : AnsweringHandler) : Prop where
  settled : handler.Settled env incoming.request path
  body : handler.reads incoming.request path = true →
    handler.Handles policies (arrival decoders incoming.message)

end AnsweringHandler

section Count

variable (first second path : List Performed)

@[simp] theorem responses_nil : responses [] = 0 := rfl

@[simp] theorem responses_append :
    responses (first ++ second) = responses first + responses second :=
  List.countP_append

@[simp] theorem responses_send (status : Nat) (body : JsValue) (result : Unit) :
    responses (⟨.send status body, result⟩ :: path) = responses path + 1 :=
  List.countP_cons_of_pos rfl

@[simp] theorem responses_redirect (location : String) (result : Unit) :
    responses (⟨.redirect location, result⟩ :: path) = responses path + 1 :=
  List.countP_cons_of_pos rfl

@[simp] theorem responses_db (call : DbCall) (result : call.Result) :
    responses (⟨.db call, result⟩ :: path) = responses path := rfl

@[simp] theorem responses_epoch (result : Nat) :
    responses (⟨.epoch, result⟩ :: path) = responses path := rfl

@[simp] theorem responses_post (server uri : String) (body : JsValue)
    (result : Unit) :
    responses (⟨.post server uri body, result⟩ :: path) = responses path := rfl

end Count

theorem path_reply {status : Nat} {body : JsValue} {path : List Performed} :
    Path (reply status body) path ↔ path = [⟨.send status body, ()⟩] := by
  rw [reply, path_perform]
  constructor
  · rintro ⟨⟨⟩, rest, rfl, hrest⟩
    rw [path_done.mp hrest]
  · rintro rfl
    exact ⟨(), [], rfl, .done⟩

/-! The steps that the handlers share. -/

namespace Performed

/-- Neither a response nor an outcome on which an answer depends. -/
def plain (performed : Performed) : Bool :=
  !performed.isResponse && !performed.findsKeypair &&
    !performed.rejectsUpdate && !performed.acceptsUpdate

end Performed

theorem plain_iff {performed : Performed} :
    performed.plain = true ↔ performed.isResponse = false ∧
      performed.findsKeypair = false ∧ performed.rejectsUpdate = false ∧
      performed.acceptsUpdate = false := by
  simp only [Performed.plain, Bool.and_eq_true, Bool.not_eq_true', and_assoc]

theorem responses_plain {path : List Performed}
    (h : path.all Performed.plain = true) : responses path = 0 := by
  rw [responses, List.countP_eq_zero]
  intro performed hmem
  simp [(plain_iff.mp (List.all_eq_true.mp h performed hmem)).1]

section Plain

variable {path : List Performed} (h : path.all Performed.plain = true)
include h

theorem any_plain {outcome : Performed → Bool}
    (hplain : ∀ performed : Performed, performed.plain = true →
      outcome performed = false) : path.any outcome = false := by
  rw [List.any_eq_false]
  intro performed hmem
  simp [hplain performed (List.all_eq_true.mp h performed hmem)]

theorem findsKeypair_plain : path.any Performed.findsKeypair = false :=
  any_plain h fun _ hplain => (plain_iff.mp hplain).2.1

theorem rejectsUpdate_plain : path.any Performed.rejectsUpdate = false :=
  any_plain h fun _ hplain => (plain_iff.mp hplain).2.2.1

theorem acceptsUpdate_plain : path.any Performed.acceptsUpdate = false :=
  any_plain h fun _ hplain => (plain_iff.mp hplain).2.2.2

end Plain

/-- A path that ends with the one response that it sends. -/
def Refused (path : List Performed) : Prop :=
  ∃ asked status body, path = asked ++ [⟨.send status body, ()⟩] ∧
    asked.all Performed.plain = true

namespace Refused

variable {path : List Performed}

theorem of_reply {status : Nat} {body : JsValue}
    (h : Path (reply status body) path) : Refused path :=
  ⟨[], status, body, path_reply.mp h, rfl⟩

theorem cons {performed : Performed} (hplain : performed.plain = true)
    (h : Refused path) : Refused (performed :: path) := by
  obtain ⟨asked, status, body, rfl, hasked⟩ := h
  exact ⟨performed :: asked, status, body, rfl,
    by rw [List.all_cons, hplain, hasked]; rfl⟩

theorem responses (h : Refused path) :
    IdentityServer.responses path = 1 := by
  obtain ⟨asked, status, body, rfl, hasked⟩ := h
  rw [responses_append, responses_plain hasked]
  rfl

theorem any (h : Refused path) {outcome : Performed → Bool}
    (hplain : ∀ performed : Performed, performed.plain = true →
      outcome performed = false)
    (hsend : ∀ status body, outcome ⟨.send status body, ()⟩ = false) :
    path.any outcome = false := by
  obtain ⟨asked, status, body, rfl, hasked⟩ := h
  rw [List.any_append, any_plain hasked hplain, Bool.false_or, List.any_cons,
    hsend, List.any_nil, Bool.false_or]

theorem findsKeypair (h : Refused path) :
    path.any Performed.findsKeypair = false :=
  h.any (fun _ hplain => (plain_iff.mp hplain).2.1) fun _ _ => rfl

theorem rejectsUpdate (h : Refused path) :
    path.any Performed.rejectsUpdate = false :=
  h.any (fun _ hplain => (plain_iff.mp hplain).2.2.1) fun _ _ => rfl

theorem acceptsUpdate (h : Refused path) :
    path.any Performed.acceptsUpdate = false :=
  h.any (fun _ hplain => (plain_iff.mp hplain).2.2.2) fun _ _ => rfl

end Refused

theorem path_onPolicies {proceed : Procedure}
    {policies : Option (List PolicyRow)} {path : List Performed}
    (h : Path (onPolicies proceed policies) path) :
    (policies.any (!·.any (·.accepted == 0)) = false ∧
      path = [⟨.send 403 (errMsg .termsNotSigned), ()⟩]) ∨
    (∃ rows, policies = some rows ∧ rows.any (·.accepted == 0) = false ∧
      Path proceed path) := by
  cases policies with
  | none => exact .inl ⟨rfl, path_reply.mp h⟩
  | some rows =>
      simp only [onPolicies] at h
      split at h
      · rename_i hempty
        rw [List.isEmpty_iff.mp hempty]
        exact .inr ⟨[], rfl, rfl, h⟩
      · split at h
        · rename_i hunsigned
          exact .inl ⟨by simp [hunsigned], path_reply.mp h⟩
        · rename_i hsigned
          exact .inr ⟨rows, rfl, Bool.not_eq_true _ ▸ hsigned, h⟩

theorem admitted_row (requiresTerms : Bool) (fields : List String)
    (filter : Filter) (row : TokenRow) (rest : List TokenRow)
    (after : List Performed) :
    admitted requiresTerms
        (⟨.db (.get .accessTokens fields filter), some (row :: rest)⟩ ::
          after) =
      row.data.any fun data => !requiresTerms ||
        (data.property "sub").isSome &&
          (after.findSome? Performed.policies?).any
            (!·.any (·.accepted == 0)) := by
  have hfound : List.findSome? Performed.tokenRow?
      (⟨.db (.get .accessTokens fields filter), some (row :: rest)⟩ ::
        after) = some row := rfl
  unfold admitted
  rw [hfound, Option.bind_some]
  cases row.data with
  | none => rfl
  | some data => rfl

/-- The authenticator refuses the request, or lets it pass to the callback
after queries alone. -/
theorem path_Authenticate {callback : JsValue → JsValue → Procedure}
    {requiresTerms : Bool} {req : Request} {path : List Performed}
    (h : Path (Authenticate callback requiresTerms req) path) :
    (admitted requiresTerms path = false ∧ Refused path) ∨
    (admitted requiresTerms path = true ∧ ∃ asked after data token,
      path = asked ++ after ∧ asked.all Performed.plain = true ∧
      Path (callback data token) after) := by
  unfold Authenticate authenticateToken at h
  split at h
  · rw [path_reply] at h
    subst h
    exact .inl ⟨rfl, [], _, _, rfl, rfl⟩
  · obtain ⟨rows, after, rfl, hrows⟩ := path_perform.mp h
    match rows, hrows with
    | none, hrows =>
        exact .inl ⟨by rw [path_reply.mp hrows]; rfl,
          .cons rfl (.of_reply hrows)⟩
    | some [], hrows =>
        exact .inl ⟨by rw [path_reply.mp hrows]; rfl,
          .cons rfl (.of_reply hrows)⟩
    | some (row :: rest), hrow =>
        rw [admitted_row]
        simp only [onTokenRows, onTokenRow] at hrow
        split at hrow
        · rename_i hdata
          rw [hdata]
          exact .inl ⟨rfl, .cons rfl (.of_reply hrow)⟩
        · rename_i data hdata
          rw [hdata]
          cases requiresTerms with
          | false =>
              rw [if_neg Bool.false_ne_true] at hrow
              exact .inr ⟨rfl, [_], after, data, _, rfl, rfl, hrow⟩
          | true =>
              rw [if_pos rfl] at hrow
              split at hrow
              · rename_i hsub
                refine .inl ⟨?_, .cons rfl (.of_reply hrow)⟩
                simp [hsub]
              · rename_i sub hsub
                obtain ⟨policies, last, rfl, hpolicies⟩ :=
                  path_perform.mp hrow
                rcases path_onPolicies hpolicies with
                  ⟨hunsigned, rfl⟩ | ⟨rows, rfl, hsigned, hcallback⟩
                · refine .inl ⟨?_, .cons rfl (.cons rfl ⟨[], _, _, rfl, rfl⟩)⟩
                  have hfound : List.findSome? Performed.policies?
                      [⟨.db (.get .userPolicies ["policy_name", "accepted"]
                        [("user_id", sub)]), policies⟩,
                        ⟨.send 403 (errMsg .termsNotSigned), ()⟩] =
                      policies := by
                    cases policies <;> rfl
                  simp [hfound, hunsigned]
                · refine .inr ⟨?_, [_, _], last, data, _, rfl, rfl, hcallback⟩
                  have hfound : List.findSome? Performed.policies?
                      (⟨.db (.get .userPolicies ["policy_name", "accepted"]
                        [("user_id", sub)]), some rows⟩ :: last) =
                      some rows := rfl
                  simp [hsub, hfound, hsigned]

theorem path_validateParameters {schema : List (String × Bool)}
    {content : JsValue} {next : Procedure} {path : List Performed}
    (h : Path (validateParameters schema content next) path) :
    (missingParameters schema content = none ∧ path = []) ∨
    ((∃ key missing, missingParameters schema content = some (key :: missing)) ∧
      Refused path) ∨
    (missingParameters schema content = some [] ∧ Path next path) := by
  unfold validateParameters at h
  split at h
  · rename_i hthrows
    exact .inl ⟨hthrows, path_done.mp h⟩
  · rename_i hpresent
    exact .inr (.inr ⟨hpresent, h⟩)
  · rename_i missing hnonempty hmissing
    obtain ⟨key, rest, rfl⟩ := List.exists_cons_of_ne_nil hnonempty
    exact .inr (.inl ⟨⟨key, rest, hmissing⟩, .of_reply h⟩)

theorem path_refuseParam {accepted : Option Bool} {message : String}
    {rest : Procedure} {path : List Performed}
    (h : Path (refuseParam accepted message rest) path) :
    (accepted = none ∧ path = []) ∨ (accepted = some false ∧ Refused path) ∨
      (accepted = some true ∧ Path rest path) := by
  match accepted with
  | none => exact .inl ⟨rfl, path_done.mp h⟩
  | some false => exact .inr (.inl ⟨rfl, .of_reply h⟩)
  | some true => exact .inr (.inr ⟨rfl, h⟩)

theorem path_checkSession {content : JsValue} {rest : Procedure}
    {path : List Performed}
    (h : Path (checkSession (field content "client_secret")
      (field content "mxid") (field content "sid") rest) path) :
    (undecided (sessionChecks content) = true ∧ path = []) ∨
    (undecided (sessionChecks content) = false ∧
      (Refused path ∨ Path rest path)) := by
  unfold undecided sessionChecks
  rcases path_refuseParam h with ⟨hthrows, rfl⟩ | ⟨hfails, hrefused⟩ |
    ⟨hsecret, h⟩
  · exact .inl ⟨by simp [hthrows], rfl⟩
  · exact .inr ⟨by simp [hfails], .inl hrefused⟩
  · rcases path_refuseParam h with ⟨hthrows, rfl⟩ | ⟨hfails, hrefused⟩ |
      ⟨hmxid, h⟩
    · exact .inl ⟨by simp [hsecret, hthrows], rfl⟩
    · exact .inr ⟨by simp [hsecret, hfails], .inl hrefused⟩
    · rcases path_refuseParam h with ⟨hthrows, rfl⟩ | ⟨hfails, hrefused⟩ |
        ⟨hsid, h⟩
      · exact .inl ⟨by simp [hsecret, hmxid, hthrows], rfl⟩
      · exact .inr ⟨by simp [hsecret, hmxid, hfails], .inl hrefused⟩
      · exact .inr ⟨by simp [hsecret, hmxid, hsid], .inr h⟩

/-! What each handler does behind them. -/

theorem plain_onBind {mxid : JsValue} {address medium : String}
    {path : List Performed} (h : Path (_onBind mxid address medium) path) :
    path.all Performed.plain = true := by
  unfold _onBind at h
  split at h
  · rw [path_done.mp h]
    rfl
  · rename_i server hserver
    obtain ⟨rows, after, rfl, hafter⟩ := path_perform.mp h
    rw [List.all_cons, Bool.and_eq_true]
    refine ⟨rfl, ?_⟩
    unfold onInvitations at hafter
    split at hafter
    · rw [path_done.mp hafter]
      rfl
    · rw [path_done.mp hafter]
      rfl
    · split at hafter
      · rw [path_done.mp hafter]
        rfl
      · obtain ⟨answered, last, rfl, hlast⟩ := path_perform.mp hafter
        rw [path_done.mp hlast]
        rfl

/-- The key query decides whether `bind` answers. -/
def Signs (env : Environment) (path : List Performed) : Prop :=
  responses path = 1 ↔ (path.any Performed.findsKeypair = true →
    env.driver.engine = .sqlite)

namespace Signs

variable {env : Environment} {path : List Performed}

theorem of_refused (h : Refused path) : Signs env path := by
  simp [Signs, h.responses, h.findsKeypair]

theorem append {before : List Performed}
    (hplain : before.all Performed.plain = true) (h : Signs env path) :
    Signs env (before ++ path) := by
  rw [Signs, responses_append, responses_plain hplain, Nat.zero_add,
    List.any_append, findsKeypair_plain hplain, Bool.false_or]
  exact h

theorem cons {performed : Performed} (hplain : performed.plain = true)
    (h : Signs env path) : Signs env (performed :: path) := by
  have hall : [performed].all Performed.plain = true := by
    rw [List.all_cons, hplain]
    rfl
  exact append hall h

end Signs

theorem signs_onKeypair {env : Environment} {conf : Config}
    {mxid : JsValue} {mapping : Mapping} {fields : List String}
    {filter : Filter} {path : List Performed}
    (h : Path (.perform (.db (.get .longTermKeypairs fields filter))
      (onKeypair env conf mxid mapping)) path) : Signs env path := by
  obtain ⟨keys, after, rfl, hafter⟩ := path_perform.mp h
  match keys, hafter with
  | none, hafter => exact .of_refused (.cons rfl (.of_reply hafter))
  | some [], hafter => exact .of_refused (.cons rfl (.of_reply hafter))
  | some (key :: rest), hafter =>
      have hfinds : List.any (⟨.db (.get .longTermKeypairs fields filter),
          some (key :: rest)⟩ :: after) Performed.findsKeypair = true := rfl
      rw [Signs, hfinds]
      simp only [onKeypair] at hafter
      split at hafter
      · rename_i hpg
        rw [path_done.mp hafter, hpg]
        simp
      · rename_i hsqlite
        rw [path_reply.mp hafter, hsqlite]
        simp

theorem signs_onBindMapping {env : Environment} {conf : Config}
    {mxid : JsValue} {mappings : Option (List Mapping)}
    {path : List Performed}
    (h : Path (onBindMapping env conf mxid mappings) path) :
    Signs env path := by
  unfold onBindMapping at h
  split at h
  · exact .of_refused (.of_reply h)
  · exact .of_refused (.of_reply h)
  · split at h
    · exact .of_refused (.of_reply h)
    · obtain ⟨hook, own, rfl, hhook, hown⟩ := path_fork.mp h
      apply Signs.append (plain_onBind hhook)
      obtain ⟨peppers, after, rfl, hafter⟩ := path_perform.mp hown
      apply Signs.cons rfl
      unfold onBindPepper at hafter
      split at hafter
      · exact .of_refused (.of_reply hafter)
      · exact .of_refused (.of_reply hafter)
      · obtain ⟨inserted, last, rfl, hlast⟩ := path_perform.mp hafter
        apply Signs.cons rfl
        cases inserted with
        | none => exact .of_refused (.of_reply hlast)
        | some _ => exact signs_onKeypair hlast

theorem refused_onUnbindMapping {content : JsValue}
    {mappings : Option (List Mapping)} {path : List Performed}
    (h : Path (onUnbindMapping content mappings) path) : Refused path := by
  unfold onUnbindMapping at h
  split at h
  · exact .of_reply h
  · exact .of_reply h
  · split at h
    · obtain ⟨deleted, after, rfl, hafter⟩ := path_perform.mp h
      unfold onUnbindDelete at hafter
      split at hafter
      · exact .cons rfl (.of_reply hafter)
      · exact .cons rfl (.of_reply hafter)
    · exact .of_reply h

/-- Behind the deletion of the token: the update is rejected, or it is accepted
and the link decides. -/
theorem path_validateSession {env : Environment} {req : Request}
    {token data : JsValue} {path : List Performed}
    (h : Path (validateSession env req token data) path) :
    (path.any Performed.rejectsUpdate = true ∧ responses path = 0) ∨
    (path.any Performed.rejectsUpdate = false ∧
      path.any Performed.acceptsUpdate = true ∧
      (responses path = 1 ↔ ¬ (req.method = "GET" ∧
        (field data "next_link").truthy = true ∧
        (field data "next_link").text?.bind env.parseUrl = none))) := by
  obtain ⟨deleted, rest, rfl, hrest⟩ := path_perform.mp h
  obtain ⟨now, timed, rfl, htimed⟩ := path_perform.mp hrest
  obtain ⟨updated, after, rfl, hafter⟩ := path_perform.mp htimed
  cases updated with
  | none =>
      rw [path_done.mp hafter]
      exact .inl ⟨rfl, rfl⟩
  | some rows =>
      simp only [onValidated] at hafter
      split at hafter
      · rename_i hlink
        split at hafter
        · rename_i hnowhere
          rw [path_done.mp hafter]
          exact .inr ⟨rfl, rfl, by simp [hlink, hnowhere]⟩
        · rename_i location hlocation
          obtain ⟨sent, last, rfl, hlast⟩ := path_perform.mp hafter
          rw [path_done.mp hlast]
          exact .inr ⟨rfl, rfl, by simp [hlocation]⟩
      · rename_i hlink
        rw [path_reply.mp hafter]
        refine .inr ⟨rfl, rfl, ?_⟩
        simp only [responses_db, responses_epoch, responses_send,
          responses_nil, true_iff]
        rintro ⟨hget, htruthy, -⟩
        exact hlink ⟨hget, htruthy⟩

/-- `submitToken` behind its parameters. -/
def Submits (env : Environment) (req : Request) (path : List Performed) :
    Prop :=
  responses path = 1 ↔ path.any Performed.rejectsUpdate = false ∧
    ¬ LeadsNowhere env req path

theorem submits_of_refused {env : Environment} {req : Request}
    {path : List Performed} (h : Refused path) : Submits env req path := by
  simp [Submits, LeadsNowhere, h.responses, h.rejectsUpdate, h.acceptsUpdate]

theorem submits_onVerifiedToken {env : Environment} {req : Request}
    {prms data : JsValue} {asked path : List Performed}
    (hasked : asked.all Performed.plain = true)
    (hcontent : asked.findSome? Performed.tokenContent? = some data)
    (h : Path (onVerifiedToken env req prms (.ok data)) path) :
    Submits env req (asked ++ path) := by
  have ofRefused : Refused path → Submits env req (asked ++ path) := by
    rintro ⟨before, status, body, rfl, hbefore⟩
    apply submits_of_refused
    refine ⟨asked ++ before, status, body, (List.append_assoc _ _ _).symm, ?_⟩
    rw [List.all_append, hasked, hbefore]
    rfl
  simp only [onVerifiedToken] at h
  split at h
  · split at h
    · rw [Submits, LeadsNowhere, responses_append, responses_plain hasked,
        List.any_append, List.any_append, rejectsUpdate_plain hasked,
        acceptsUpdate_plain hasked, List.findSome?_append, hcontent]
      rcases path_validateSession h with
        ⟨hrejects, hnone⟩ | ⟨hrejects, haccepts, hiff⟩
      · simp [hrejects, hnone]
      · simp [hrejects, haccepts, hiff]
    · exact ofRefused (.of_reply h)
  · exact ofRefused (.of_reply h)

theorem submits_verifyToken {env : Environment} {req : Request}
    {prms id : JsValue} {path : List Performed}
    (h : Path (verifyToken id (onVerifiedToken env req prms)) path) :
    Submits env req path := by
  obtain ⟨rows, after, rfl, hafter⟩ := path_perform.mp h
  match rows, hafter with
  | none, hafter => exact submits_of_refused (.cons rfl (.of_reply hafter))
  | some [], hafter => exact submits_of_refused (.cons rfl (.of_reply hafter))
  | some (row :: rest), hafter =>
      obtain ⟨now, timed, rfl, htimed⟩ := path_perform.mp hafter
      split at htimed
      · split at htimed
        · exact submits_of_refused
            (.cons rfl (.cons rfl (.of_reply htimed)))
        · rename_i data hdata
          have hfirst : Performed.tokenContent?
              ⟨.db (.get .oneTimeTokens ["data", "expires"] [("id", id)]),
                some (row :: rest)⟩ = some data := hdata
          have hcontent : List.findSome? Performed.tokenContent?
              [⟨.db (.get .oneTimeTokens ["data", "expires"] [("id", id)]),
                some (row :: rest)⟩, ⟨.epoch, now⟩] = some data := by
            rw [List.findSome?_cons, hfirst]
          exact submits_onVerifiedToken rfl hcontent htimed
      · exact submits_of_refused (.cons rfl (.cons rfl (.of_reply htimed)))

theorem submits_realMethod {env : Environment} {req : Request}
    {prms : JsValue} {path : List Performed}
    (h : Path (realMethod env req prms) path) :
    (prms.isNullish = true ∧ path = []) ∨
      (prms.isNullish = false ∧ Submits env req path) := by
  unfold realMethod at h
  split at h
  · rename_i hnullish
    exact .inl ⟨hnullish, path_done.mp h⟩
  · rename_i hpresent
    refine .inr ⟨Bool.not_eq_true _ ▸ hpresent, ?_⟩
    split at h
    · exact submits_verifyToken h
    · exact submits_of_refused (.of_reply h)

/-! Acceptance sends its response, and one more for each rejected update. -/

theorem responses_acceptPolicy {userId : JsValue} {policyName : String}
    {path : List Performed} (h : Path (acceptPolicy userId policyName) path) :
    responses path = path.countP Performed.rejectsUpdate := by
  obtain ⟨updated, after, rfl, hafter⟩ := path_perform.mp h
  cases updated with
  | none =>
      rw [path_reply.mp hafter]
      rfl
  | some rows =>
      rw [path_done.mp hafter]
      rfl

theorem responses_onUserData {done : List String}
    {rows : Option (List TokenRow)} {path : List Performed}
    (h : Path (onUserData done rows) path) :
    responses path = path.countP Performed.rejectsUpdate + 1 := by
  unfold onUserData at h
  split at h
  · split at h
    · rw [path_reply.mp h]
      rfl
    · rename_i userId hsub
      obtain ⟨updates, last, rfl, hupdates, hlast⟩ := path_forkAll
        (fun path => responses path = path.countP Performed.rejectsUpdate)
        (fun first second hfirst hsecond => by
          rw [responses_append, hfirst, hsecond, List.countP_append])
        (fun child hchild path hpath => by
          obtain ⟨policyName, -, rfl⟩ := List.mem_map.mp hchild
          exact responses_acceptPolicy hpath) rfl h
      rw [path_reply.mp hlast, responses_append, hupdates, List.countP_append]
      rfl
  · rw [path_reply.mp h]
    rfl

theorem path_onAccepts {urls : UrlsFromPolicies} {req : Request}
    {content : JsValue} {path : List Performed}
    (h : Path (onAccepts urls req content) path) :
    (donePolicies urls (field content "user_accepts") = none ∧ path = []) ∨
    (donePolicies urls (field content "user_accepts") ≠ none ∧
      responses path = path.countP Performed.rejectsUpdate + 1) := by
  unfold onAccepts at h
  split at h
  · rename_i hthrows
    exact .inl ⟨hthrows, path_done.mp h⟩
  · rename_i hnothing
    refine .inr ⟨by simp [hnothing], ?_⟩
    rw [path_reply.mp h]
    rfl
  · rename_i done hnonempty hdone
    refine .inr ⟨by simp [hdone], ?_⟩
    obtain ⟨rows, after, rfl, hafter⟩ := path_perform.mp h
    rw [responses_db, responses_onUserData hafter]
    rfl

/-! Exactly one response, for each handler. -/

theorem responses_admitted {callback : JsValue → JsValue → Procedure}
    {requiresTerms : Bool} {req : Request} {path : List Performed}
    (h : Path (Authenticate callback requiresTerms req) path) :
    (admitted requiresTerms path = false ∧ Refused path) ∨
    (admitted requiresTerms path = true ∧ ∃ after data token,
      Path (callback data token) after ∧ responses path = responses after ∧
      path.any Performed.findsKeypair = after.any Performed.findsKeypair ∧
      path.any Performed.rejectsUpdate =
        after.any Performed.rejectsUpdate) := by
  rcases path_Authenticate h with hrefused |
    ⟨hadmitted, asked, after, data, token, rfl, hasked, hafter⟩
  · exact .inl hrefused
  · refine .inr ⟨hadmitted, after, data, token, hafter, ?_, ?_, ?_⟩
    · rw [responses_append, responses_plain hasked, Nat.zero_add]
    · rw [List.any_append, findsKeypair_plain hasked, Bool.false_or]
    · rw [List.any_append, rejectsUpdate_plain hasked, Bool.false_or]

namespace AnsweringHandler

variable {env : Environment} {conf : Config} {policies : Policies}
variable {req : Request} {content : JsValue} {path : List Performed}

theorem settled_of_refused (handler : AnsweringHandler)
    (h : Refused path) : handler.Settled env req path := by
  cases handler with
  | bind => simp [Settled, h.findsKeypair]
  | unbind => trivial
  | submitToken => simp [Settled, LeadsNowhere, h.rejectsUpdate, h.acceptsUpdate]
  | postTerms => exact h.rejectsUpdate

/-- A content is handled to the end, or by nothing at all. -/
structure Handled (env : Environment) (policies : Policies) (req : Request)
    (handler : AnsweringHandler) (content : JsValue) (path : List Performed) :
    Prop where
  dropped : handler.throws policies content = true ∨
    handler.unfinished content = true → path = []
  answered : handler.throws policies content = false →
    handler.unfinished content = false →
    (responses path = 1 ↔ handler.Settled env req path)

namespace Handled

variable {handler : AnsweringHandler}

theorem drop (dropped : handler.throws policies content = true ∨
      handler.unfinished content = true) (ended : path = []) :
    Handled env policies req handler content path := by
  refine ⟨fun _ => ended, fun hthrows hunfinished => ?_⟩
  rw [hthrows, hunfinished] at dropped
  simp at dropped

theorem answer (throws : handler.throws policies content = false)
    (unfinished : handler.unfinished content = false)
    (answers : responses path = 1 ↔ handler.Settled env req path) :
    Handled env policies req handler content path := by
  refine ⟨fun hdropped => ?_, fun _ _ => answers⟩
  rw [throws, unfinished] at hdropped
  simp at hdropped

theorem refuse (throws : handler.throws policies content = false)
    (unfinished : handler.unfinished content = false) (h : Refused path) :
    Handled env policies req handler content path :=
  answer throws unfinished
    (iff_of_true h.responses (settled_of_refused handler h))

end Handled

theorem handled_bind
    (h : Path (bind.callback env conf policies req content) path) :
    Handled env policies req bind content path := by
  rcases path_validateParameters h with ⟨hthrows, hended⟩ |
    ⟨⟨key, missing, hmissing⟩, hrefused⟩ | ⟨hpresent, h⟩
  · exact .drop (.inl (by simp [throws, throwsBehind, hthrows])) hended
  · exact .refuse (by simp [throws, throwsBehind, hmissing]) rfl hrefused
  · have hthrows : bind.throws policies content =
        undecided (sessionChecks content) := by
      simp [throws, throwsBehind, hpresent]
    rcases path_checkSession h with
      ⟨hundecided, hended⟩ | ⟨hdecided, hrefused | hreached⟩
    · exact .drop (.inl (hthrows.trans hundecided)) hended
    · exact .refuse (hthrows.trans hdecided) rfl hrefused
    · obtain ⟨mappings, last, rfl, hlast⟩ := path_perform.mp hreached
      exact .answer (hthrows.trans hdecided) rfl
        ((signs_onBindMapping hlast).cons rfl)

theorem handled_unbind
    (h : Path (unbind.callback env conf policies req content) path) :
    Handled env policies req unbind content path := by
  rcases path_validateParameters h with ⟨hthrows, hended⟩ |
    ⟨⟨key, missing, hmissing⟩, hrefused⟩ | ⟨hpresent, h⟩
  · exact .drop (.inl (by simp [throws, throwsBehind, hthrows])) hended
  · exact .refuse (by simp [throws, throwsBehind, hmissing])
      (by simp [unfinished, hmissing]) hrefused
  · have hthrows : unbind.throws policies content =
        (!unsigned content && undecided (sessionChecks content)) := by
      simp [throws, throwsBehind, hpresent]
    have hunfinished : unbind.unfinished content = unsigned content := by
      simp [unfinished, hpresent]
    unfold onUnbindContent at h
    split at h
    · rename_i hunsigned
      exact .drop (.inr (hunfinished.trans hunsigned)) (path_done.mp h)
    · rename_i hsigned
      have hsigned : unsigned content = false := Bool.not_eq_true _ ▸ hsigned
      rw [hsigned] at hthrows hunfinished
      rcases path_checkSession h with
        ⟨hundecided, hended⟩ | ⟨hdecided, hrefused | hreached⟩
      · exact .drop (.inl (hthrows.trans hundecided)) hended
      · exact .refuse (hthrows.trans hdecided) hunfinished hrefused
      · obtain ⟨mappings, last, rfl, hlast⟩ := path_perform.mp hreached
        exact .refuse (hthrows.trans hdecided) hunfinished
          (.cons rfl (refused_onUnbindMapping hlast))

theorem handled_submitToken
    (h : Path (submitToken.callback env conf policies req content) path) :
    Handled env policies req submitToken content path := by
  rcases submits_realMethod h with ⟨hnullish, hended⟩ | ⟨hread, hsubmits⟩
  · exact .drop (.inl hnullish) hended
  · exact .answer hread rfl hsubmits

theorem handled_postTerms
    (h : Path (postTerms.callback env conf policies req content) path) :
    Handled env policies req postTerms content path := by
  rcases path_validateParameters h with ⟨hthrows, hended⟩ |
    ⟨⟨key, missing, hmissing⟩, hrefused⟩ | ⟨hpresent, h⟩
  · exact .drop (.inl (by simp [throws, throwsBehind, hthrows])) hended
  · exact .refuse (by simp [throws, throwsBehind, hmissing]) rfl hrefused
  · rcases path_onAccepts h with ⟨hnone, hended⟩ | ⟨hiterates, hone⟩
    · exact .drop
        (.inl (by simp [throws, throwsBehind, hpresent, hnone])) hended
    · have hthrows : postTerms.throws policies content = false := by
        simpa [throws, throwsBehind, hpresent, Option.isSome_iff_ne_none]
          using hiterates
      refine .answer hthrows rfl ?_
      rw [hone]
      simp [Settled, List.countP_eq_zero]

theorem handled (handler : AnsweringHandler)
    (h : Path (handler.callback env conf policies req content) path) :
    Handled env policies req handler content path := by
  cases handler with
  | bind => exact handled_bind h
  | unbind => exact handled_unbind h
  | submitToken => exact handled_submitToken h
  | postTerms => exact handled_postTerms h

/-- An empty object is refused: it lacks what each handler requires. -/
theorem throws_empty (handler : AnsweringHandler) :
    handler.throws policies (.obj []) = false := by
  cases handler <;> rfl

theorem refused_empty (handler : AnsweringHandler)
    (h : Path (handler.callback env conf policies req (.obj [])) path) :
    Refused path := by
  cases handler with
  | bind => exact .of_reply h
  | unbind => exact .of_reply h
  | submitToken => exact .of_reply h
  | postTerms => exact .of_reply h

theorem unfinished_of_throws {handler : AnsweringHandler}
    (h : handler.throws policies content = true) :
    handler.unfinished content = false := by
  cases handler with
  | unbind =>
      simp only [throws, throwsBehind, unfinished] at h ⊢
      cases hmissing : missingParameters unbindSchema content with
      | none => simp
      | some missing =>
          rw [hmissing] at h
          cases hunsigned : unsigned content with
          | true => simp [hunsigned] at h
          | false => simp
  | bind => rfl
  | submitToken => rfl
  | postTerms => rfl

/-- What is thrown while the content is at hand becomes a refusal. -/
theorem refused_caught {handler : AnsweringHandler}
    (truthy : content.truthy = true)
    (throws : handler.throws policies content = true)
    (h : Path handler.caught path) : Refused path := by
  cases handler with
  | submitToken =>
      cases content with
      | undefined => cases truthy
      | null => cases truthy
      | _ => cases throws
  | bind => exact .of_reply h
  | unbind => exact .of_reply h
  | postTerms => exact .of_reply h

theorem responses_deliver {decoders : JsonContent.Decoders}
    {incoming : Incoming} {handler : AnsweringHandler}
    (refuses : ∀ text, decoders.json ("[object Object]" ++ text) = none)
    (h : Path (handler.deliver env conf policies decoders incoming) path) :
    responses path = 1 ↔ handler.Settled env incoming.request path ∧
      handler.Handles policies (arrival decoders incoming.message) := by
  cases path_deliver refuses h with
  | nothing harrival hended =>
      rw [harrival, hended]
      simp [Handles]
  | refused harrival body hrefusal =>
      have hrefused : Refused path := .of_reply hrefusal
      rw [harrival]
      simp [Handles, hrefused.responses, settled_of_refused handler hrefused]
  | content now content harrival hpath =>
      rw [harrival]
      simp only [Handles]
      cases hnow : now && handler.throws policies content with
      | true =>
          obtain ⟨rfl, hthrows⟩ := Bool.and_eq_true_iff.mp hnow
          rw [if_pos hnow] at hpath
          have hrefused :=
            refused_caught (truthy_of_now harrival) hthrows hpath
          simp [hrefused.responses, settled_of_refused handler hrefused,
            unfinished_of_throws hthrows]
      | false =>
          rw [if_neg (by simp [hnow])] at hpath
          obtain ⟨hdropped, hanswered⟩ := handled handler hpath
          cases hthrows : handler.throws policies content with
          | true =>
              rw [hthrows, Bool.and_true] at hnow
              simp [hdropped (.inl hthrows), hnow]
          | false =>
              cases hunfinished : handler.unfinished content with
              | true => simp [hdropped (.inr hunfinished)]
              | false => simp [hanswered hthrows hunfinished]
  | twice harrival hpath =>
      obtain ⟨first, second, body, rfl, hfirst, hsecond⟩ :=
        hpath.resolve_left (by simp [throws_empty])
      have hfirst : Refused first :=
        hfirst.elim .of_reply (refused_empty handler)
      have hsecond := refused_empty handler hsecond
      rw [harrival, responses_append, hfirst.responses, hsecond.responses]
      simp [Handles]

theorem responses_authenticated {handler : AnsweringHandler}
    {requiresTerms : Bool} {decoders : JsonContent.Decoders}
    {incoming : Incoming}
    (refuses : ∀ text, decoders.json ("[object Object]" ++ text) = none)
    (reads : handler.reads incoming.request path =
      admitted requiresTerms path)
    (settles : ∀ after : List Performed,
      path.any Performed.findsKeypair = after.any Performed.findsKeypair →
      path.any Performed.rejectsUpdate = after.any Performed.rejectsUpdate →
      (handler.Settled env incoming.request path ↔
        handler.Settled env incoming.request after))
    (h : Path (Authenticate (fun _ _ =>
      handler.deliver env conf policies decoders incoming) requiresTerms
      incoming.request) path) :
    responses path = 1 ↔
      handler.Answers env policies decoders incoming path := by
  have hfields : handler.Answers env policies decoders incoming path ↔
      handler.Settled env incoming.request path ∧
      (admitted requiresTerms path = true →
        handler.Handles policies (arrival decoders incoming.message)) := by
    rw [← reads]
    exact ⟨fun ⟨settled, body⟩ => ⟨settled, body⟩,
      fun ⟨settled, body⟩ => ⟨settled, body⟩⟩
  rw [hfields]
  rcases responses_admitted h with ⟨hnot, hrefused⟩ |
    ⟨hadmitted, after, data, token, hafter, hcount, hfinds, hrejects⟩
  · simp [hrefused.responses, settled_of_refused handler hrefused, hnot]
  · rw [hcount, settles after hfinds hrejects,
      responses_deliver refuses hafter]
    simp [hadmitted]

theorem responses_submitToken {decoders : JsonContent.Decoders}
    {incoming : Incoming}
    (refuses : ∀ text, decoders.json ("[object Object]" ++ text) = none)
    (h : Path (submitToken.procedure env conf policies decoders incoming)
      path) :
    responses path = 1 ↔
      submitToken.Answers env policies decoders incoming path := by
  have hfields : submitToken.Answers env policies decoders incoming path ↔
      submitToken.Settled env incoming.request path ∧
      (incoming.method = "POST" →
        submitToken.Handles policies (arrival decoders incoming.message)) :=
    ⟨fun ⟨settled, body⟩ => ⟨settled, fun hpost => body (beq_iff_eq.mpr hpost)⟩,
      fun ⟨settled, body⟩ => ⟨settled, fun hpost => body (beq_iff_eq.mp hpost)⟩⟩
  rw [hfields]
  simp only [procedure] at h
  split at h
  · rename_i hget
    rcases submits_realMethod h with ⟨hnullish, -⟩ | ⟨-, hsubmits⟩
    · cases hnullish
    · refine Iff.trans hsubmits ?_
      simp [Settled, hget]
  · split at h
    · rename_i hpost
      simpa [hpost] using responses_deliver refuses h
    · rename_i hpost
      have hrefused : Refused path := .of_reply h
      simp [hrefused.responses, settled_of_refused submitToken hrefused, hpost]

end AnsweringHandler

section Answers

variable {env : Environment} {conf : Config} {policies : Policies}
variable {decoders : JsonContent.Decoders} {incoming : Incoming}
variable {path : List Performed}

/-- Which paths send exactly one response, whatever each call gives. -/
theorem answers_once_iff {handler : AnsweringHandler}
    (refuses : ∀ text, decoders.json ("[object Object]" ++ text) = none)
    (h : Path (handler.procedure env conf policies decoders incoming) path) :
    responses path = 1 ↔
      handler.Answers env policies decoders incoming path := by
  cases handler with
  | bind =>
      refine AnsweringHandler.responses_authenticated refuses rfl ?_ h
      intro after hfinds hrejects
      simp only [AnsweringHandler.Settled, hfinds]
  | unbind =>
      exact AnsweringHandler.responses_authenticated refuses rfl
        (fun _ _ _ => Iff.rfl) h
  | submitToken => exact AnsweringHandler.responses_submitToken refuses h
  | postTerms =>
      refine AnsweringHandler.responses_authenticated refuses rfl ?_ h
      intro after hfinds hrejects
      simp only [AnsweringHandler.Settled, hrejects]

end Answers

/-! A validation that is read and deleted, and whose update is rejected. -/

/-- A request whose body `express.json` has parsed. -/
def Incoming.json (authorization : Option String) (fields : JsObject) :
    Incoming where
  authorization := authorization
  message :=
    { contentType := some "application/json"
      body := .obj fields
      chunks := []
      finish := .silent }
  parsed := fun _ => .inl ⟨rfl, fun _ => nofun⟩

def submission : Incoming :=
  .json none [("client_secret", .str "secret"), ("token", .str "token"),
    ("sid", .str "sid")]

def submittedTokenRow : OneTimeToken where
  id := "token"
  expires := 1
  data := some (.obj [("sid", .str "sid"), ("email", .str "a@example.org"),
    ("client_secret", .str "secret")])

def rejectedSubmission : List Performed :=
  [⟨.db (.get .oneTimeTokens ["data", "expires"] [("id", .str "token")]),
      some [submittedTokenRow]⟩,
    ⟨.epoch, 0⟩,
    ⟨.db (.deleteEqual .oneTimeTokens "id" (.str "token")), some ()⟩,
    ⟨.epoch, 0⟩,
    ⟨.db (.updateAnd .mappings (validate 0) ("session_id", .str "sid")
      ("client_secret", .str "secret")), none⟩]

/-! An acceptance whose update is rejected. -/

def privacyPolicies : Policies :=
  [("privacy_policy",
    { version := "1", translations := [("en", "https://example.org/en")] })]

def acceptance : Incoming :=
  .json (some "Bearer token")
    [("user_accepts", .str "https://example.org/en")]

def acceptingToken : TokenRow where
  id := "token"
  data := some (tokenContent (.str "user") 0)

def rejectedAcceptance : List Performed :=
  let asked : Performed := ⟨.db (.get .accessTokens ["data"]
    [("id", .str "token")]), some [acceptingToken]⟩
  [asked, asked,
    ⟨.db (.updateAnd .userPolicies ({ · with accepted := 1 })
      ("user_id", .str "user") ("policy_name", .str "privacy_policy 1")), none⟩,
    ⟨.send 500 (errMsg .unknown), ()⟩, ⟨.send 200 (.obj []), ()⟩]

section Rejected

variable (env : Environment) (conf : Config)

theorem path_rejectedSubmission :
    Path (AnsweringHandler.submitToken.procedure env conf privacyPolicies
      .literals submission) rejectedSubmission := by
  refine path_fork.mpr ⟨rejectedSubmission, [], (List.append_nil _).symm, ?_,
    .done⟩
  exact .perform _ (.perform _ (.perform _ (.perform _ (.perform _ .done))))

theorem path_rejectedAcceptance :
    Path (AnsweringHandler.postTerms.procedure env conf privacyPolicies
      .literals acceptance) rejectedAcceptance := by
  refine .perform _ (path_fork.mpr ⟨_, [], (List.append_nil _).symm, ?_,
    .done⟩)
  exact .perform _ (path_fork.mpr
    ⟨[_, _], [_], rfl, .perform _ (.perform _ .done), .perform _ .done⟩)

end Rejected

/-- The first sends nothing, the second two responses. -/
theorem rejected_update_responses :
    (Path (AnsweringHandler.submitToken.procedure (.offline id) .sample
        privacyPolicies .literals submission) rejectedSubmission ∧
      responses rejectedSubmission = 0) ∧
    (Path (AnsweringHandler.postTerms.procedure (.offline id) .sample
        privacyPolicies .literals acceptance) rejectedAcceptance ∧
      responses rejectedAcceptance = 2) :=
  ⟨⟨path_rejectedSubmission _ _, rfl⟩, path_rejectedAcceptance _ _, rfl⟩

theorem rejected_acceptance_answers_iff :
    responses rejectedAcceptance = 1 ↔
      AnsweringHandler.postTerms.Answers (.offline id) privacyPolicies
        .literals acceptance rejectedAcceptance := by
  have hrefuses : ∀ text, JsonContent.Decoders.literals.json
      ("[object Object]" ++ text) = none := by
    intro text
    simp [JsonContent.Decoders.literals]
  exact answers_once_iff hrefuses
    (path_rejectedAcceptance (.offline id) .sample)

end TwakeKickstart.IdentityServer
