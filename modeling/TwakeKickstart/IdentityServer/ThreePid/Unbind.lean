import TwakeKickstart.IdentityServer.ThreePid.Bind

namespace TwakeKickstart.IdentityServer

open Library Utils

/-! `POST /3pid/unbind`. -/

def onUnbindDelete : Option Unit → Procedure
  | some _ => reply 200 (.obj [])
  | none => reply 500 (errMsg .unknown errorObject)

def onUnbindMapping (content : JsValue) :
    Option (List Mapping) → Procedure
  | none => reply 500 (errMsg .unknown errorObject)
  | some [] =>
      reply 403 (errMsg .invalidParam
        (.str "invalid session ID or client_secret"))
  | some (mapping :: _) =>
      if (JsValue.str mapping.address).strictEq
          (field (field content "threepid") "address") then
        .perform (.db (.deleteEqual .hashes "value" (field content "mxid")))
          onUnbindDelete
      else reply 403 (errMsg .invalidParam (.str "invalid address"))

def unbindSchema : List (String × Bool) :=
  [("client_secret", false), ("mxid", true), ("sid", false),
    ("threepid", true)]

/-- Without a client secret or a session ID the request is left without an
answer. -/
def onUnbindContent (content : JsValue) : Procedure :=
  if (field content "client_secret").isNullish ||
      (field content "sid").isNullish then .done
  else
    checkSession (field content "client_secret") (field content "mxid")
      (field content "sid")
      (.perform (.db (.get .mappings ["address"]
          [("session_id", field content "sid"),
            ("client_secret", field content "client_secret")]))
        (onUnbindMapping content))

def unbind (req : Request) : Procedure :=
  Authenticate (fun _ _ =>
    jsonContent req fun content =>
      validateParameters unbindSchema content (onUnbindContent content))
    true req

/-! When a request reaches the deletion, and what it deletes. -/

def selectMappings (store : Store) (sid clientSecret : JsValue) :
    Option (List Mapping) :=
  (Filter.resolve [("session_id", sid), ("client_secret", clientSecret)]).map
    fun resolved => (store .mappings).filter fun row =>
      selectsAll .eq resolved (cell .mappings row)

/-- Every check passes, with this row as the selected mapping. -/
structure UnbindReaches (store : Store) (req : Request) (content : JsValue)
    (mapping : Mapping) : Prop where
  authenticated : ∃ data,
    identify store (presentedToken req) true = .ok data
  accepted : acceptedBody unbindSchema req = some content
  hasSecret : (field content "client_secret").isNullish = false
  hasSid : (field content "sid").isNullish = false
  session : SessionAccepted (field content "client_secret")
    (field content "mxid") (field content "sid")
  selected : ∃ rest, selectMappings store (field content "sid")
    (field content "client_secret") = some (mapping :: rest)
  address : (JsValue.str mapping.address).strictEq
    (field (field content "threepid") "address") = true

def valueIs (driver : Driver) (mxid : JsValue) (row : HashRow) : Bool :=
  equals driver .hashes ("value", mxid) row

@[simp] theorem valueIs_str (driver : Driver) (mxid : String)
    (row : HashRow) :
    valueIs driver (.str mxid) row = true ↔ row.value = mxid := by
  simp [valueIs, equals, cell]

theorem refusesDelete_of_text {engine : SupportedDatabases} {value : JsValue}
    {text : String} (htext : value.text? = some text) (nonempty : text ≠ "")
    (notFalse : value ≠ .bool false) (notZero : value ≠ .num 0) :
    refusesDelete engine value = false := by
  cases engine with
  | sqlite => rfl
  | pg =>
      simp only [refusesDelete]
      split
      · cases htext
      · cases htext
      · exact absurd rfl notFalse
      · exact absurd rfl notZero
      · simp [htext, nonempty]

theorem refusesDelete_mxid {engine : SupportedDatabases} {mxid : JsValue}
    (present : mxid.isNullish = false)
    (h : testValue mxidRe mxid = some true) :
    refusesDelete engine mxid = false := by
  obtain ⟨text, htext, htest⟩ := testValue_true present h
  apply refusesDelete_of_text htext
  · rintro rfl
    exact absurd htest (by decide)
  · rintro rfl
    exact absurd h (by decide)
  · rintro rfl
    exact absurd h (by decide)

section Serve

variable (env : Environment) (now : Nat) (world : World)

theorem store_onUnbindDelete (result : Option Unit) :
    (serve env now (onUnbindDelete result) world).store = world.store := by
  cases result with
  | none => rfl
  | some _ => rfl

theorem hashes_onUnbindMapping {content : JsValue}
    (present : (field content "mxid").isNullish = false)
    (named : testValue mxidRe (field content "mxid") = some true)
    (rows : Option (List Mapping)) :
    (∃ mapping rest, rows = some (mapping :: rest) ∧
      (JsValue.str mapping.address).strictEq
        (field (field content "threepid") "address") = true ∧
      (serve env now (onUnbindMapping content rows) world).store .hashes =
        (world.store .hashes).filter
          fun row => !valueIs env.driver (field content "mxid") row) ∨
    ((∀ mapping rest, rows = some (mapping :: rest) →
        (JsValue.str mapping.address).strictEq
          (field (field content "threepid") "address") = false) ∧
      (serve env now (onUnbindMapping content rows) world).store .hashes =
        world.store .hashes) := by
  unfold onUnbindMapping
  split
  · exact .inr ⟨by simp, rfl⟩
  · exact .inr ⟨by simp, rfl⟩
  · rename_i mapping rest
    split
    · rename_i haddress
      refine .inl ⟨mapping, rest, rfl, haddress, ?_⟩
      rw [serve_db, store_onUnbindDelete]
      simp only [execute, refusesDelete_mxid present named, Bool.false_eq_true,
        if_false, Function.update_self]
      rfl
    · rename_i haddress
      refine .inr ⟨?_, rfl⟩
      intro other others hrows
      cases hrows
      simpa using haddress

theorem hashes_unbind (req : Request) :
    (∃ content mapping, UnbindReaches world.store req content mapping ∧
      (serve env now (unbind req) world).store .hashes =
        (world.store .hashes).filter
          fun row => !valueIs env.driver (field content "mxid") row) ∨
    ((∀ content mapping, ¬ UnbindReaches world.store req content mapping) ∧
      (serve env now (unbind req) world).store .hashes =
        world.store .hashes) := by
  unfold unbind
  rcases authenticate_cases env now world _ true req with
    ⟨data, hidentify, hserve⟩ | ⟨hrefused, sent, hserve⟩
  · rw [hserve]
    rcases serve_body env now world unbindSchema req onUnbindContent with
      ⟨content, hbody, hserve⟩ | ⟨hbody, sent, _, hserve⟩
    · rw [hserve]
      unfold onUnbindContent
      cases hmissing : (field content "client_secret").isNullish ||
          (field content "sid").isNullish with
      | true =>
          refine .inr ⟨?_, rfl⟩
          intro other mapping h
          have hsame := hbody.symm.trans h.accepted
          cases hsame
          simp [h.hasSecret, h.hasSid] at hmissing
      | false =>
          simp only [Bool.false_eq_true, if_false]
          rw [Bool.or_eq_false_iff] at hmissing
          rcases serve_checkSession env now world
              (field content "client_secret") (field content "mxid")
              (field content "sid") _ with
            ⟨hsession, hserve⟩ | ⟨hsession, sent, hserve⟩
          · rw [hserve, serve_get]
            have hpresent : (field content "mxid").isNullish = false :=
              field_present (missingParameters_of_acceptedBody hbody)
                (by decide)
            rcases hashes_onUnbindMapping env now world hpresent hsession.mxid
                (selectMappings world.store (field content "sid")
                  (field content "client_secret")) with
              ⟨mapping, rest, hrows, haddress, hdeleted⟩ | ⟨hrows, hkept⟩
            · exact .inl ⟨content, mapping, ⟨⟨data, hidentify⟩, hbody,
                hmissing.1, hmissing.2, hsession, ⟨rest, hrows⟩, haddress⟩,
                hdeleted⟩
            · refine .inr ⟨?_, hkept⟩
              intro other mapping h
              have hsame := hbody.symm.trans h.accepted
              cases hsame
              obtain ⟨rest, hselected⟩ := h.selected
              have haddress := hrows mapping rest hselected
              rw [h.address] at haddress
              cases haddress
          · refine .inr ⟨?_, by rw [hserve]⟩
            intro other mapping h
            have hsame := hbody.symm.trans h.accepted
            cases hsame
            exact hsession h.session
    · refine .inr ⟨?_, by rw [hserve]⟩
      intro content mapping h
      have hnone := hbody.symm.trans h.accepted
      cases hnone
  · refine .inr ⟨?_, by rw [hserve]⟩
    intro content mapping h
    obtain ⟨data, hidentify⟩ := h.authenticated
    exact hrefused data hidentify

end Serve

end TwakeKickstart.IdentityServer
