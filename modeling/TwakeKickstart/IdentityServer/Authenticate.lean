import TwakeKickstart.IdentityServer.Request

namespace TwakeKickstart.IdentityServer

open Library Utils

/-! The authenticator of the identity server and what it decides. -/

def tokenRe (header : String) : Option String :=
  let token := header.toList.drop 7
  if "Bearer ".toList <+: header.toList ∧ token ≠ [] ∧
      token.all (!isSpaceChar ·) then
    some (String.ofList token)
  else none

/-- The token that the authenticators extract.  A query string that is present
but has no `access_token` gives `undefined`. -/
def presentedToken (req : Request) : JsValue :=
  match req.authorization with
  | some header => (tokenRe header).elim .null .str
  | none =>
      if req.query.isEmpty then .null
      else (req.query.lookup "access_token").getD .undefined

def onPolicies (proceed : Procedure) : Option (List PolicyRow) → Procedure
  | none => reply 403 (errMsg .termsNotSigned)
  | some policies =>
      if policies.isEmpty then proceed
      else if policies.any (·.accepted == 0) then
        reply 403 (errMsg .termsNotSigned)
      else proceed

def onTokenRow (callback : JsValue → JsValue → Procedure)
    (requiresTerms : Bool) (token : JsValue) (row : TokenRow) : Procedure :=
  match row.data with
  | none => reply 401 (errMsg .unAuthorized)
  | some data =>
      if requiresTerms then
        match data.property "sub" with
        | none => reply 401 (errMsg .unAuthorized)
        | some sub =>
            .perform (.db (.get .userPolicies ["policy_name", "accepted"]
              [("user_id", sub)])) (onPolicies (callback data token))
      else callback data token

def onTokenRows (callback : JsValue → JsValue → Procedure)
    (requiresTerms : Bool) (token : JsValue) :
    Option (List TokenRow) → Procedure
  | none => reply 401 (errMsg .unAuthorized)
  | some [] => reply 401 (errMsg .unAuthorized)
  | some (row :: _) => onTokenRow callback requiresTerms token row

def authenticateToken (callback : JsValue → JsValue → Procedure)
    (requiresTerms : Bool) (token : JsValue) : Procedure :=
  if token.isNullish then reply 401 (errMsg .unAuthorized)
  else
    .perform (.db (.get .accessTokens ["data"] [("id", token)]))
      (onTokenRows callback requiresTerms token)

def Authenticate (callback : JsValue → JsValue → Procedure)
    (requiresTerms : Bool) (req : Request) : Procedure :=
  authenticateToken callback requiresTerms (presentedToken req)

/-! The rows that a token selects, and the decision taken on them. -/

def selectTokens (rows : List TokenRow) (token : JsValue) :
    Option (List TokenRow) :=
  (Filter.resolve [("id", token)]).map fun resolved =>
    rows.filter fun row => selectsAll .eq resolved row.cell

def policiesOf (store : Store) (sub : JsValue) : Option (List PolicyRow) :=
  (Filter.resolve [("user_id", sub)]).map fun resolved =>
    (store .userPolicies).filter fun row =>
      selectsAll .eq resolved (cell .userPolicies row)

def termsSigned (store : Store) (sub : JsValue) : Bool :=
  (policiesOf store sub).any (!·.any (·.accepted == 0))

def admitRow (store : Store) (row : TokenRow) (requiresTerms : Bool) :
    Except (Nat × ErrCode) JsValue :=
  match row.data with
  | none => .error (401, .unAuthorized)
  | some data =>
      if requiresTerms then
        match data.property "sub" with
        | none => .error (401, .unAuthorized)
        | some sub =>
            if termsSigned store sub then .ok data
            else .error (403, .termsNotSigned)
      else .ok data

def identify (store : Store) (token : JsValue) (requiresTerms : Bool) :
    Except (Nat × ErrCode) JsValue :=
  if token.isNullish then .error (401, .unAuthorized)
  else
    match selectTokens (store .accessTokens) token with
    | some (row :: _) => admitRow store row requiresTerms
    | _ => .error (401, .unAuthorized)

/-- The strings that a token value compares with the stored ids. -/
def presentedTexts (token : JsValue) : List String :=
  (boundTexts token).getD []

/-- A row whose id the request presents holds this content. -/
def NamedByRow (rows : List TokenRow) (token data : JsValue) : Prop :=
  ∃ row ∈ rows, row.id ∈ presentedTexts token ∧ row.data = some data

/-- The authenticator can read the user out of the row. -/
def readable (requiresTerms : Bool) (row : TokenRow) : Bool :=
  row.data.any fun data => !requiresTerms || (data.property "sub").isSome

/-- The request is authenticated as this user. -/
def AuthenticatedAs (store : Store) (requiresTerms : Bool) (req : Request)
    (user : String) : Prop :=
  ∃ data, identify store (presentedToken req) requiresTerms = .ok data ∧
    data.property "sub" = some (.str user)

/-- What a procedure does with a decision of an authenticator. -/
def settle (env : Environment) (now : Nat)
    (decision : Except (Nat × ErrCode) JsValue) (token : JsValue)
    (callback : JsValue → JsValue → Procedure) (world : World) : World :=
  match decision with
  | .error (status, code) =>
      { world with sent := world.sent ++ [(status, errMsg code)] }
  | .ok data => serve env now (callback data token) world

/-! What a caller can observe: the callbacks that were run and the replies. -/

abbrev Observation := List (JsValue × JsValue) × List (Nat × JsValue)

def observed (world : World) : Observation :=
  (world.granted, world.sent)

def recordCallback (data token : JsValue) : Procedure :=
  .perform (.callback data token) fun _ => .done

theorem isNullish_of_text? {value : JsValue} {text : String}
    (h : value.text? = some text) : value.isNullish = false := by
  cases value <;> simp_all [JsValue.text?, JsValue.isNullish]

theorem resolve_empty {key : String} {value : JsValue}
    (empty : value.text? = some "") :
    Filter.resolve [(key, value)] = some [] := by
  rw [resolve_single (isNullish_of_text? empty), empty]
  rfl

theorem selectTokens_empty (rows : List TokenRow) {token : JsValue}
    (empty : token.text? = some "") : selectTokens rows token = some rows := by
  rw [selectTokens, resolve_empty empty]
  simp [selectsAll]

theorem mem_selected {table : Collections} {rows selected : List (Row table)}
    {key : String} {value : JsValue} (notNullish : value.isNullish = false)
    (kept : value.text? ≠ some "")
    (h : (Filter.resolve [(key, value)]).map (fun resolved =>
      rows.filter fun row => selectsAll .eq resolved (cell table row)) =
        some selected)
    {row : Row table} (hrow : row ∈ selected) :
    row ∈ rows ∧ ∃ text ∈ presentedTexts value,
      Operator.eq.test (cell table row key) text = true := by
  rw [resolve_single notNullish] at h
  obtain ⟨resolved, hresolved, rfl⟩ := Option.map_eq_some_iff.mp h
  obtain ⟨text, htext, htexts⟩ := Option.bind_eq_some_iff.mp hresolved
  have hnonempty : text ≠ "" := fun hempty => kept (by rw [htext, hempty])
  rw [if_neg hnonempty] at htexts
  obtain ⟨texts, hbound, rfl⟩ := Option.map_eq_some_iff.mp htexts
  obtain ⟨hmem, hselects⟩ := List.mem_filter.mp hrow
  refine ⟨hmem, ?_⟩
  rw [presentedTexts, hbound]
  simpa [selectsAll] using hselects

theorem mem_selectTokens {rows selected : List TokenRow} {token : JsValue}
    (notNullish : token.isNullish = false) (kept : token.text? ≠ some "")
    (h : selectTokens rows token = some selected) {row : TokenRow}
    (hrow : row ∈ selected) : row ∈ rows ∧ row.id ∈ presentedTexts token := by
  obtain ⟨hmem, text, htext, htest⟩ :=
    @mem_selected .accessTokens rows selected "id" token notNullish kept h
      row hrow
  refine ⟨hmem, ?_⟩
  rw [(Operator.test_eq_text _ _).mp htest]
  exact htext

theorem serve_get (env : Environment) (now : Nat) (world : World)
    (table : Collections) (fields : List String) (filter : Filter)
    (next : Option (List (Row table)) → Procedure) :
    serve env now (.perform (.db (.get table fields filter)) next) world =
      serve env now
        (next (filter.resolve.map fun resolved =>
          (world.store table).filter fun row =>
            selectsAll .eq resolved (cell table row))) world := by
  rw [serve_db, execute_get]

theorem serve_onPolicies (env : Environment) (now : Nat) (world : World)
    (proceed : Procedure) (policies : Option (List PolicyRow)) :
    serve env now (onPolicies proceed policies) world =
      if policies.any (!·.any (·.accepted == 0)) then serve env now proceed world
      else serve env now (reply 403 (errMsg .termsNotSigned)) world := by
  cases policies with
  | none => rfl
  | some policies =>
      cases policies with
      | nil => rfl
      | cons row rest =>
          cases hrefused : (row :: rest).any (·.accepted == 0) <;>
            simp [onPolicies, hrefused]

theorem serve_onTokenRow (env : Environment) (now : Nat) (world : World)
    (callback : JsValue → JsValue → Procedure) (requiresTerms : Bool)
    (token : JsValue) (row : TokenRow) :
    serve env now (onTokenRow callback requiresTerms token row) world =
      settle env now (admitRow world.store row requiresTerms) token callback
        world := by
  unfold onTokenRow admitRow
  cases row.data with
  | none => rfl
  | some data =>
      cases requiresTerms with
      | false => rfl
      | true =>
          cases hsub : data.property "sub" with
          | none => simp [hsub, settle]
          | some sub =>
              simp only [hsub, if_true, serve_get, serve_onPolicies]
              change (if termsSigned world.store sub = true then _ else _) = _
              cases termsSigned world.store sub <;> rfl

theorem serve_authenticateToken (env : Environment) (now : Nat)
    (world : World) (callback : JsValue → JsValue → Procedure)
    (requiresTerms : Bool) (token : JsValue) :
    serve env now (authenticateToken callback requiresTerms token) world =
      settle env now (identify world.store token requiresTerms) token callback
        world := by
  unfold authenticateToken identify
  cases token.isNullish with
  | true => rfl
  | false =>
      simp only [Bool.false_eq_true, if_false, serve_get]
      change serve env now (onTokenRows callback requiresTerms token
        (selectTokens (world.store .accessTokens) token)) world = _
      cases selectTokens (world.store .accessTokens) token with
      | none => rfl
      | some rows =>
          cases rows with
          | nil => rfl
          | cons row rest =>
              exact serve_onTokenRow env now world callback requiresTerms
                token row

/-- Either the callback is reached, or the request is answered and nothing else
happens. -/
theorem authenticate_cases (env : Environment) (now : Nat) (world : World)
    (callback : JsValue → JsValue → Procedure) (requiresTerms : Bool)
    (req : Request) :
    (∃ data, identify world.store (presentedToken req) requiresTerms =
        .ok data ∧
      serve env now (Authenticate callback requiresTerms req) world =
        serve env now (callback data (presentedToken req)) world) ∨
    ((∀ data, identify world.store (presentedToken req) requiresTerms ≠
        .ok data) ∧
      ∃ sent, serve env now (Authenticate callback requiresTerms req) world =
        { world with sent }) := by
  rw [Authenticate, serve_authenticateToken]
  cases identify world.store (presentedToken req) requiresTerms with
  | error refusal => exact .inr ⟨by simp, _, rfl⟩
  | ok data => exact .inl ⟨data, rfl, rfl⟩

theorem admitRow_ok {store : Store} {row : TokenRow} {requiresTerms : Bool}
    {data : JsValue} (h : admitRow store row requiresTerms = .ok data) :
    row.data = some data := by
  unfold admitRow at h
  split at h
  · cases h
  · rename_i content hcontent
    split at h
    · split at h
      · cases h
      · split at h
        · cases h
          exact hcontent
        · cases h
    · cases h
      exact hcontent

theorem admitRow_error {store : Store} {row : TokenRow} {requiresTerms : Bool}
    {status : Nat} {code : ErrCode}
    (h : admitRow store row requiresTerms = .error (status, code)) :
    status = 401 ∨ readable requiresTerms row = true := by
  unfold admitRow at h
  split at h
  · cases h
    exact .inl rfl
  · rename_i content hcontent
    split at h
    · rename_i hterms
      split at h
      · cases h
        exact .inl rfl
      · rename_i sub hsub
        exact .inr (by simp [readable, hcontent, hsub])
    · cases h

theorem data_of_readable {row : TokenRow} {requiresTerms : Bool}
    (h : readable requiresTerms row = true) : ∃ data, row.data = some data := by
  cases hdata : row.data with
  | none => simp [readable, hdata] at h
  | some data => exact ⟨data, rfl⟩

theorem admitRow_unreadable {row : TokenRow} {requiresTerms : Bool}
    (h : readable requiresTerms row = false) (store : Store) :
    admitRow store row requiresTerms = .error (401, .unAuthorized) := by
  unfold admitRow
  cases hdata : row.data with
  | none => rfl
  | some data =>
      simp only [readable, hdata, Option.any_some, Bool.or_eq_false_iff,
        Bool.not_eq_false', Option.isSome_eq_false_iff,
        Option.isNone_iff_eq_none] at h
      simp [h.1, h.2]

theorem admitRow_readable {row : TokenRow} {requiresTerms : Bool}
    (h : readable requiresTerms row = true) (store : Store) :
    (∃ data, admitRow store row requiresTerms = .ok data) ∨
      admitRow store row requiresTerms = .error (403, .termsNotSigned) := by
  unfold admitRow
  cases hdata : row.data with
  | none => simp [readable, hdata] at h
  | some data =>
      cases requiresTerms with
      | false => exact .inl ⟨data, rfl⟩
      | true =>
          cases hsub : data.property "sub" with
          | none => simp [readable, hdata, hsub] at h
          | some sub =>
              simp only [if_true, hsub]
              cases termsSigned store sub with
              | true => exact .inl ⟨data, rfl⟩
              | false => exact .inr rfl

/-- Whom the authenticator admits is named by a row whose id the request
presents, unless the filter was dropped. -/
theorem namedByRow_of_identify {store : Store} {token data : JsValue}
    {requiresTerms : Bool} (kept : token.text? ≠ some "")
    (h : identify store token requiresTerms = .ok data) :
    NamedByRow (store .accessTokens) token data := by
  unfold identify at h
  split at h
  · cases h
  · rename_i hnullish
    split at h
    · rename_i row rest hselected
      have hrow := mem_selectTokens (by simpa using hnullish) kept hselected
        (List.mem_cons_self (a := row) (l := rest))
      exact ⟨row, hrow.1, hrow.2, admitRow_ok h⟩
    · cases h

theorem identify_error {store : Store} {token : JsValue}
    {requiresTerms : Bool} {status : Nat} {code : ErrCode}
    (kept : token.text? ≠ some "")
    (h : identify store token requiresTerms = .error (status, code)) :
    status = 401 ∨ ∃ data, NamedByRow (store .accessTokens) token data := by
  unfold identify at h
  split at h
  · cases h
    exact .inl rfl
  · rename_i hnullish
    split at h
    · rename_i row rest hselected
      have hrow := mem_selectTokens (by simpa using hnullish) kept hselected
        (List.mem_cons_self (a := row) (l := rest))
      rcases admitRow_error h with hstatus | hreadable
      · exact .inl hstatus
      · obtain ⟨data, hdata⟩ := data_of_readable hreadable
        exact .inr ⟨data, row, hrow.1, hrow.2, hdata⟩
    · cases h
      exact .inl rfl

/-- Nobody is admitted when the first row of a table, which is what an empty
token selects, cannot be read. -/
def headUnreadable (rows : List TokenRow) (requiresTerms : Bool) : Prop :=
  ∀ row ∈ rows.head?, readable requiresTerms row = false

theorem identify_empty {store : Store} {token : JsValue}
    (empty : token.text? = some "") (requiresTerms : Bool) :
    identify store token requiresTerms =
      match store .accessTokens with
      | row :: _ => admitRow store row requiresTerms
      | [] => .error (401, .unAuthorized) := by
  rw [identify, isNullish_of_text? empty, selectTokens_empty _ empty]
  cases store .accessTokens with
  | nil => rfl
  | cons row rest => rfl

theorem admitRow_refused_iff {store : Store} {row : TokenRow}
    {requiresTerms : Bool} :
    (∃ code, admitRow store row requiresTerms = .error (401, code)) ↔
      readable requiresTerms row = false := by
  constructor
  · rintro ⟨code, hrefused⟩
    cases hreadable : readable requiresTerms row with
    | false => rfl
    | true =>
        rcases admitRow_readable hreadable store with ⟨data, h⟩ | h
        · rw [h] at hrefused
          cases hrefused
        · rw [h] at hrefused
          cases hrefused
  · intro hunreadable
    exact ⟨_, admitRow_unreadable hunreadable store⟩

theorem identify_empty_refused {store : Store} {token : JsValue}
    {requiresTerms : Bool} (empty : token.text? = some "") :
    (∃ code, identify store token requiresTerms = .error (401, code)) ↔
      headUnreadable (store .accessTokens) requiresTerms := by
  rw [identify_empty empty]
  cases hrows : store .accessTokens with
  | nil => simp [headUnreadable]
  | cons row rest =>
      simp only [headUnreadable, List.head?_cons, Option.mem_some_iff,
        forall_eq']
      exact admitRow_refused_iff

/-- A request that is authenticated and has its parameters, or how it is
answered. -/
def received (schema : List (String × Bool)) (store : Store) (req : Request) :
    Except (List (Nat × JsValue)) JsValue :=
  match identify store (presentedToken req) true with
  | .error (status, code) => .error [(status, errMsg code)]
  | .ok _ =>
      match req.body with
      | none => .error [(400, errMsg .unknown errorObject)]
      | some content =>
          match missingParameters schema content with
          | none => .error []
          | some [] => .ok content
          | some missing => .error [(400, errMsg .missingParams
              (.str ("Missing parameters " ++ ", ".intercalate missing)))]

theorem serve_received (env : Environment) (now : Nat)
    (schema : List (String × Bool)) (store : Store) (req : Request)
    (next : JsValue → Procedure) :
    serve env now (Authenticate (fun _ _ => jsonContent req fun content =>
        validateParameters schema content (next content)) true req)
        { store } =
      match received schema store req with
      | .error sent => { store, sent }
      | .ok content => serve env now (next content) { store } := by
  rw [Authenticate, serve_authenticateToken]
  unfold received settle
  cases identify store (presentedToken req) true with
  | error refusal => rfl
  | ok data =>
      unfold jsonContent
      cases req.body with
      | none => rfl
      | some content =>
          unfold validateParameters
          dsimp only
          cases missingParameters schema content with
          | none => rfl
          | some missing =>
              cases missing with
              | nil => rfl
              | cons key rest => rfl

theorem received_of_accepted {schema : List (String × Bool)} {store : Store}
    {req : Request} {data content : JsValue}
    (authenticated : identify store (presentedToken req) true = .ok data)
    (accepted : acceptedBody schema req = some content) :
    received schema store req = .ok content := by
  unfold acceptedBody at accepted
  obtain ⟨hbody, hmissing⟩ := Option.filter_eq_some_iff.mp accepted
  have hnone : missingParameters schema content = some [] := by
    simpa using hmissing
  simp only [received, authenticated, hbody, hnone]

theorem identify_of_received {schema : List (String × Bool)} {store : Store}
    {req : Request} {content : JsValue}
    (h : received schema store req = .ok content) :
    ∃ data, identify store (presentedToken req) true = .ok data := by
  unfold received at h
  split at h
  · cases h
  · rename_i data hidentify
    exact ⟨data, hidentify⟩

theorem identify_congr {store other : Store}
    (tokens : store .accessTokens = other .accessTokens)
    (policies : store .userPolicies = other .userPolicies)
    (token : JsValue) (requiresTerms : Bool) :
    identify store token requiresTerms =
      identify other token requiresTerms := by
  unfold identify admitRow termsSigned policiesOf
  rw [tokens, policies]

theorem received_congr {store other : Store}
    (tokens : store .accessTokens = other .accessTokens)
    (policies : store .userPolicies = other .userPolicies)
    (schema : List (String × Bool)) (req : Request) :
    received schema store req = received schema other req := by
  unfold received
  rw [identify_congr tokens policies]

end TwakeKickstart.IdentityServer
