import TwakeKickstart.IdentityServer.Authenticate

namespace TwakeKickstart.IdentityServer

open Library Utils

/-! Acceptance of policies: `POST /terms`. -/

/-- `translations` are the entries of a policy that are not plain strings:
a language with its URL. -/
structure Policy where
  version : String
  translations : List (String × String)

abbrev Policies := List (String × Policy)

abbrev UrlsFromPolicies := List (String × List String)

def getUrlsFromPolicies (policies : Policies) : UrlsFromPolicies :=
  policies.filterMap fun (policyName, policy) =>
    if policy.translations.isEmpty then none
    else
      some (policyName ++ " " ++ policy.version,
        policy.translations.map Prod.snd)

-- `none` when `user_accepts` has no `forEach`.
def acceptedUrls : JsValue → Option (List JsValue)
  | .str url => some [.str url]
  | .arr urls => some urls
  | _ => none

def donePolicies (urlsFromPolicies : UrlsFromPolicies)
    (userAccepts : JsValue) : Option (List String) :=
  if urlsFromPolicies.isEmpty then some []
  else
    (acceptedUrls userAccepts).map fun urls =>
      urlsFromPolicies.flatMap fun (policyName, known) =>
        (urls.filter fun url =>
          known.any fun other => (JsValue.str other).strictEq url).map
            fun _ => policyName

/-- The second extraction of the token.  Here the query string goes first. -/
def attributionToken (req : Request) : JsValue :=
  if !req.query.isEmpty then
    (req.query.lookup "access_token").getD .undefined
  else
    match req.authorization with
    | some header =>
        ((header.toList.splitOn ' ')[1]?).elim .undefined
          fun token => .str (String.ofList token)
    | none => .str ""

def acceptPolicy (userId : JsValue) (policyName : String) : Procedure :=
  .perform (.db (.updateAnd .userPolicies ({ · with accepted := 1 })
    ("user_id", userId) ("policy_name", .str policyName))) fun
    | some _ => .done
    | none => reply 500 (errMsg .unknown)

def onUserData (done : List String) : Option (List TokenRow) → Procedure
  | some (row :: _) =>
      match row.data.bind (·.property "sub") with
      | none => reply 500 (errMsg .unknown)
      | some userId =>
          .forkAll (done.map (acceptPolicy userId)) (reply 200 (.obj []))
  | _ => reply 500 (errMsg .unknown)

def onAccepts (urlsFromPolicies : UrlsFromPolicies) (req : Request)
    (content : JsValue) : Procedure :=
  match donePolicies urlsFromPolicies (field content "user_accepts") with
  | none => .done
  | some [] =>
      reply 400 (errMsg .unrecognized (.str "Unknown policy"))
  | some done =>
      .perform (.db (.get .accessTokens ["data"]
        [("id", attributionToken req)])) (onUserData done)

def termsSchema : List (String × Bool) := [("user_accepts", true)]

def PostTerms (policies : Policies) (req : Request) : Procedure :=
  Authenticate (fun _ _ =>
    jsonContent req fun content =>
      validateParameters termsSchema content
        (onAccepts (getUrlsFromPolicies policies) req content)) false req

/-! What the updates of one request do to the table. -/

def acceptRows (driver : Driver) (userId : JsValue) (done : List String)
    (row : PolicyRow) : PolicyRow :=
  if equals driver .userPolicies ("user_id", userId) row = true ∧
      row.policyName ∈ done then { row with accepted := 1 }
  else row

@[simp] theorem acceptRows_userId (driver : Driver) (userId : JsValue)
    (done : List String) (row : PolicyRow) :
    (acceptRows driver userId done row).userId = row.userId := by
  unfold acceptRows
  split
  · rfl
  · rfl

theorem acceptRows_eq_self_iff (driver : Driver) (userId : JsValue)
    (done : List String) (row : PolicyRow) :
    acceptRows driver userId done row = row ↔
      (equals driver .userPolicies ("user_id", userId) row = true →
        row.policyName ∈ done → row.accepted = 1) := by
  obtain ⟨user, policyName, accepted⟩ := row
  unfold acceptRows
  split
  · rename_i hselected
    simp only [PolicyRow.mk.injEq, true_and, hselected, true_implies]
    exact eq_comm
  · rename_i hselected
    simp only [true_iff]
    intro huser hdone
    exact absurd ⟨huser, hdone⟩ hselected

theorem equals_policy (driver : Driver) (policyName : String)
    (row : PolicyRow) :
    equals driver .userPolicies ("policy_name", .str policyName) row = true ↔
      row.policyName = policyName := by
  simp [equals, cell]

theorem equals_user_acceptRows (driver : Driver) (userId : JsValue)
    (done : List String) (row : PolicyRow) :
    equals driver .userPolicies ("user_id", userId)
        (acceptRows driver userId done row) =
      equals driver .userPolicies ("user_id", userId) row := by
  simp [equals, cell]

theorem serve_acceptPolicy (env : Environment) (now : Nat) (userId : JsValue)
    (policyName : String) (world : World) :
    serve env now (acceptPolicy userId policyName) world =
      world.setTable .userPolicies ((world.store .userPolicies).map
        (acceptRows env.driver userId [policyName])) := by
  simp only [acceptPolicy, serve_db, execute, serve_done, World.setTable]
  congr 2
  apply List.map_congr_left
  intro row _
  simp only [acceptRows, Bool.and_eq_true, equals_policy, List.mem_singleton]

theorem acceptRows_cons (driver : Driver) (userId : JsValue)
    (policyName : String) (done : List String) (row : PolicyRow) :
    acceptRows driver userId done (acceptRows driver userId [policyName] row) =
      acceptRows driver userId (policyName :: done) row := by
  have huser := equals_user_acceptRows driver userId [policyName] row
  rw [acceptRows, huser]
  simp only [acceptRows, List.mem_cons]
  by_cases hselected :
      equals driver .userPolicies ("user_id", userId) row = true
  · by_cases hname : row.policyName = policyName
    · simp [hselected, hname]
    · simp [hselected, hname]
  · simp [hselected]

@[simp] theorem acceptRows_nil (driver : Driver) (userId : JsValue) :
    acceptRows driver userId [] = id := by
  funext row
  simp [acceptRows]

theorem foldl_acceptPolicy (env : Environment) (now : Nat) (userId : JsValue)
    (done : List String) (world : World) :
    (done.map (acceptPolicy userId)).foldl (fun w child =>
        Program.run (handle env ⟨false, now⟩) child w) world =
      world.setTable .userPolicies ((world.store .userPolicies).map
        (acceptRows env.driver userId done)) := by
  induction done generalizing world with
  | nil => simp
  | cons policyName done ih =>
      have hstep := serve_acceptPolicy env now userId policyName world
      unfold serve at hstep
      rw [List.map_cons, List.foldl_cons, hstep, ih, World.setTable_setTable,
        World.setTable_same, List.map_map]
      congr 2
      funext row
      exact acceptRows_cons env.driver userId policyName done row

/-! Whose policies a request changes. -/

/-- The user that the second extraction finds in the token table. -/
def attributed (store : Store) (req : Request) : Option JsValue :=
  match selectTokens (store .accessTokens) (attributionToken req) with
  | some (row :: _) => row.data.bind (·.property "sub")
  | _ => none

/-- The policies that the body accepts, when the body is taken. -/
def namedPolicies (policies : Policies) (req : Request) : List String :=
  match acceptedBody termsSchema req with
  | none => []
  | some content =>
      (donePolicies (getUrlsFromPolicies policies)
        (field content "user_accepts")).getD []

structure OnlyPoliciesOf (user : String) (before after : Store) : Prop where
  others : (after .userPolicies).filter (·.userId != user) =
    (before .userPolicies).filter (·.userId != user)
  elsewhere : ∀ table, table ≠ .userPolicies → after table = before table

/-- Every row that the request would newly accept is the caller's. -/
def AttributesToCaller (driver : Driver) (policies : Policies)
    (store : Store) (req : Request) (user : String) : Prop :=
  ∀ userId, attributed store req = some userId →
    ∀ row ∈ store .userPolicies,
      equals driver .userPolicies ("user_id", userId) row = true →
      row.policyName ∈ namedPolicies policies req →
      row.userId = user ∨ row.accepted = 1

theorem store_onUserData (env : Environment) (now : Nat) (world : World)
    (done : List String) (rows : Option (List TokenRow)) :
    (serve env now (onUserData done rows) world).store =
      match rows with
      | some (row :: _) =>
          match row.data.bind (·.property "sub") with
          | none => world.store
          | some userId =>
              (world.setTable .userPolicies ((world.store .userPolicies).map
                (acceptRows env.driver userId done))).store
      | _ => world.store := by
  unfold onUserData
  split
  · rename_i row rest
    cases row.data.bind (·.property "sub") with
    | none => rfl
    | some userId =>
        simp only [serve, Program.run_forkAll, foldl_acceptPolicy]
        rfl
  · rfl

theorem store_onAccepts (env : Environment) (now : Nat) (world : World)
    (urls : UrlsFromPolicies) (req : Request) (content : JsValue) :
    (serve env now (onAccepts urls req content) world).store =
      match attributed world.store req with
      | none => world.store
      | some userId =>
          (world.setTable .userPolicies ((world.store .userPolicies).map
            (acceptRows env.driver userId
              ((donePolicies urls (field content "user_accepts")).getD
                [])))).store := by
  have hnothing : ∀ userId, (world.setTable .userPolicies
      ((world.store .userPolicies).map
        (acceptRows env.driver userId []))).store = world.store := by
    intro userId
    simp
  unfold onAccepts
  split
  · rename_i hdone
    rw [hdone]
    cases attributed world.store req with
    | none => rfl
    | some userId => exact (hnothing userId).symm
  · rename_i hdone
    rw [hdone]
    cases attributed world.store req with
    | none => rfl
    | some userId => exact (hnothing userId).symm
  · rename_i done _ hdone
    rw [serve_get, store_onUserData, hdone]
    change (match selectTokens (world.store .accessTokens)
      (attributionToken req) with
        | some (row :: _) => _
        | _ => _) = _
    unfold attributed
    cases selectTokens (world.store .accessTokens) (attributionToken req) with
    | none => rfl
    | some rows =>
        cases rows with
        | nil => rfl
        | cons row rest => rfl

theorem store_PostTerms {env : Environment} {now : Nat} {world : World}
    {policies : Policies} {req : Request} {user : String}
    (caller : AuthenticatedAs world.store false req user) :
    (serve env now (PostTerms policies req) world).store =
      match attributed world.store req with
      | none => world.store
      | some userId =>
          (world.setTable .userPolicies ((world.store .userPolicies).map
            (acceptRows env.driver userId
              (namedPolicies policies req)))).store := by
  obtain ⟨data, hidentify, _⟩ := caller
  rw [PostTerms, Authenticate, serve_authenticateToken, hidentify]
  simp only [settle, namedPolicies]
  rcases serve_body env now world termsSchema req
      (onAccepts (getUrlsFromPolicies policies) req) with
    ⟨content, hbody, hserve⟩ | ⟨hbody, sent, _, hserve⟩
  · rw [hserve, hbody]
    exact store_onAccepts env now world _ req content
  · rw [hserve, hbody]
    cases attributed world.store req with
    | none => rfl
    | some userId => simp

theorem onlyPoliciesOf_refl (user : String) (store : Store) :
    OnlyPoliciesOf user store store :=
  ⟨rfl, fun _ _ => rfl⟩

theorem onlyPoliciesOf_accept_iff (driver : Driver) (userId : JsValue)
    (done : List String) (user : String) (world : World) :
    OnlyPoliciesOf user world.store (world.setTable .userPolicies
        ((world.store .userPolicies).map
          (acceptRows driver userId done))).store ↔
      ∀ row ∈ world.store .userPolicies,
        equals driver .userPolicies ("user_id", userId) row = true →
        row.policyName ∈ done → row.userId = user ∨ row.accepted = 1 := by
  have hfilter : ((world.store .userPolicies).map
      (acceptRows driver userId done)).filter (·.userId != user) =
      ((world.store .userPolicies).filter (·.userId != user)).map
        (acceptRows driver userId done) := by
    rw [List.filter_map]
    congr 2
    funext row
    simp
  have hself : ∀ rows : List PolicyRow,
      rows.map (acceptRows driver userId done) = rows ↔
        ∀ row ∈ rows, acceptRows driver userId done row = row := by
    intro rows
    constructor
    · intro hmap
      apply List.map_inj_left.mp
      rw [hmap, List.map_id']
    · intro heach
      rw [List.map_congr_left heach, List.map_id']
  constructor
  · intro honly row hrow hequals hdone
    have hothers := honly.others
    rw [World.setTable_same, hfilter, hself] at hothers
    by_cases huser : row.userId = user
    · exact .inl huser
    · have hunchanged := hothers row
        (List.mem_filter.mpr ⟨hrow, by simpa using huser⟩)
      exact .inr ((acceptRows_eq_self_iff driver userId done row).mp
        hunchanged hequals hdone)
  · intro hrows
    refine ⟨?_, ?_⟩
    · rw [World.setTable_same, hfilter, hself]
      intro row hrow
      obtain ⟨hmem, hother⟩ := List.mem_filter.mp hrow
      apply (acceptRows_eq_self_iff driver userId done row).mpr
      intro hequals hdone
      rcases hrows row hmem hequals hdone with huser | haccepted
      · simp [huser] at hother
      · exact haccepted
    · intro table htable
      exact World.setTable_other world .userPolicies _ htable

/-- `POST /terms` stays with the caller's rows exactly when its second reading
of the token does not name another user who still has those policies to
accept. -/
theorem postTerms_onlyCaller_iff (env : Environment) (now : Nat)
    (world : World) (policies : Policies) (req : Request) :
    (∀ user, AuthenticatedAs world.store false req user →
      OnlyPoliciesOf user world.store
        (serve env now (PostTerms policies req) world).store) ↔
    ∀ user, AuthenticatedAs world.store false req user →
      AttributesToCaller env.driver policies world.store req user := by
  apply forall_congr'
  intro user
  apply imp_congr_right
  intro caller
  rw [store_PostTerms caller]
  unfold AttributesToCaller
  cases attributed world.store req with
  | none => simp [onlyPoliciesOf_refl]
  | some userId =>
      simp only [Option.some.injEq, forall_eq']
      exact onlyPoliciesOf_accept_iff env.driver userId
        (namedPolicies policies req) user world

/-! Bob authenticates by the header; with any query parameter the policy of the
owner of the first token row is accepted instead of his. -/

def bobRequest : Request where
  authorization := some "Bearer b0b"
  query := [("lang", .str "en")]
  body := some (.obj
    [("user_accepts", .arr [.str "https://example.org/privacy"])])

def samplePolicies : Policies :=
  [("privacy_policy",
    { version := "2.0"
      translations := [("en", "https://example.org/privacy")] })]

def termsStore : Store :=
  Function.update (Function.update emptyStore .accessTokens
    [{ id := "a11ce", data := some (.obj [("sub", .str "@alice:example.org")]) },
      { id := "b0b", data := some (.obj [("sub", .str "@bob:example.org")]) }])
    .userPolicies
    [⟨"@alice:example.org", "privacy_policy 2.0", 0⟩,
      ⟨"@bob:example.org", "privacy_policy 2.0", 0⟩]

theorem postTerms_changes_alice :
    ¬ ∀ user, AuthenticatedAs termsStore false bobRequest user →
      OnlyPoliciesOf user termsStore
        (serve (.offline id) 0 (PostTerms samplePolicies bobRequest)
          { store := termsStore }).store := by
  intro honly
  have hbob := honly "@bob:example.org" ⟨_, rfl, rfl⟩
  exact absurd hbob.others (by decide)

end TwakeKickstart.IdentityServer
