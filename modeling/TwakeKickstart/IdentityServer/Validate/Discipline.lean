import TwakeKickstart.IdentityServer.Interleaving
import TwakeKickstart.IdentityServer.Validate.Email

namespace TwakeKickstart.IdentityServer

open Library Utils

/-! Any number of `requestToken` and `submitToken` calls, interleaved step by
step: which of them can validate a session. -/

inductive ValidationCall where
  | requestToken (req : Request) (sid token : String)
  | submitToken (req : Request)

namespace ValidationCall

def procedure (env : Environment) (conf : Config) :
    ValidationCall → Procedure
  | requestToken req sid token => RequestToken env conf req sid token
  | submitToken req => SubmitToken env req

/-- The session ID that the call draws. -/
def drawn : ValidationCall → Option String
  | requestToken _ sid _ => some sid
  | submitToken _ => none

end ValidationCall

abbrev ValidationPool := Pool Effect Effect.Result World ValidationCall

abbrev ValidationEvent := PoolEvent ValidationCall Choice

def validationStep (env : Environment) (conf : Config) :
    ValidationPool → ValidationEvent → Option ValidationPool :=
  Pool.step (ValidationCall.procedure env conf) (handle env)

/-- The parameters that `submitToken` hands to `realMethod`. -/
def submitted (req : Request) : JsValue :=
  if req.method = "GET" then .obj req.query else req.body.getD .undefined

def submittedToken (req : Request) : JsValue :=
  field (submitted req) "token"

/-- The call generated this token for the session of the row, and mailed it to
the address of the row. -/
def Generated (driver : Driver) (mails : List Mail) (token : String)
    (row : Mapping) : ValidationCall → Prop
  | .requestToken req sid drawnToken =>
      drawnToken = token ∧ row.sessionId = sid ∧
      ∃ content, req.body = some content ∧
        row.address = driver.text (RequestTokenArgs.of content).email ∧
        row.clientSecret =
          driver.text (RequestTokenArgs.of content).clientSecret ∧
        (RequestTokenArgs.of content).mail sid token ∈ mails
  | .submitToken _ => False

/-- The call submits the token that was generated for the session of the row
and mailed to its address. -/
def ValidatedBy (driver : Driver) (calls : List ValidationCall)
    (mails : List Mail) (row : Mapping) : ValidationCall → Prop
  | .submitToken req =>
      ∃ token ∈ presentedTexts (submittedToken req),
        ∃ request ∈ calls, Generated driver mails token row request
  | .requestToken _ _ _ => False

/-! The runs.  Session IDs are random strings: none is drawn twice. -/

def fresh (pool : ValidationPool) (call : ValidationCall) : Bool :=
  call.drawn.all fun sid => pool.calls.all (·.drawn != some sid)

def namesSession (prms : JsValue) (row : OneTimeToken) : Bool :=
  row.data.any fun data =>
    (field data "sid").strictEq (field prms "sid") &&
      (field data "client_secret").strictEq (field prms "client_secret")

/-- The empty token selects every row, and the first one is for the session
that is submitted. -/
def selectsForeign (req : Request) (rows : List OneTimeToken) : Bool :=
  (submittedToken req).text? == some "" &&
    rows.head?.any (namesSession (submitted req))

def keptFilter : ValidationCall → Effect → World → Bool
  | .submitToken req, .db (.get .oneTimeTokens _ _), world =>
      !selectsForeign req (world.store .oneTimeTokens)
  | _, _, _ => true

def drawsFresh (pool : ValidationPool) : ValidationEvent → Bool
  | .start call => fresh pool call
  | .act _ _ => true

def keepsFilter (pool : ValidationPool) : ValidationEvent → Bool
  | .start _ => true
  | .act index _ =>
      match pool.threads[index]? with
      | some (call, .perform effect _) => keptFilter call effect pool.world
      | _ => true

def Fresh (pool : ValidationPool) (event : ValidationEvent) : Prop :=
  drawsFresh pool event = true

def Orderly (pool : ValidationPool) (event : ValidationEvent) : Prop :=
  Fresh pool event ∧ keepsFilter pool event = true

/-- Every validated session was validated by a call that submits the mailed
token, and so is every session that one more step validates. -/
structure SoundValidation (env : Environment) (conf : Config)
    (allowed : ValidationPool → ValidationEvent → Prop)
    (pool : ValidationPool) : Prop where
  validated : ∀ row ∈ pool.world.store .mappings, row.valid = 1 →
    ∃ call ∈ pool.calls,
      ValidatedBy env.driver pool.calls pool.world.mails row call
  validates : ∀ event after, allowed pool event →
    validationStep env conf pool event = some after →
    ∀ row ∈ after.world.store .mappings, row.valid = 1 →
    row ∉ pool.world.store .mappings →
    ∃ index choice call program, event = .act index choice ∧
      pool.threads[index]? = some (call, program) ∧
      ValidatedBy env.driver pool.calls pool.world.mails row call

/-! The discipline that the calls keep to. -/

def TokenOf (row : OneTimeToken) : ValidationCall → Prop
  | .requestToken _ sid token =>
      row.id = token ∧
      ∃ data, row.data = some data ∧ data.property "sid" = some (.str sid)
  | .submitToken _ => False

structure Recorded (driver : Driver) (calls : List ValidationCall)
    (world : World) : Prop where
  tokens : ∀ row ∈ world.store .oneTimeTokens,
    ∃ request ∈ calls, TokenOf row request
  mappings : ∀ row ∈ world.store .mappings,
    ∃ request ∈ calls, ∃ token, Generated driver world.mails token row request
  validated : ∀ row ∈ world.store .mappings, row.valid = 1 →
    ∃ call ∈ calls, ValidatedBy driver calls world.mails row call
  drawn : ∀ first ∈ calls, ∀ second ∈ calls, ∀ sid,
    first.drawn = some sid → second.drawn = some sid → first = second

theorem Generated.mono {driver : Driver} {mails mails' : List Mail}
    {token : String} {row : Mapping} {call : ValidationCall}
    (generated : Generated driver mails token row call)
    (more : mails ⊆ mails') : Generated driver mails' token row call := by
  cases call with
  | requestToken req sid drawnToken =>
      obtain ⟨htoken, hsid, content, hbody, haddress, hsecret, hmail⟩ :=
        generated
      exact ⟨htoken, hsid, content, hbody, haddress, hsecret, more hmail⟩
  | submitToken req => exact generated

theorem ValidatedBy.mono {driver : Driver} {calls calls' : List ValidationCall}
    {mails mails' : List Mail} {row : Mapping} {call : ValidationCall}
    (validated : ValidatedBy driver calls mails row call)
    (moreCalls : calls ⊆ calls') (moreMails : mails ⊆ mails') :
    ValidatedBy driver calls' mails' row call := by
  cases call with
  | requestToken req sid token => exact validated
  | submitToken req =>
      obtain ⟨token, htoken, request, hrequest, hgenerated⟩ := validated
      exact ⟨token, htoken, request, moreCalls hrequest,
        hgenerated.mono moreMails⟩

theorem Recorded.shrink {driver : Driver} {calls : List ValidationCall}
    {world after : World} (recorded : Recorded driver calls world)
    (tokens : after.store .oneTimeTokens ⊆ world.store .oneTimeTokens)
    (mappings : after.store .mappings ⊆ world.store .mappings)
    (mails : world.mails ⊆ after.mails) : Recorded driver calls after where
  tokens := fun row hrow => recorded.tokens row (tokens hrow)
  mappings := by
    intro row hrow
    obtain ⟨request, hrequest, token, hgenerated⟩ :=
      recorded.mappings row (mappings hrow)
    exact ⟨request, hrequest, token, hgenerated.mono mails⟩
  validated := by
    intro row hrow hvalid
    obtain ⟨call, hcall, hvalidated⟩ :=
      recorded.validated row (mappings hrow) hvalid
    exact ⟨call, hcall, hvalidated.mono (fun _ h => h) mails⟩
  drawn := recorded.drawn

theorem Recorded.sameCalls {driver : Driver}
    {calls calls' : List ValidationCall} {world : World}
    (sub : calls ⊆ calls') (sup : calls' ⊆ calls)
    (recorded : Recorded driver calls world) :
    Recorded driver calls' world where
  tokens := by
    intro row hrow
    obtain ⟨request, hrequest, hof⟩ := recorded.tokens row hrow
    exact ⟨request, sub hrequest, hof⟩
  mappings := by
    intro row hrow
    obtain ⟨request, hrequest, hrest⟩ := recorded.mappings row hrow
    exact ⟨request, sub hrequest, hrest⟩
  validated := by
    intro row hrow hvalid
    obtain ⟨call, hcall, hvalidated⟩ := recorded.validated row hrow hvalid
    exact ⟨call, sub hcall, hvalidated.mono sub (fun _ h => h)⟩
  drawn := fun first hfirst second hsecond =>
    recorded.drawn first (sup hfirst) second (sup hsecond)

def validation (driver : Driver) :
    Discipline Effect World ValidationCall Choice where
  inv := Recorded driver
  keeps := fun world after => world.mails ⊆ after.mails
  permits := fun call effect _ world => keptFilter call effect world = true
  guarantee := fun call calls world after =>
    ∀ row ∈ after.store .mappings, row.valid = 1 →
      row ∈ world.store .mappings ∨
      ValidatedBy driver calls world.mails row call
  refl := fun _ _ h => h
  trans := fun first second _ h => second (first h)
  sameCalls := fun sub sup recorded => recorded.sameCalls sub sup

/-- An effect that adds no row to the two tables. -/
def Quiet (env : Environment) (effect : Effect) : Prop :=
  ∀ choice world,
    (handle env choice effect world).2.store .oneTimeTokens ⊆
      world.store .oneTimeTokens ∧
    (handle env choice effect world).2.store .mappings ⊆
      world.store .mappings ∧
    world.mails ⊆ (handle env choice effect world).2.mails

variable {env : Environment} {conf : Config} {call : ValidationCall}
variable {calls : List ValidationCall} {world : World}

theorem Quiet.harmless {effect : Effect} (quiet : Quiet env effect)
    (call : ValidationCall) :
    (validation env.driver).Harmless (handle env) call effect := by
  intro calls world choice hinv
  obtain ⟨htokens, hmappings, hmails⟩ := quiet choice world
  refine ⟨Recorded.shrink hinv htokens hmappings hmails, hmails, ?_⟩
  intro row hrow _
  exact .inl (hmappings hrow)

theorem quiet_get (table : Collections) (fields : List String)
    (filter : Filter) : Quiet env (.db (.get table fields filter)) := by
  intro choice world
  rw [handle_get]
  exact ⟨fun _ h => h, fun _ h => h, fun _ h => h⟩

theorem quiet_epoch : Quiet env .epoch :=
  fun _ _ => ⟨fun _ h => h, fun _ h => h, fun _ h => h⟩

theorem quiet_send (status : Nat) (body : JsValue) :
    Quiet env (.send status body) :=
  fun _ _ => ⟨fun _ h => h, fun _ h => h, fun _ h => h⟩

theorem quiet_redirect (location : String) : Quiet env (.redirect location) :=
  fun _ _ => ⟨fun _ h => h, fun _ h => h, fun _ h => h⟩

theorem quiet_sendMail (mail : Mail) : Quiet env (.sendMail mail) :=
  fun _ _ => ⟨fun _ h => h, fun _ h => h, List.subset_append_left _ _⟩

theorem update_filter_subset (store : Store) (table other : Collections)
    (kept : Row table → Bool) :
    Function.update store table ((store table).filter kept) other ⊆
      store other := by
  by_cases h : other = table
  · subst h
    rw [Function.update_self]
    exact fun _ h => (List.mem_filter.mp h).1
  · rw [Function.update_of_ne h]
    exact fun _ h => h

theorem quiet_deleteEqual (table : Collections) (column : String)
    (value : JsValue) : Quiet env (.db (.deleteEqual table column value)) := by
  intro choice world
  unfold handle execute
  split
  · exact ⟨fun _ h => h, fun _ h => h, fun _ h => h⟩
  · dsimp only
    split
    · exact ⟨fun _ h => h, fun _ h => h, fun _ h => h⟩
    · exact ⟨update_filter_subset _ _ _ _, update_filter_subset _ _ _ _,
        fun _ h => h⟩

theorem quiet_deleteEqualAnd (table : Collections)
    (condition1 condition2 : String × JsValue) :
    Quiet env (.db (.deleteEqualAnd table condition1 condition2)) := by
  intro choice world
  unfold handle execute
  split
  · exact ⟨fun _ h => h, fun _ h => h, fun _ h => h⟩
  · dsimp only
    split
    · exact ⟨fun _ h => h, fun _ h => h, fun _ h => h⟩
    · exact ⟨update_filter_subset _ _ _ _, update_filter_subset _ _ _ _,
        fun _ h => h⟩

theorem answers_validation (env : Environment) (call : ValidationCall) :
    Answers (validation env.driver) env call where
  get := fun table fields filter => (quiet_get table fields filter).harmless call
  epoch := quiet_epoch.harmless call
  send := fun status body => (quiet_send status body).harmless call

end TwakeKickstart.IdentityServer
