import TwakeKickstart.IdentityServer.Validate.Discipline

namespace TwakeKickstart.IdentityServer

open Library Utils

/-! Both calls keep to the discipline of validation, and what follows for every
run. -/

variable {env : Environment} {conf : Config} {call : ValidationCall}
variable {calls : List ValidationCall} {world : World}

/-- The procedure of a call, in a world where the calls so far are these. -/
abbrev Valid (env : Environment) (call : ValidationCall)
    (procedure : Procedure) (calls : List ValidationCall) (world : World) :
    Prop :=
  (validation env.driver).Safe (handle env) call procedure calls world

theorem Recorded.insertToken {driver : Driver} {row : OneTimeToken}
    {req : Request} {sid : String} {email clientSecret nextLink : JsValue}
    (recorded : Recorded driver calls world)
    (made : .requestToken req sid row.id ∈ calls)
    (content : row.data = some (tokenData sid email clientSecret nextLink)) :
    Recorded driver calls
      (world.setTable .oneTimeTokens
        (world.store .oneTimeTokens ++ [row])) where
  tokens := by
    intro other hother
    rw [World.setTable_same] at hother
    rcases List.mem_append.mp hother with hold | hnew
    · exact recorded.tokens other hold
    · rw [List.mem_singleton.mp hnew]
      exact ⟨_, made, rfl, _, content, by simp [tokenData, JsValue.property]⟩
  mappings := by
    intro other hother
    rw [World.setTable_other _ _ _ (by decide)] at hother
    exact recorded.mappings other hother
  validated := by
    intro other hother
    rw [World.setTable_other _ _ _ (by decide)] at hother
    exact recorded.validated other hother
  drawn := recorded.drawn

theorem Recorded.insertMapping {driver : Driver} {req : Request}
    {sid token : String} {content : JsValue}
    (recorded : Recorded driver calls world)
    (made : .requestToken req sid token ∈ calls)
    (body : req.body = some content)
    (mailed : (RequestTokenArgs.of content).mail sid token ∈ world.mails) :
    Recorded driver calls
      (world.setTable .mappings (world.store .mappings ++
        [(RequestTokenArgs.of content).mapping driver sid])) where
  tokens := by
    intro other hother
    rw [World.setTable_other _ _ _ (by decide)] at hother
    exact recorded.tokens other hother
  mappings := by
    intro other hother
    rw [World.setTable_same] at hother
    rcases List.mem_append.mp hother with hold | hnew
    · exact recorded.mappings other hold
    · rw [List.mem_singleton.mp hnew]
      exact ⟨_, made, token, rfl, rfl, content, body, rfl, rfl, mailed⟩
  validated := by
    intro other hother hvalid
    rw [World.setTable_same] at hother
    rcases List.mem_append.mp hother with hold | hnew
    · exact recorded.validated other hold hvalid
    · rw [List.mem_singleton.mp hnew] at hvalid
      exact absurd hvalid (by simp [RequestTokenArgs.mapping])
  drawn := recorded.drawn

theorem handle_insert (env : Environment) (choice : Choice)
    (table : Collections) (row : Row table) (world : World) :
    (handle env choice (.db (.insert table row)) world).2 = world ∨
    (handle env choice (.db (.insert table row)) world).2 =
      world.setTable table (world.store table ++ [row]) := by
  unfold handle execute
  split
  · exact .inl rfl
  · dsimp only
    split
    · exact .inl rfl
    · exact .inr rfl

/-- An insertion is safe when the new row keeps the record and validates
nothing. -/
theorem valid_insert {table : Collections} {row : Row table}
    {next : Option (List (Row table)) → Procedure}
    (recorded : ∀ calls' world', calls ⊆ calls' →
      world.mails ⊆ world'.mails → Recorded env.driver calls' world' →
      Recorded env.driver calls'
        (world'.setTable table (world'.store table ++ [row])))
    (validates : ∀ (world' : World), ∀ other ∈
        (world'.setTable table (world'.store table ++ [row])).store .mappings,
      other.valid = 1 → other ∈ world'.store .mappings)
    (safe : ∀ result, Valid env call (next result) calls world) :
    Valid env call (.perform (.db (.insert table row)) next) calls world := by
  intro calls' world' more kept hinv choice _
  rcases handle_insert env choice table row world' with hsame | hnew
  · rw [hsame]
    exact ⟨hinv, fun _ h => h, fun other hother _ => .inl hother,
      (safe _).mono more kept⟩
  · rw [hnew]
    exact ⟨recorded calls' world' more kept hinv, fun _ h => h,
      fun other hother hvalid => .inl (validates world' other hother hvalid),
      (safe _).mono more kept⟩

theorem valid_insertToken {req : Request} {row : OneTimeToken}
    {sid : String} {email clientSecret nextLink : JsValue}
    (made : .requestToken req sid row.id ∈ calls)
    (content : row.data = some (tokenData sid email clientSecret nextLink))
    {next : Option (List OneTimeToken) → Procedure}
    (safe : ∀ result, Valid env call (next result) calls world) :
    Valid env call (.perform (.db (.insert .oneTimeTokens row)) next) calls
      world := by
  refine @valid_insert _ _ _ _ .oneTimeTokens _ _ ?_ ?_ safe
  · intro calls' world' more _ hrecorded
    exact hrecorded.insertToken (more made) content
  · intro world' other hother _
    rw [World.setTable_other _ _ _ (by decide)] at hother
    exact hother

theorem valid_insertMapping {req : Request} {sid token : String}
    {content : JsValue}
    (made : .requestToken req sid token ∈ calls)
    (body : req.body = some content)
    (mailed : (RequestTokenArgs.of content).mail sid token ∈ world.mails)
    {next : Option (List Mapping) → Procedure}
    (safe : ∀ result, Valid env call (next result) calls world) :
    Valid env call (.perform (.db (.insert .mappings
      ((RequestTokenArgs.of content).mapping env.driver sid))) next) calls
      world := by
  refine @valid_insert _ _ _ _ .mappings _ _ ?_ ?_ safe
  · intro calls' world' more kept hrecorded
    exact hrecorded.insertMapping (more made) body (kept mailed)
  · intro world' other hother hvalid
    rw [World.setTable_same] at hother
    rcases List.mem_append.mp hother with hold | hnew
    · exact hold
    · rw [List.mem_singleton.mp hnew] at hvalid
      exact absurd hvalid (by simp [RequestTokenArgs.mapping])

/-! `requestToken` adds a token and a mapping, and validates nothing. -/

theorem valid_reply (status : Nat) (body : JsValue) :
    Valid env call (reply status body) calls world :=
  (answers_validation env call).reply status body

theorem valid_fillTable {req : Request} {sid token : String}
    {content : JsValue} (made : .requestToken req sid token ∈ calls)
    (body : req.body = some content) :
    Valid env call
      (fillTable env conf (RequestTokenArgs.of content) sid token) calls
      world := by
  unfold fillTable createOneTimeToken
  apply Discipline.Safe.perform_harmless (quiet_epoch.harmless call)
  intro now
  apply valid_insertToken made rfl
  intro inserted
  cases inserted with
  | none => trivial
  | some _ =>
      intro calls' world' more kept hinv choice _
      obtain ⟨hafter, hmails, hguarantee⟩ :=
        (quiet_sendMail _).harmless call calls' world' choice hinv
      refine ⟨hafter, hmails, hguarantee, ?_⟩
      apply valid_insertMapping (more made) body
        (List.mem_append_right _ (List.mem_singleton_self _))
      intro stored
      cases stored with
      | none => exact valid_reply 400 _
      | some _ => exact valid_reply 200 _

theorem valid_onPreviousAttempt {req : Request} {sid token : String}
    {content : JsValue} (made : .requestToken req sid token ∈ calls)
    (body : req.body = some content) (rows : Option (List Mapping)) :
    Valid env call
      (onPreviousAttempt env conf (RequestTokenArgs.of content) sid token rows)
      calls world := by
  unfold onPreviousAttempt
  split
  · exact valid_reply 400 _
  · exact valid_fillTable made body
  · split
    · exact valid_reply 200 _
    · apply Discipline.Safe.perform_harmless
        ((quiet_deleteEqualAnd _ _ _).harmless call)
      intro deleted
      cases deleted with
      | none => exact valid_reply 400 _
      | some _ => exact valid_fillTable made body

theorem valid_RequestToken {req : Request} {sid token : String}
    (made : .requestToken req sid token ∈ calls) :
    Valid env call (RequestToken env conf req sid token) calls world := by
  have answers := answers_validation env call
  apply answers.Authenticate
  intro _ _
  apply answers.jsonContent
  intro content hbody
  apply answers.validateParameters
  apply answers.refuseUnless
  apply answers.refuseUnless
  split
  · exact valid_reply 400 _
  · apply Discipline.Safe.perform_harmless (answers.get _ _ _)
    intro rows
    exact valid_onPreviousAttempt made hbody rows

/-! `submitToken` validates the session of the token that it found. -/

/-- The content that `verifyToken` gave for the submitted token: the session
ID was drawn by the call that generated one of the tokens submitted. -/
def Redeems (req : Request) (data : JsValue) (calls : List ValidationCall) :
    Prop :=
  ∃ token ∈ presentedTexts (submittedToken req), ∃ issuer sid,
    .requestToken issuer sid token ∈ calls ∧
    data.property "sid" = some (.str sid)

theorem Redeems.mono {req : Request} {data : JsValue}
    {calls calls' : List ValidationCall} (redeems : Redeems req data calls)
    (more : calls ⊆ calls') : Redeems req data calls' := by
  obtain ⟨token, htoken, issuer, sid, hissuer, hsid⟩ := redeems
  exact ⟨token, htoken, issuer, sid, more hissuer, hsid⟩

/-- The sessions that the submitted token may validate are those it was
generated for. -/
theorem Redeems.validatedBy {driver : Driver} {req : Request} {data : JsValue}
    {row : Mapping} (recorded : Recorded driver calls world)
    (redeems : Redeems req data calls) (stored : row ∈ world.store .mappings)
    (selected : equals driver .mappings ("session_id", field data "sid") row =
      true) :
    ValidatedBy driver calls world.mails row (.submitToken req) := by
  obtain ⟨token, htoken, issuer, sid, hissuer, hsid⟩ := redeems
  have hrow : row.sessionId = sid := by
    simpa [equals, cell, field, hsid] using selected
  obtain ⟨request, hrequest, made, hgenerated⟩ := recorded.mappings row stored
  cases request with
  | submitToken _ => exact hgenerated.elim
  | requestToken other otherSid otherToken =>
      -- one session ID, hence one call
      have hsame := recorded.drawn _ hrequest _ hissuer sid
        (by rw [ValidationCall.drawn, ← hgenerated.2.1, hrow]) rfl
      cases hsame
      have htokens : token = made := hgenerated.1
      subst htokens
      exact ⟨_, htoken, _, hissuer, hgenerated⟩

theorem mem_updateRows {table : Collections} {rows : List (Row table)}
    {selected : Row table → Bool} {values : Row table → Row table}
    {row : Row table} (h : row ∈ updateRows rows selected values) :
    row ∈ rows ∨ ∃ old ∈ rows, selected old = true ∧ row = values old := by
  obtain ⟨old, hold, hrow⟩ := List.mem_map.mp h
  cases hselected : selected old with
  | true =>
      rw [if_pos hselected] at hrow
      exact .inr ⟨old, hold, hselected, hrow.symm⟩
  | false =>
      rw [if_neg (by simp [hselected])] at hrow
      rw [← hrow]
      exact .inl hold

/-- Validating a session touches neither what it is for nor where its token
was mailed. -/
theorem Generated.validate {driver : Driver} {mails : List Mail}
    {token : String} {row : Mapping} {request : ValidationCall}
    (generated : Generated driver mails token row request) (now : Nat) :
    Generated driver mails token (validate now row) request := by
  cases request with
  | requestToken req sid drawnToken => exact generated
  | submitToken req => exact generated

theorem ValidatedBy.validate {driver : Driver} {mails : List Mail}
    {row : Mapping}
    (validated : ValidatedBy driver calls mails row call) (now : Nat) :
    ValidatedBy driver calls mails (validate now row) call := by
  cases call with
  | requestToken req sid token => exact validated
  | submitToken req =>
      obtain ⟨token, htoken, request, hrequest, hgenerated⟩ := validated
      exact ⟨token, htoken, request, hrequest, hgenerated.validate now⟩

theorem Recorded.validate {driver : Driver} {req : Request}
    {selected : Mapping → Bool} {now : Nat}
    (recorded : Recorded driver calls world)
    (submits : .submitToken req ∈ calls)
    (valid : ∀ row ∈ world.store .mappings, selected row = true →
      ValidatedBy driver calls world.mails row (.submitToken req)) :
    Recorded driver calls (world.setTable .mappings
      (@updateRows .mappings (world.store .mappings) selected
        (validate now))) where
  tokens := by
    intro row hrow
    rw [World.setTable_other _ _ _ (by decide)] at hrow
    exact recorded.tokens row hrow
  mappings := by
    intro row hrow
    rw [World.setTable_same] at hrow
    rcases mem_updateRows hrow with hold | ⟨old, hold, _, rfl⟩
    · exact recorded.mappings row hold
    · obtain ⟨request, hrequest, token, hgenerated⟩ :=
        recorded.mappings old hold
      exact ⟨request, hrequest, token, hgenerated.validate now⟩
  validated := by
    intro row hrow hvalid
    rw [World.setTable_same] at hrow
    rcases mem_updateRows hrow with hold | ⟨old, hold, hselected, rfl⟩
    · exact recorded.validated row hold hvalid
    · exact ⟨_, submits, (valid old hold hselected).validate now⟩
  drawn := recorded.drawn

theorem handle_updateAnd (env : Environment) (choice : Choice)
    (table : Collections) (values : Row table → Row table)
    (condition1 condition2 : String × JsValue) (world : World) :
    (handle env choice (.db (.updateAnd table values condition1 condition2))
      world).2 = world ∨
    (handle env choice (.db (.updateAnd table values condition1 condition2))
      world).2 =
      world.setTable table (updateRows (world.store table)
        (fun row => equals env.driver table condition1 row &&
          equals env.driver table condition2 row) values) := by
  unfold handle execute
  split
  · exact .inl rfl
  · exact .inr rfl

theorem valid_onValidated (req : Request) (data : JsValue)
    (updated : Option (List Mapping)) :
    Valid env call (onValidated env req data updated) calls world := by
  unfold onValidated
  split
  · trivial
  · dsimp only
    split
    · split
      · trivial
      · apply Discipline.Safe.perform_harmless
          ((quiet_redirect _).harmless call)
        intro _
        trivial
    · exact valid_reply 200 _

theorem valid_validateSession {req : Request} {token data : JsValue}
    (submits : .submitToken req ∈ calls) (redeems : Redeems req data calls) :
    Valid env (.submitToken req) (validateSession env req token data) calls
      world := by
  unfold validateSession deleteToken
  apply Discipline.Safe.perform_harmless ((quiet_deleteEqual _ _ _).harmless _)
  intro _
  apply Discipline.Safe.perform_harmless (quiet_epoch.harmless _)
  intro now calls' world' more kept hinv choice _
  have hvalid : ∀ row ∈ world'.store .mappings,
      (equals env.driver .mappings ("session_id", field data "sid") row &&
        equals env.driver .mappings
          ("client_secret", field data "client_secret") row) = true →
      ValidatedBy env.driver calls' world'.mails row (.submitToken req) := by
    intro row hrow hselected
    rw [Bool.and_eq_true] at hselected
    exact (redeems.mono more).validatedBy hinv hrow hselected.1
  rcases handle_updateAnd env choice .mappings (validate now)
      ("session_id", field data "sid")
      ("client_secret", field data "client_secret") world' with hsame | hnew
  · rw [hsame]
    exact ⟨hinv, fun _ h => h, fun row hrow _ => .inl hrow,
      valid_onValidated _ _ _⟩
  · rw [hnew]
    refine ⟨hinv.validate (more submits) hvalid, fun _ h => h, ?_,
      valid_onValidated _ _ _⟩
    intro row hrow _
    rw [World.setTable_same] at hrow
    rcases mem_updateRows hrow with hold | ⟨old, hold, hselected, rfl⟩
    · exact .inl hold
    · exact .inr ((hvalid old hold hselected).validate now)

/-- The first row that the token selects belongs to a session that may be
validated, when it names the session submitted. -/
theorem redeems_of_selected {driver : Driver} {req : Request}
    {selected : List OneTimeToken} {row : OneTimeToken} {data : JsValue}
    (recorded : Recorded driver calls world)
    (present : (submittedToken req).isNullish = false)
    (kept : selectsForeign req (world.store .oneTimeTokens) = false)
    (h : (Filter.resolve [("id", submittedToken req)]).map (fun resolved =>
      (world.store .oneTimeTokens).filter fun row =>
        selectsAll .eq resolved (cell .oneTimeTokens row)) = some selected)
    (first : selected.head? = some row) (content : row.data = some data)
    (named : namesSession (submitted req) row = true) :
    Redeems req data calls := by
  have hempty : (submittedToken req).text? ≠ some "" := by
    intro hempty
    rw [resolve_empty hempty] at h
    have hselected : selected = world.store .oneTimeTokens := by
      simpa [selectsAll] using h.symm
    rw [hselected] at first
    simp [selectsForeign, hempty, first, named] at kept
  obtain ⟨hstored, text, htext, htest⟩ := mem_selected present hempty h
    (List.mem_of_head? first)
  obtain ⟨request, hrequest, hof⟩ := recorded.tokens row hstored
  cases request with
  | submitToken _ => exact hof.elim
  | requestToken issuer sid token =>
      obtain ⟨hid, stored, hdata, hsid⟩ := hof
      have hsame : data = stored := by
        rw [content] at hdata
        exact Option.some.inj hdata
      have hpresented : text = token := by
        rw [← (Operator.test_eq_text _ _).mp htest]
        exact hid
      rw [hpresented] at htext
      rw [hsame]
      exact ⟨token, htext, issuer, sid, hrequest, hsid⟩

theorem valid_onVerifiedToken {req : Request} {data : JsValue}
    (submits : .submitToken req ∈ calls)
    (redeems : ((field data "sid").strictEq (field (submitted req) "sid") &&
      (field data "client_secret").strictEq
        (field (submitted req) "client_secret")) = true →
      Redeems req data calls) :
    Valid env (.submitToken req)
      (onVerifiedToken env req (submitted req) (.ok data)) calls world := by
  unfold onVerifiedToken
  dsimp only
  split
  · rename_i sid clientSecret hsid hsecret
    split
    · rename_i hmatch
      apply valid_validateSession submits
      apply redeems
      have hfieldSid : field data "sid" = sid := by rw [field, hsid]; rfl
      have hfieldSecret : field data "client_secret" = clientSecret := by
        rw [field, hsecret]
        rfl
      rw [hfieldSid, hfieldSecret]
      exact hmatch
    · exact valid_reply 400 _
  · exact valid_reply 400 _

theorem valid_onOneTimeTokens {next : Except String JsValue → Procedure}
    {rows : Option (List OneTimeToken)}
    (refused : ∀ text, Valid env call (next (.error text)) calls world)
    (found : ∀ selected row data, rows = some selected →
      selected.head? = some row → row.data = some data →
      Valid env call (next (.ok data)) calls world) :
    Valid env call (onOneTimeTokens next rows) calls world := by
  unfold onOneTimeTokens
  split
  · exact refused _
  · exact refused _
  · rename_i row rest
    apply Discipline.Safe.perform_harmless (quiet_epoch.harmless call)
    intro now
    split
    · cases hdata : row.data with
      | none => exact refused _
      | some data => exact found _ row data rfl rfl hdata
    · exact refused _

theorem valid_verifyToken {req : Request} (submits : .submitToken req ∈ calls)
    (present : (submittedToken req).isNullish = false) :
    Valid env (.submitToken req)
      (verifyToken (submittedToken req)
        (onVerifiedToken env req (submitted req))) calls world := by
  intro calls' world' more kept hinv choice hpermits
  have hkept : selectsForeign req (world'.store .oneTimeTokens) = false := by
    simpa [validation, keptFilter] using hpermits
  rw [handle_get]
  refine ⟨hinv, fun _ h => h, fun row hrow _ => .inl hrow, ?_⟩
  apply valid_onOneTimeTokens
  · intro text
    exact valid_reply 400 _
  · intro selected row data hrows hfirst hdata
    apply valid_onVerifiedToken (more submits)
    intro hnamed
    have hnames : namesSession (submitted req) row = true := by
      rw [namesSession, hdata]
      exact hnamed
    refine redeems_of_selected hinv present hkept ?_ hfirst hdata hnames
    rw [handle] at hrows
    split at hrows
    · cases hrows
    · rw [execute_get] at hrows
      exact hrows

theorem valid_realMethod {req : Request} (submits : .submitToken req ∈ calls) :
    Valid env (.submitToken req) (realMethod env req (submitted req)) calls
      world := by
  unfold realMethod
  split
  · trivial
  · split
    · rename_i hlengths
      simp only [Bool.and_eq_true] at hlengths
      apply valid_verifyToken submits
      exact JsValue.isNullish_of_hasLength hlengths.1.2
    · exact valid_reply 400 _

theorem valid_SubmitToken {req : Request}
    (submits : .submitToken req ∈ calls) :
    Valid env (.submitToken req) (SubmitToken env req) calls world := by
  have hreal := @valid_realMethod env calls world req submits
  unfold SubmitToken
  split
  · rename_i hget
    rw [submitted, if_pos hget] at hreal
    exact hreal
  · rename_i hget
    rw [submitted, if_neg hget] at hreal
    split
    · apply (answers_validation env _).jsonContent
      intro content hbody
      rw [hbody] at hreal
      exact hreal
    · exact valid_reply 400 _

/-! Every run. -/

theorem drawn_of_fresh {pool : ValidationPool} {call : ValidationCall}
    (hfresh : fresh pool call = true) {other : ValidationCall}
    (hother : other ∈ pool.calls) {sid : String}
    (hcall : call.drawn = some sid) : other.drawn ≠ some sid := by
  simp only [fresh, hcall, Option.all_some, List.all_eq_true] at hfresh
  simpa using hfresh other hother

theorem Recorded.start {driver : Driver} {pool : ValidationPool}
    {call : ValidationCall} (recorded : Recorded driver pool.calls pool.world)
    (hfresh : fresh pool call = true) :
    Recorded driver (pool.calls ++ [call]) pool.world where
  tokens := by
    intro row hrow
    obtain ⟨request, hrequest, hof⟩ := recorded.tokens row hrow
    exact ⟨request, List.mem_append_left _ hrequest, hof⟩
  mappings := by
    intro row hrow
    obtain ⟨request, hrequest, hrest⟩ := recorded.mappings row hrow
    exact ⟨request, List.mem_append_left _ hrequest, hrest⟩
  validated := by
    intro row hrow hvalid
    obtain ⟨other, hother, hvalidated⟩ := recorded.validated row hrow hvalid
    exact ⟨other, List.mem_append_left _ hother,
      hvalidated.mono (List.subset_append_left _ _) (fun _ h => h)⟩
  drawn := by
    intro first hfirst second hsecond sid hfirstSid hsecondSid
    rcases List.mem_append.mp hfirst with hfirst | hfirst
    · rcases List.mem_append.mp hsecond with hsecond | hsecond
      · exact recorded.drawn first hfirst second hsecond sid hfirstSid
          hsecondSid
      · rw [List.mem_singleton.mp hsecond] at hsecondSid
        exact absurd hfirstSid (drawn_of_fresh hfresh hfirst hsecondSid)
    · rw [List.mem_singleton.mp hfirst] at hfirstSid ⊢
      rcases List.mem_append.mp hsecond with hsecond | hsecond
      · exact absurd hsecondSid (drawn_of_fresh hfresh hsecond hfirstSid)
      · exact (List.mem_singleton.mp hsecond).symm

theorem valid_procedure {call : ValidationCall} (started : call ∈ calls) :
    Valid env call (call.procedure env conf) calls world := by
  cases call with
  | requestToken req sid token => exact valid_RequestToken started
  | submitToken req => exact valid_SubmitToken started

theorem permitted_of_orderly {pool : ValidationPool} {index : Nat}
    {choice : Choice} (orderly : Orderly pool (.act index choice)) :
    (validation env.driver).Permitted pool index choice := by
  intro call effect next hthread
  have hkept := orderly.2
  simp only [keepsFilter, hthread] at hkept
  exact hkept

theorem validation_holds {start pool : ValidationPool}
    (reached : Reachable (validationStep env conf) Orderly start pool)
    (idle : start.threads = [])
    (noMappings : start.world.store .mappings = [])
    (noTokens : start.world.store .oneTimeTokens = []) :
    (validation env.driver).Holds (handle env) pool := by
  apply Discipline.Holds.of_reachable reached
  · refine ⟨⟨?_, ?_, ?_, ?_⟩, ?_⟩
    · simp [noTokens]
    · simp [noMappings]
    · simp [noMappings]
    · simp [Pool.calls, idle]
    · simp [idle]
  · intro before call hinv horderly
    exact ⟨Recorded.start hinv horderly.1, valid_procedure (by simp)⟩
  · intro before index choice horderly
    exact permitted_of_orderly horderly

/-- In every run that draws no session ID twice and in which no empty token
selects the session submitted, sessions are validated by their tokens only. -/
theorem submitToken_sound {start pool : ValidationPool}
    (reached : Reachable (validationStep env conf) Orderly start pool)
    (idle : start.threads = [])
    (noMappings : start.world.store .mappings = [])
    (noTokens : start.world.store .oneTimeTokens = []) :
    SoundValidation env conf Orderly pool := by
  have hholds := validation_holds reached idle noMappings noTokens
  refine ⟨hholds.inv.validated, ?_⟩
  intro event after horderly hstep row hrow hvalid hnew
  cases event with
  | start call =>
      cases hstep
      exact absurd hrow hnew
  | act index choice =>
      rcases (hholds.act (permitted_of_orderly horderly) hstep).2 with
        hsame | ⟨call, program, hthread, hguarantee⟩
      · rw [hsame] at hrow
        exact absurd hrow hnew
      · rcases hguarantee row hrow hvalid with hold | hvalidated
        · exact absurd hold hnew
        · exact ⟨index, choice, call, program, rfl, hthread, hvalidated⟩

/-! Bob requests a token for an address and submits one. -/

def bobStart : ValidationPool where
  world := ({ store := emptyStore } : World).setTable .accessTokens
    [{ id := "b0b", data := some (tokenContent (.str "@bob:example.org") 0) }]
  threads := []

def bobTokenRequest : ValidationCall :=
  .requestToken
    { authorization := some "Bearer b0b",
      body := some (.obj [("client_secret", .str "s3cret"),
        ("email", .str "alice@example.org"), ("send_attempt", .num 1)]) }
    "sid1" "t0k3n"

def bobSubmit (token : String) : ValidationCall :=
  .submitToken
    { method := "GET",
      query := [("client_secret", .str "s3cret"), ("token", .str token),
        ("sid", .str "sid1")] }

def bobEvents (token : String) : List ValidationEvent :=
  .start bobTokenRequest :: List.replicate 8 (.act 0 ⟨false, 7⟩) ++
    .start (bobSubmit token) :: List.replicate 6 (.act 1 ⟨false, 7⟩)

def bobEnd (permits : ValidationPool → ValidationEvent → Bool)
    (token : String) : Option ValidationPool :=
  runEvents (validationStep (.offline id) .sample) permits (bobEvents token)
    bobStart

def validatedAddresses (pool : ValidationPool) : List String :=
  ((pool.world.store .mappings).filter (·.valid == 1)).map (·.address)

def mailedTokens (pool : ValidationPool) : List String :=
  pool.world.mails.map (·.token)

def submittedTexts (pool : ValidationPool) : List String :=
  pool.calls.flatMap fun
    | .requestToken _ _ _ => []
    | .submitToken req => presentedTexts (submittedToken req)

theorem submitToken_sound_mailed :
    ∃ pool, Reachable (validationStep (.offline id) .sample) Orderly bobStart
        pool ∧
      validatedAddresses pool = ["alice@example.org"] ∧
      SoundValidation (.offline id) .sample Orderly pool := by
  have hrun : (bobEnd (fun pool event => drawsFresh pool event &&
      keepsFilter pool event) "t0k3n").map validatedAddresses =
      some ["alice@example.org"] := by
    decide
  obtain ⟨pool, hpool, haddresses⟩ := Option.map_eq_some_iff.mp hrun
  have hreached : Reachable (validationStep (.offline id) .sample) Orderly
      bobStart pool := by
    apply reachable_of_runEvents _ hpool
    intro state event hpermits
    exact Bool.and_eq_true_iff.mp hpermits
  exact ⟨pool, hreached, haddresses, submitToken_sound hreached rfl rfl rfl⟩

/-- Bob never reads the mail, submits the empty token, and validates the
address. -/
theorem emptyToken_validates :
    ¬ ∀ (env : Environment) (conf : Config) (start pool : ValidationPool),
      start.threads = [] → start.world.store .mappings = [] →
      start.world.store .oneTimeTokens = [] →
      Reachable (validationStep env conf) Fresh start pool →
      SoundValidation env conf Fresh pool := by
  intro sound
  have hrun : (bobEnd drawsFresh "").map (fun pool =>
      (validatedAddresses pool, mailedTokens pool, submittedTexts pool)) =
      some (["alice@example.org"], ["t0k3n"], [""]) := by
    decide
  obtain ⟨pool, hpool, hseen⟩ := Option.map_eq_some_iff.mp hrun
  simp only [Prod.mk.injEq] at hseen
  obtain ⟨haddresses, htokens, htexts⟩ := hseen
  have hreached : Reachable (validationStep (.offline id) .sample) Fresh
      bobStart pool :=
    reachable_of_runEvents (fun _ _ h => h) hpool
  have hsound := sound _ _ _ _ rfl rfl rfl hreached
  obtain ⟨row, hrow, _⟩ : ∃ row ∈ (pool.world.store .mappings).filter
      (·.valid == 1), row.address = "alice@example.org" :=
    List.mem_map.mp (by
      change _ ∈ validatedAddresses pool
      simp [haddresses])
  obtain ⟨hstored, hvalid⟩ := List.mem_filter.mp hrow
  obtain ⟨call, hcall, hvalidated⟩ :=
    hsound.validated row hstored (by simpa using hvalid)
  cases call with
  | requestToken req sid token => exact hvalidated
  | submitToken req =>
      obtain ⟨token, htoken, request, _, hgenerated⟩ := hvalidated
      have hempty : token ∈ submittedTexts pool :=
        List.mem_flatMap.mpr ⟨_, hcall, htoken⟩
      rw [htexts, List.mem_singleton] at hempty
      cases request with
      | submitToken _ => exact hgenerated
      | requestToken issuer sid drawn =>
          obtain ⟨_, _, content, _, _, _, hmail⟩ := hgenerated
          have hmailed : token ∈ mailedTokens pool :=
            List.mem_map.mpr ⟨_, hmail, rfl⟩
          rw [htokens, List.mem_singleton, hempty] at hmailed
          exact absurd hmailed (by decide)

end TwakeKickstart.IdentityServer
