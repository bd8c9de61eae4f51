import TwakeKickstart.Library.Transition
import TwakeKickstart.IdentityServer.ExactlyOnce
import TwakeKickstart.IdentityServer.Account.Logout
import TwakeKickstart.IdentityServer.Account.Register
import TwakeKickstart.TomServer.Authenticate

namespace TwakeKickstart

open Library Utils IdentityServer

/-! What a logout revokes, in runs of any number of requests to both servers
that are interleaved step by step. -/

inductive Server where
  | identityServer
  | tomServer

def Server.authenticate (env : Environment) (conf : Config)
    (requiresTerms : Bool) : Server → (JsValue → JsValue → Procedure) →
      Request → Procedure
  | identityServer => fun callback req =>
      IdentityServer.Authenticate callback requiresTerms req
  | tomServer => TomServer.Authenticate env conf

/-- The requests that concern the two token tables.  `token` is the random
string that a registration draws. -/
inductive SessionCall where
  | register (token : String) (req : Request)
  | logout (server : Server) (req : Request)
  | authenticated (server : Server) (requiresTerms : Bool) (req : Request)

namespace SessionCall

def procedure (env : Environment) (conf : Config) : SessionCall → Procedure
  | register token req => Register token req
  | logout server req => Logout (server.authenticate env conf true) req
  | authenticated server requiresTerms req =>
      server.authenticate env conf requiresTerms recordCallback req

/-- What the request shows to an authenticator. -/
def presented : SessionCall → Option JsValue
  | register _ _ => none
  | logout _ req => some (presentedToken req)
  | authenticated _ _ req => some (presentedToken req)

/-- The request is a logout with this token. -/
def LogsOut (token : String) : SessionCall → Prop
  | logout _ req => presentedToken req = .str token
  | _ => False

end SessionCall

/-- What the world decides at one step, and what other servers answer. -/
structure Decision where
  choice : Choice
  fetch : String → Option String → Option JsValue

def answer (env : Environment) (decision : Decision) :
    Handler Effect Effect.Result World :=
  handle { env with fetch := decision.fetch } decision.choice

abbrev SessionPool := Pool Effect Effect.Result World SessionCall

/-- `history` is what each thread has performed. -/
structure Sessions where
  pool : SessionPool
  history : Nat → List Performed

inductive SessionEvent where
  | start (call : SessionCall)
  | act (index : Nat) (decision : Decision)
  | elsewhere (table : Collections) (rows : List (Row table))

namespace Sessions

def initial (store : Store) : Sessions where
  pool := { world := { store }, threads := [] }
  history := fun _ => []

/-- The other handlers and the scheduled jobs leave both token tables alone. -/
def step (env : Environment) (conf : Config) (state : Sessions) :
    SessionEvent → Option Sessions
  | .start call =>
      some {
        pool := { state.pool with
          threads := state.pool.threads ++ [(call, call.procedure env conf)] }
        history := Function.update state.history state.pool.threads.length [] }
  | .act index decision =>
      (state.pool.act (answer env) index decision).map fun pool =>
        { pool
          history := Function.update state.history index
            (state.history index ++
              state.pool.performed (answer env) index decision) }
  | .elsewhere table rows =>
      if table = .accessTokens ∨ table = .matrixTokens then none
      else
        some { state with pool := { state.pool with
          world := state.pool.world.setTable table rows } }

end Sessions

/-! Which steps put a token back. -/

structure Absent (token : String) (store : Store) : Prop where
  accessTokens : ∀ row ∈ store .accessTokens, row.id ≠ token
  matrixTokens : ∀ row ∈ store .matrixTokens, row.id ≠ token

/-- The effect may store a row for the token. -/
def Restores (token : String) (effect : Effect) : Prop :=
  ∃ env choice world, Absent token world.store ∧
    ¬ Absent token (handle env choice effect world).2.store

/-- The homeserver accepts the token. -/
def Vouches (conf : Config) (token : String) : Performed → Prop
  | ⟨.fetch url authorization, some userInfo⟩ =>
      url = TomServer.whoamiUrl conf ∧
        authorization = some ("Bearer " ++ token) ∧
        ∃ uid, userInfo.property "user_id" = some uid ∧ uid.isNullish = false
  | _ => False

/-- No insertion for the token is left, unless the homeserver accepts it. -/
def Settled (conf : Config) (token : String) (procedure : Procedure) : Prop :=
  procedure.Until (Restores token) (Vouches conf token)

/-- The token has been deleted. -/
def Deletes (token : String) : Performed → Prop
  | ⟨.db (.deleteEqual .accessTokens field value), some _⟩ =>
      field = "id" ∧ value = .str token
  | _ => False

def Succeeds : Effect → Prop
  | .send status _ => status = 200
  | _ => False

/-- No success is left to be answered before the token has been deleted. -/
def Undecided (token : String) (procedure : Procedure) : Prop :=
  procedure.Until Succeeds (Deletes token)

/-- What one step performs. -/
def performedBy (env : Environment) (state : Sessions) :
    SessionEvent → List Performed
  | .act index decision => state.pool.performed (answer env) index decision
  | _ => []

/-- The condition on a step.  A registration draws a new token, and no request
presents an array or an object which the database client binds as the token.
A logout deletes a token that is not empty, that the tom-server has not cached
and that no request is about to cache; between its deletion and its answer the
homeserver does not accept the token. -/
structure Orderly (env : Environment) (conf : Config) (token : String)
    (state : Sessions) (event : SessionEvent) : Prop where
  registers : ∀ drawn req, event = .start (.register drawn req) →
    drawn ≠ token
  presents : ∀ call, event = .start call → ∀ value ∈ call.presented,
    value.isNullish = false → env.driver.text value = token →
    value.text? = some token
  deletes : ∀ performed ∈ performedBy env state event,
    Deletes token performed → token ≠ "" ∧
      (∀ row ∈ state.pool.world.store .matrixTokens, row.id ≠ token) ∧
      ∀ thread ∈ state.pool.threads, Settled conf token thread.2
  window : (∃ performed ∈ performedBy env state event,
      Vouches conf token performed) →
    ∀ thread ∈ state.pool.threads, thread.1.LogsOut token →
      Undecided token thread.2

/-- The homeserver does not accept the token at this step. -/
def Unvouched (env : Environment) (conf : Config) (token : String)
    (state : Sessions) (event : SessionEvent) : Prop :=
  ∀ performed ∈ performedBy env state event, ¬ Vouches conf token performed

/-- The steps after the success: orderly, and without a new acceptance by the
homeserver. -/
def Onward (env : Environment) (conf : Config) (token : String)
    (state : Sessions) (event : SessionEvent) : Prop :=
  Orderly env conf token state event ∧ Unvouched env conf token state event

/-- A logout with the token answers that it has succeeded. -/
def Concludes (token : String) (state : Sessions) : SessionEvent → Prop
  | .act index _ => ∃ server req body next,
      state.pool.threads[index]? =
        some (.logout server req, .perform (.send 200 body) next) ∧
      presentedToken req = .str token
  | _ => False

def Grants : Performed → Prop
  | ⟨.callback _ _, _⟩ => True
  | _ => False

/-- The thread has not answered yet, or it has answered 401 and nothing else;
no callback was run. -/
structure Unauthorized (history : List Performed) (procedure : Procedure) :
    Prop where
  notGranted : ∀ performed ∈ history, ¬ Grants performed
  answered : (history.filter Performed.isResponse = [] ∧ procedure ≠ .done) ∨
    ∃ body, history.filter Performed.isResponse = [⟨.send 401 body, ()⟩]

/-! No step of a handler restores a token that it has not been given. -/

section Restores

variable {token : String}

theorem not_restores {effect : Effect}
    (same : ∀ env choice world,
      (handle env choice effect world).2.store = world.store) :
    ¬ Restores token effect := by
  rintro ⟨env, choice, world, habsent, hrestored⟩
  rw [same] at hrestored
  exact hrestored habsent

theorem spares_restores : Spares (Restores token) where
  get := by
    intro table fields filter
    apply not_restores
    intro env choice world
    cases hfails : choice.fails <;> simp [handle, hfails, execute_get]
  epoch := not_restores fun _ _ _ => rfl
  fetch := fun _ _ => not_restores fun _ _ _ => rfl
  resolve := fun _ => not_restores fun _ _ _ => rfl
  refusal := fun _ _ _ => not_restores fun _ _ _ => rfl

theorem not_restores_send (status : Nat) (body : JsValue) :
    ¬ Restores token (.send status body) :=
  not_restores fun _ _ _ => rfl

theorem not_restores_callback (data id : JsValue) :
    ¬ Restores token (.callback data id) :=
  not_restores fun _ _ _ => rfl

theorem handle_fails {env : Environment} {choice : Choice} {call : DbCall}
    {world : World} (h : choice.fails = true) :
    handle env choice (.db call) world = (call.refused, world) := by
  simp [handle, h]

theorem handle_succeeds {env : Environment} {choice : Choice} {call : DbCall}
    {world : World} (h : choice.fails = false) :
    handle env choice (.db call) world =
      ((execute env.driver call world.store).1,
        { world with store := (execute env.driver call world.store).2 }) := by
  simp [handle, h]

theorem not_restores_db {call : DbCall}
    (kept : ∀ driver store, Absent token store →
      Absent token (execute driver call store).2) :
    ¬ Restores token (.db call) := by
  rintro ⟨env, choice, world, habsent, hrestored⟩
  cases hfails : choice.fails with
  | true =>
      rw [handle_fails hfails] at hrestored
      exact hrestored habsent
  | false =>
      rw [handle_succeeds hfails] at hrestored
      exact hrestored (kept env.driver world.store habsent)

theorem absent_accessTokens {store : Store} {rows : List TokenRow}
    (other : ∀ row ∈ store .matrixTokens, row.id ≠ token)
    (own : ∀ row ∈ rows, row.id ≠ token) :
    Absent token (Function.update store .accessTokens rows) where
  accessTokens := by
    rw [Function.update_self]
    exact own
  matrixTokens := by
    rw [Function.update_of_ne (by decide)]
    exact other

theorem absent_matrixTokens {store : Store} {rows : List TokenRow}
    (other : ∀ row ∈ store .accessTokens, row.id ≠ token)
    (own : ∀ row ∈ rows, row.id ≠ token) :
    Absent token (Function.update store .matrixTokens rows) where
  accessTokens := by
    rw [Function.update_of_ne (by decide)]
    exact other
  matrixTokens := by
    rw [Function.update_self]
    exact own

theorem other_append {rows : List TokenRow} {row : TokenRow}
    (others : ∀ stored ∈ rows, stored.id ≠ token) (other : row.id ≠ token) :
    ∀ stored ∈ rows ++ [row], stored.id ≠ token := by
  intro stored hstored
  rcases List.mem_append.mp hstored with hold | hnew
  · exact others stored hold
  · rw [List.mem_singleton.mp hnew]
    exact other

theorem not_restores_accessToken {row : TokenRow} (other : row.id ≠ token) :
    ¬ Restores token (.db (.insert .accessTokens row)) := by
  apply not_restores_db
  intro driver store habsent
  simp only [execute]
  split
  · exact habsent
  · exact absent_accessTokens habsent.matrixTokens
      (other_append habsent.accessTokens other)

theorem not_restores_matrixToken {row : TokenRow} (other : row.id ≠ token) :
    ¬ Restores token (.db (.insert .matrixTokens row)) := by
  apply not_restores_db
  intro driver store habsent
  simp only [execute]
  split
  · exact habsent
  · exact absent_matrixTokens habsent.accessTokens
      (other_append habsent.matrixTokens other)

theorem not_restores_delete (field : String) (value : JsValue) :
    ¬ Restores token (.db (.deleteEqual .accessTokens field value)) := by
  apply not_restores_db
  intro driver store habsent
  simp only [execute]
  split
  · exact habsent
  · exact absent_accessTokens habsent.matrixTokens fun row hrow =>
      habsent.accessTokens row (List.mem_of_mem_filter hrow)

end Restores

/-! Every request starts settled. -/

section Until

variable {bad : Effect → Prop} {released : Performed → Prop}
variable {env : Environment} {conf : Config}
variable {callback : JsValue → JsValue → Procedure} {value : JsValue}

/-- An answer of the homeserver that names a user releases the insertion, or
the insertion is not bad. -/
def SparesInsertion (env : Environment) (conf : Config) (bad : Effect → Prop)
    (released : Performed → Prop) (value : JsValue) : Prop :=
  ∀ text, value.text? = some text →
    (∀ userInfo uid, userInfo.property "user_id" = some uid →
      uid.isNullish = false →
      released ⟨.fetch (TomServer.whoamiUrl conf) (some ("Bearer " ++ text)),
        some userInfo⟩) ∨
    ∀ data, ¬ bad (.db (.insert .matrixTokens
      { id := env.driver.text value, data }))

/-- The same of the row that an acceptance stores. -/
def SparesAcceptance (env : Environment) (conf : Config) (bad : Effect → Prop)
    (released : Performed → Prop) (value : JsValue) : Prop :=
  ∀ text, value.text? = some text →
    (∀ userInfo uid, userInfo.property "user_id" = some uid →
      uid.isNullish = false →
      released ⟨.fetch (TomServer.whoamiUrl conf) (some ("Bearer " ++ text)),
        some userInfo⟩) ∨
    ∀ uid now, ¬ bad (.db (.insert .matrixTokens
      { id := env.driver.text value, data := some (tokenContent uid now) }))

theorem SparesInsertion.acceptance
    (insertion : SparesInsertion env conf bad released value) :
    SparesAcceptance env conf bad released value := fun text htext =>
  (insertion text htext).imp_right fun spared _ _ => spared _

theorem until_askMatrix (spares : Spares bad)
    (acceptance : SparesAcceptance env conf bad released value)
    (onward : ∀ data, (callback data value).Until bad released) :
    (TomServer.askMatrix env conf callback value).Until bad released := by
  unfold TomServer.askMatrix
  split
  · trivial
  · rename_i text htext
    refine ⟨spares.fetch _ _, fun answered => ?_⟩
    match answered with
    | none => exact .inr (spares.refuse _ (by decide))
    | some userInfo =>
        simp only [TomServer.onWhoAmI]
        split
        · exact .inr (spares.refuse _ (by decide))
        · rename_i uid huid
          split
          · exact .inr (until_authenticateToken spares onward true)
          · rename_i hnamed
            rcases acceptance text htext with hreleased | hspared
            · exact .inl (hreleased userInfo uid huid
                (Bool.not_eq_true _ ▸ hnamed))
            · refine .inr (.perform spares.epoch fun now => ?_)
              exact ⟨.perform (hspared uid now) fun _ => trivial, onward _⟩

theorem until_tomServer (spares : Spares bad)
    (acceptance : SparesAcceptance env conf bad released value)
    (onward : ∀ data, (callback data value).Until bad released) :
    (TomServer.authenticateToken env conf callback value).Until bad
      released := by
  unfold TomServer.authenticateToken
  split
  · exact spares.refuse _ (by decide)
  · refine .perform (spares.get _ _ _) fun rows => ?_
    have hask := until_askMatrix spares acceptance onward
    unfold TomServer.onMatrixTokens
    split
    · split
      · exact onward _
      · exact hask
    · exact hask

theorem until_authenticate (spares : Spares bad) {req : Request}
    (acceptance : SparesAcceptance env conf bad released (presentedToken req))
    (onward : ∀ data, (callback data (presentedToken req)).Until bad released)
    (requiresTerms : Bool) (server : Server) :
    (server.authenticate env conf requiresTerms callback req).Until bad
      released := by
  cases server with
  | identityServer => exact until_authenticateToken spares onward requiresTerms
  | tomServer => exact until_tomServer spares acceptance onward

theorem until_jsonContent (spares : Spares bad) (req : Request)
    {next : JsValue → Procedure}
    (onward : ∀ content, (next content).Until bad released) :
    (jsonContent req next).Until bad released := by
  unfold jsonContent
  split
  · exact spares.refuse _ (by decide)
  · exact onward _

theorem until_validateParameters (spares : Spares bad)
    (desc : List (String × Bool)) (content : JsValue) {next : Procedure}
    (onward : next.Until bad released) :
    (validateParameters desc content next).Until bad released := by
  unfold validateParameters
  split
  · trivial
  · exact onward
  · exact spares.refuse _ (by decide)

theorem until_onUserInfo {resolved rejected : String → Procedure}
    (accepts : ∀ sub, (resolved sub).Until bad released)
    (rejects : ∀ reason, (rejected reason).Until bad released)
    (answered : Option JsValue) :
    (onUserInfo resolved rejected answered).Until bad released := by
  unfold onUserInfo
  split
  · exact rejects _
  · split
    · exact rejects _
    · split
      · exact accepts _
      · exact rejects _
    · split
      · exact rejects _
      · exact rejects _

theorem until_validateMatrixToken (spares : Spares bad)
    {resolved rejected : String → Procedure}
    (accepts : ∀ sub, (resolved sub).Until bad released)
    (rejects : ∀ reason, (rejected reason).Until bad released)
    (matrixServer accessToken : JsValue) :
    (validateMatrixToken matrixServer accessToken resolved rejected).Until bad
      released := by
  unfold validateMatrixToken
  split
  · trivial
  · exact rejects _
  · refine .perform (spares.resolve _) fun baseUrl => ?_
    unfold onBaseUrl
    split
    · exact rejects _
    · split
      · exact .perform (spares.fetch _ _) fun answered =>
          until_onUserInfo accepts rejects answered
      · exact rejects _

theorem until_Register (spares : Spares bad) {token : String}
    (creates : ∀ sub, (createSession token sub).Until bad released)
    (req : Request) : (Register token req).Until bad released :=
  until_jsonContent spares req fun content =>
    until_validateParameters spares registerSchema content
      (until_validateMatrixToken spares creates
        (fun _ => spares.refuse _ (by decide)) _ _)

end Until

section Procedures

variable {env : Environment} {conf : Config} {token : String}

theorem settled_reply (status : Nat) (body : JsValue) :
    Settled conf token (reply status body) :=
  .perform (not_restores_send status body) fun _ => trivial

theorem settled_createSession {drawn : String} (other : drawn ≠ token)
    (sub : String) : Settled conf token (createSession drawn sub) := by
  refine .perform spares_restores.epoch fun now =>
    .perform (not_restores_accessToken other) fun inserted => ?_
  cases inserted with
  | none => exact settled_reply _ _
  | some _ => exact settled_reply _ _

theorem settled_Register {drawn : String} (other : drawn ≠ token)
    (req : Request) : Settled conf token (Register drawn req) :=
  until_Register spares_restores (settled_createSession other) req

theorem spares_succeeds : Spares Succeeds where
  get := fun _ _ _ h => h
  epoch := fun h => h
  fetch := fun _ _ h => h
  resolve := fun _ h => h
  refusal := fun _ _ refused h => refused h

/-- Whoever the homeserver accepts with another token is not stored under this
one. -/
theorem sparesInsertion_restores {value : JsValue}
    (presents : value.isNullish = false → env.driver.text value = token →
      value.text? = some token) :
    SparesInsertion env conf (Restores token) (Vouches conf token) value := by
  intro text htext
  by_cases hsame : env.driver.text value = token
  · left
    intro userInfo uid huid hnamed
    have hpresented := presents (isNullish_of_text? htext) hsame
    rw [htext] at hpresented
    cases hpresented
    exact ⟨rfl, rfl, uid, huid, hnamed⟩
  · exact .inr fun data => not_restores_matrixToken hsame

theorem settled_onLogoutDelete (result : Option Unit) :
    Settled conf token (onLogoutDelete result) := by
  cases result with
  | none => exact settled_reply _ _
  | some _ => exact settled_reply _ _

theorem settled_procedure {call : SessionCall}
    (registers : ∀ drawn req, call = .register drawn req → drawn ≠ token)
    (presents : ∀ value ∈ call.presented, value.isNullish = false →
      env.driver.text value = token → value.text? = some token) :
    Settled conf token (call.procedure env conf) := by
  cases call with
  | register drawn req => exact settled_Register (registers drawn req rfl) req
  | logout server req =>
      have hinsertion : SparesInsertion env conf (Restores token)
          (Vouches conf token) (presentedToken req) :=
        sparesInsertion_restores (presents (presentedToken req) rfl)
      exact until_authenticate spares_restores hinsertion.acceptance
        (fun data => .perform (not_restores_delete _ _)
          settled_onLogoutDelete) true server
  | authenticated server requiresTerms req =>
      have hinsertion : SparesInsertion env conf (Restores token)
          (Vouches conf token) (presentedToken req) :=
        sparesInsertion_restores (presents (presentedToken req) rfl)
      have honward : ∀ data, Settled conf token
          (recordCallback data (presentedToken req)) := fun data =>
        .perform (not_restores_callback _ _) fun _ => trivial
      exact until_authenticate spares_restores hinsertion.acceptance honward
        requiresTerms server

theorem undecided_procedure {call : SessionCall}
    (logsOut : call.LogsOut token) :
    Undecided token (call.procedure env conf) := by
  cases call with
  | register drawn req => exact logsOut.elim
  | authenticated server requiresTerms req => exact logsOut.elim
  | logout server req =>
      have honward : Undecided token
          (.perform (.db (.deleteEqual .accessTokens "id"
            (presentedToken req))) onLogoutDelete) := by
        refine ⟨fun h => h, fun deleted => ?_⟩
        cases deleted with
        | none => exact .inr (spares_succeeds.refuse _ (by decide))
        | some _ => exact .inl ⟨rfl, logsOut⟩
      refine until_authenticate spares_succeeds ?_ ?_ true server
      · exact fun _ _ => .inr fun _ _ h => h
      · exact fun _ => honward

end Procedures

/-! The deletion, and what follows it. -/

structure Gone (conf : Config) (token : String) (state : Sessions) :
    Prop where
  nonempty : token ≠ ""
  absent : Absent token state.pool.world.store
  settled : ∀ thread ∈ state.pool.threads, Settled conf token thread.2

section Steps

variable {env : Environment} {conf : Config} {token : String}
variable {state after : Sessions} {event : SessionEvent}

theorem onward_act {index : Nat} {decision : Decision}
    (quiet : ∀ performed ∈ state.pool.performed (answer env) index decision,
      ¬ Deletes token performed ∧ ¬ Vouches conf token performed) :
    Onward env conf token state (.act index decision) := by
  refine ⟨⟨?_, ?_, ?_, ?_⟩, ?_⟩
  · exact fun _ _ hevent => by cases hevent
  · exact fun _ hevent => by cases hevent
  · exact fun performed hmem hdeletes =>
      absurd hdeletes (quiet performed hmem).1
  · rintro ⟨performed, hmem, hvouches⟩
    exact absurd hvouches (quiet performed hmem).2
  · exact fun performed hmem => (quiet performed hmem).2

theorem onward_start {call : SessionCall}
    (presents : call.presented = some (.str token)) :
    Onward env conf token state (.start call) := by
  refine ⟨⟨?_, ?_, ?_, ?_⟩, ?_⟩
  · rintro drawn req hevent
    cases hevent
    cases presents
  · rintro _ ⟨⟩ value hvalue _ hbound
    rw [presents] at hvalue
    cases hvalue
    rw [Driver.text_str] at hbound
    rw [hbound, JsValue.text?_str]
  · exact fun _ hmem => by cases hmem
  · rintro ⟨_, hmem, _⟩
    cases hmem
  · exact fun _ hmem => by cases hmem

theorem settled_step (orderly : Orderly env conf token state event)
    (unvouched : Unvouched env conf token state event)
    (settled : ∀ thread ∈ state.pool.threads, Settled conf token thread.2)
    (h : state.step env conf event = some after) :
    ∀ thread ∈ after.pool.threads, Settled conf token thread.2 := by
  cases event with
  | start call =>
      cases h
      intro thread hmem
      rcases List.mem_append.mp hmem with hold | hnew
      · exact settled thread hold
      · rw [List.mem_singleton.mp hnew]
        exact settled_procedure
          (fun drawn req hcall => orderly.registers drawn req (by rw [hcall]))
          (orderly.presents call rfl)
  | act index decision =>
      obtain ⟨pool, hact, rfl⟩ := Option.map_eq_some_iff.mp h
      intro thread hmem
      exact Pool.until_act (fun _ => True)
        (fun thread hmem _ => settled thread hmem) hact
        (fun _ _ _ _ => unvouched) thread hmem trivial
  | elsewhere table rows =>
      simp only [Sessions.step] at h
      split at h
      · cases h
      · cases h
        exact settled

theorem absent_step (gone : Gone conf token state)
    (h : state.step env conf event = some after) :
    Absent token after.pool.world.store := by
  cases event with
  | start call =>
      cases h
      exact gone.absent
  | act index decision =>
      obtain ⟨pool, hact, rfl⟩ := Option.map_eq_some_iff.mp h
      rcases Pool.act_cases hact with
        ⟨call, effect, next, hthread, hworld, -⟩ |
        ⟨call, child, rest, hthread, hworld, -⟩
      · have hprogram := gone.settled _ (List.mem_of_getElem? hthread)
        rw [hworld]
        by_contra hrestored
        exact hprogram.1 ⟨_, _, _, gone.absent, hrestored⟩
      · rw [hworld]
        exact gone.absent
  | elsewhere table rows =>
      simp only [Sessions.step] at h
      split at h
      · cases h
      · rename_i hother
        rw [not_or] at hother
        cases h
        refine ⟨?_, ?_⟩
        · rw [World.setTable_other _ _ _ (Ne.symm hother.1)]
          exact gone.absent.accessTokens
        · rw [World.setTable_other _ _ _ (Ne.symm hother.2)]
          exact gone.absent.matrixTokens

theorem Gone.step (gone : Gone conf token state)
    (orderly : Orderly env conf token state event)
    (unvouched : Unvouched env conf token state event)
    (h : state.step env conf event = some after) : Gone conf token after where
  nonempty := gone.nonempty
  absent := absent_step gone h
  settled := settled_step orderly unvouched gone.settled h

/-- No logout with the token stands between its deletion and its answer. -/
def AllUndecided (token : String) (state : Sessions) : Prop :=
  ∀ thread ∈ state.pool.threads, thread.1.LogsOut token →
    Undecided token thread.2

theorem undecided_step (undecided : AllUndecided token state)
    (kept : ∀ performed ∈ performedBy env state event,
      ¬ Deletes token performed)
    (h : state.step env conf event = some after) :
    AllUndecided token after := by
  cases event with
  | start call =>
      cases h
      intro thread hmem hlogsOut
      rcases List.mem_append.mp hmem with hold | hnew
      · exact undecided thread hold hlogsOut
      · rw [List.mem_singleton.mp hnew] at hlogsOut ⊢
        exact undecided_procedure hlogsOut
  | act index decision =>
      obtain ⟨pool, hact, rfl⟩ := Option.map_eq_some_iff.mp h
      exact Pool.until_act (SessionCall.LogsOut token) undecided hact
        (fun _ _ _ _ => kept)
  | elsewhere table rows =>
      simp only [Sessions.step] at h
      split at h
      · cases h
      · cases h
        exact undecided

theorem id_of_kept {driver : Driver} {row : TokenRow}
    (kept : equals driver .accessTokens ("id", .str token) row = false) :
    row.id ≠ token := by
  simpa [equals, cell, TokenRow.cell, Cell.same] using kept

theorem not_vouches_of_deletes {performed : Performed}
    (deletes : Deletes token performed) : ¬ Vouches conf token performed := by
  unfold Deletes at deletes
  split at deletes
  · exact fun h => h
  · exact deletes.elim

theorem absent_of_deletes {choice : Choice} {world : World}
    {performed : Performed} (deletes : Deletes token performed)
    (result : performed.2 = (handle env choice performed.1 world).1)
    (other : ∀ row ∈ world.store .matrixTokens, row.id ≠ token) :
    Absent token (handle env choice performed.1 world).2.store := by
  unfold Deletes at deletes
  split at deletes
  · rename_i field value carriedOut
    obtain ⟨rfl, rfl⟩ := deletes
    cases hfails : choice.fails with
    | true =>
        rw [handle_fails hfails] at result
        cases result
    | false =>
        rw [handle_succeeds hfails] at result ⊢
        simp only [execute] at result ⊢
        split at result
        · cases result
        · rename_i haccepted
          rw [if_neg haccepted]
          refine absent_accessTokens other fun row hrow => ?_
          exact id_of_kept (by simpa using (List.mem_filter.mp hrow).2)
  · exact deletes.elim

theorem gone_of_deletes (orderly : Orderly env conf token state event)
    {performed : Performed} (hmem : performed ∈ performedBy env state event)
    (deletes : Deletes token performed)
    (h : state.step env conf event = some after) : Gone conf token after := by
  obtain ⟨hnonempty, hother, hsettled⟩ := orderly.deletes performed hmem deletes
  cases event with
  | start call => cases hmem
  | elsewhere table rows => cases hmem
  | act index decision =>
      obtain ⟨call, effect, next, hthread, rfl⟩ := Pool.mem_performed hmem
      have hunvouched : Unvouched env conf token state
          (.act index decision) := by
        intro other hother
        rw [performedBy, Pool.performed_eq hthread, List.mem_singleton]
          at hother
        rw [hother]
        exact not_vouches_of_deletes deletes
      refine ⟨hnonempty, ?_, settled_step orderly hunvouched hsettled h⟩
      obtain ⟨pool, hact, rfl⟩ := Option.map_eq_some_iff.mp h
      rw [Pool.act_perform hthread] at hact
      cases hact
      exact absent_of_deletes deletes rfl hother

theorem undecided_or_gone_step
    (holds : AllUndecided token state ∨ Gone conf token state)
    (orderly : Orderly env conf token state event)
    (h : state.step env conf event = some after) :
    AllUndecided token after ∨ Gone conf token after := by
  by_cases hdeletes : ∃ performed ∈ performedBy env state event,
      Deletes token performed
  · obtain ⟨performed, hmem, hdeleted⟩ := hdeletes
    exact .inr (gone_of_deletes orderly hmem hdeleted h)
  · have hkept : ∀ performed ∈ performedBy env state event,
        ¬ Deletes token performed := fun performed hmem hdeleted =>
      hdeletes ⟨performed, hmem, hdeleted⟩
    by_cases hvouches : ∃ performed ∈ performedBy env state event,
        Vouches conf token performed
    · exact .inl (undecided_step (orderly.window hvouches) hkept h)
    · rcases holds with hundecided | hgone
      · exact .inl (undecided_step hundecided hkept h)
      · exact .inr (hgone.step orderly (fun performed hmem hvouched =>
          hvouches ⟨performed, hmem, hvouched⟩) h)

theorem gone_of_concludes
    (holds : AllUndecided token state ∨ Gone conf token state)
    (concludes : Concludes token state event)
    (h : state.step env conf event = some after) : Gone conf token after := by
  cases event with
  | start call => exact concludes.elim
  | elsewhere table rows => exact concludes.elim
  | act index decision =>
      obtain ⟨server, req, body, next, hthread, hpresented⟩ := concludes
      have hmem := List.mem_of_getElem? hthread
      have hgone : Gone conf token state := by
        rcases holds with hundecided | hgone
        · exact absurd rfl (hundecided _ hmem hpresented).1
        · exact hgone
      have hperformed : performedBy env state (.act index decision) =
          [⟨.send 200 body, ()⟩] := Pool.performed_eq hthread
      have honward : Onward env conf token state (.act index decision) := by
        apply onward_act
        intro performed hmem
        rw [show state.pool.performed (answer env) index decision = _ from
          hperformed, List.mem_singleton] at hmem
        rw [hmem]
        exact ⟨fun h => h, fun h => h⟩
      exact hgone.step honward.1 honward.2 h

end Steps

/-! A later request with the token. -/

/-- Whatever the queries find that finds no row for the token, and whatever the
homeserver answers that does not accept it, the procedure ends with 401. -/
def Denies (conf : Config) (token : String) : Procedure → Prop
  | .perform (.send status _) next => status = 401 ∧ next () = .done
  | .perform (.db (.get table _ filter)) next =>
      (table = .accessTokens ∨ table = .matrixTokens) ∧
        filter = [("id", .str token)] ∧
        Denies conf token (next none) ∧ Denies conf token (next (some []))
  | .perform (.fetch url authorization) next => ∀ result,
      ¬ Vouches conf token ⟨.fetch url authorization, result⟩ →
      Denies conf token (next result)
  | _ => False

/-- What the thread of such a request has done, and what is left of it. -/
structure Denied (conf : Config) (token : String) (history : List Performed)
    (procedure : Procedure) : Prop where
  notGranted : ∀ performed ∈ history, ¬ Grants performed
  answered : (history.filter Performed.isResponse = [] ∧
      Denies conf token procedure) ∨
    (procedure = .done ∧
      ∃ body, history.filter Performed.isResponse = [⟨.send 401 body, ()⟩])

section Denied

variable {env : Environment} {conf : Config} {token : String}
variable {history : List Performed} {procedure : Procedure}

theorem Denied.unauthorized (denied : Denied conf token history procedure) :
    Unauthorized history procedure where
  notGranted := denied.notGranted
  answered := by
    rcases denied.answered with ⟨hsilent, hdenies⟩ | ⟨-, hanswered⟩
    · refine .inl ⟨hsilent, ?_⟩
      rintro rfl
      exact hdenies
    · exact .inr hanswered

theorem denies_reply (body : JsValue) : Denies conf token (reply 401 body) :=
  ⟨rfl, rfl⟩

theorem denies_authenticateToken
    (callback : JsValue → JsValue → Procedure) (requiresTerms : Bool) :
    Denies conf token
      (IdentityServer.authenticateToken callback requiresTerms (.str token)) :=
  ⟨.inl rfl, rfl, denies_reply _, denies_reply _⟩

theorem denies_askMatrix (callback : JsValue → JsValue → Procedure) :
    Denies conf token (TomServer.askMatrix env conf callback (.str token)) := by
  have htext : (JsValue.str token).text? = some token := JsValue.text?_str token
  unfold TomServer.askMatrix
  rw [htext]
  intro answered hunvouched
  match answered, hunvouched with
  | none, _ => exact denies_reply _
  | some userInfo, hunvouched =>
      simp only [TomServer.onWhoAmI]
      split
      · exact denies_reply _
      · rename_i uid huid
        split
        · exact denies_authenticateToken callback true
        · rename_i hnamed
          exact absurd ⟨rfl, rfl, uid, huid, Bool.not_eq_true _ ▸ hnamed⟩
            hunvouched

theorem denies_authenticate {req : Request}
    (presents : presentedToken req = .str token)
    (callback : JsValue → JsValue → Procedure) (requiresTerms : Bool)
    (server : Server) :
    Denies conf token
      (server.authenticate env conf requiresTerms callback req) := by
  cases server with
  | identityServer =>
      show Denies conf token
        (IdentityServer.authenticateToken callback requiresTerms _)
      rw [presents]
      exact denies_authenticateToken callback requiresTerms
  | tomServer =>
      show Denies conf token
        (TomServer.authenticateToken env conf callback _)
      rw [presents]
      have hask : Denies conf token
          (TomServer.askMatrix env conf callback (.str token)) :=
        denies_askMatrix callback
      exact ⟨.inr rfl, rfl, hask, hask⟩

theorem denies_procedure {call : SessionCall}
    (presents : call.presented = some (.str token)) :
    Denies conf token (call.procedure env conf) := by
  cases call with
  | register drawn req => cases presents
  | logout server req =>
      exact denies_authenticate (Option.some.inj presents) _ true server
  | authenticated server requiresTerms req =>
      exact denies_authenticate (Option.some.inj presents) _ requiresTerms
        server

theorem selectsNone {rows : List TokenRow}
    (others : ∀ row ∈ rows, row.id ≠ token) :
    rows.filter (fun row => selectsAll .eq [("id", [token])] row.cell) =
      [] := by
  rw [List.filter_eq_nil_iff]
  intro row hrow
  simp [selectsAll, TokenRow.cell, others row hrow]

theorem get_absent {choice : Choice} {world : World} {table : Collections}
    {fields : List String} (nonempty : token ≠ "")
    (absent : Absent token world.store)
    (tokens : table = .accessTokens ∨ table = .matrixTokens) :
    (handle env choice (.db (.get table fields [("id", .str token)]))
        world).1 = none ∨
      (handle env choice (.db (.get table fields [("id", .str token)]))
        world).1 = some [] := by
  cases hfails : choice.fails with
  | true =>
      rw [handle_fails hfails]
      exact .inl rfl
  | false =>
      rw [handle_succeeds hfails, execute_get]
      right
      simp only [resolve_cons_str, nonempty, if_false, resolve_nil,
        Option.map_some]
      rcases tokens with rfl | rfl
      · exact congrArg some (selectsNone absent.accessTokens)
      · exact congrArg some (selectsNone absent.matrixTokens)

theorem Denies.perform {effect : Effect}
    {next : Effect.Result effect → Procedure} {choice : Choice} {world : World}
    {result : Effect.Result effect}
    (denies : Denies conf token (.perform effect next))
    (nonempty : token ≠ "") (absent : Absent token world.store)
    (hresult : (handle env choice effect world).1 = result)
    (unvouched : ¬ Vouches conf token ⟨effect, result⟩) :
    ¬ Grants ⟨effect, result⟩ ∧
    ((Performed.isResponse ⟨effect, result⟩ = false ∧
        Denies conf token (next result)) ∨
      (next result = .done ∧
        ∃ body, (⟨effect, result⟩ : Performed) = ⟨.send 401 body, ()⟩)) := by
  match effect, next, result, denies, hresult, unvouched with
  | .send status body, next, result, denies, _, _ =>
      obtain ⟨rfl, hnext⟩ := denies
      exact ⟨fun h => h, .inr ⟨hnext, body, rfl⟩⟩
  | .db (.get table fields filter), next, result, denies, hresult, _ =>
      obtain ⟨htokens, rfl, hnone, hempty⟩ := denies
      refine ⟨fun h => h, .inl ⟨rfl, ?_⟩⟩
      have hfound := @get_absent env token choice world table fields nonempty
        absent htokens
      rw [hresult] at hfound
      rcases hfound with rfl | rfl
      · exact hnone
      · exact hempty
  | .fetch url authorization, next, result, denies, _, unvouched =>
      exact ⟨fun h => h, .inl ⟨rfl, denies _ unvouched⟩⟩

/-- The thread of a later request, while the token is gone. -/
structure Refusing (conf : Config) (token : String) (index : Nat)
    (call : SessionCall) (state : Sessions) : Prop where
  gone : Gone conf token state
  denied : ∃ procedure, state.pool.threads[index]? = some (call, procedure) ∧
    Denied conf token (state.history index) procedure

theorem Denied.perform {effect : Effect}
    {next : Effect.Result effect → Procedure} {choice : Choice} {world : World}
    (denied : Denied conf token history (.perform effect next))
    (nonempty : token ≠ "") (absent : Absent token world.store)
    (unvouched : ¬ Vouches conf token
      ⟨effect, (handle env choice effect world).1⟩) :
    Denied conf token
      (history ++ [⟨effect, (handle env choice effect world).1⟩])
      (next (handle env choice effect world).1) := by
  rcases denied.answered with ⟨hsilent, hdenies⟩ | ⟨hdone, -⟩
  · obtain ⟨hnot, hnext⟩ := hdenies.perform nonempty absent rfl unvouched
    refine ⟨?_, ?_⟩
    · intro performed hmem
      rcases List.mem_append.mp hmem with hold | hnew
      · exact denied.notGranted performed hold
      · rw [List.mem_singleton.mp hnew]
        exact hnot
    · rw [List.filter_append, hsilent, List.nil_append]
      rcases hnext with ⟨hquiet, hdenies⟩ | ⟨hdone, body, hsent⟩
      · exact .inl ⟨by simp [hquiet], hdenies⟩
      · exact .inr ⟨hdone, body, by rw [hsent]; rfl⟩
  · cases hdone

theorem Refusing.step {state after : Sessions} {event : SessionEvent}
    {index : Nat} {call : SessionCall}
    (refusing : Refusing conf token index call state)
    (orderly : Orderly env conf token state event)
    (unvouched : Unvouched env conf token state event)
    (h : state.step env conf event = some after) :
    Refusing conf token index call after := by
  refine ⟨refusing.gone.step orderly unvouched h, ?_⟩
  obtain ⟨procedure, hthread, hdenied⟩ := refusing.denied
  have hlt := (List.getElem?_eq_some_iff.mp hthread).1
  cases event with
  | start other =>
      cases h
      refine ⟨procedure, ?_, ?_⟩
      · rw [List.getElem?_append_left hlt]
        exact hthread
      · show Denied conf token (Function.update state.history _ [] index) _
        rw [Function.update_of_ne (Nat.ne_of_lt hlt)]
        exact hdenied
  | elsewhere table rows =>
      simp only [Sessions.step] at h
      split at h
      · cases h
      · cases h
        exact ⟨procedure, hthread, hdenied⟩
  | act acting decision =>
      obtain ⟨pool, hact, rfl⟩ := Option.map_eq_some_iff.mp h
      by_cases hsame : index = acting
      · subst hsame
        match procedure, hthread, hdenied with
        | .done, hthread, _ =>
            simp [Pool.act, hthread] at hact
        | .fork child rest, hthread, hdenied =>
            rcases hdenied.answered with ⟨-, hdenies⟩ | ⟨hdone, -⟩
            · exact hdenies.elim
            · cases hdone
        | .perform effect next, hthread, hdenied =>
            have hperformed :
                state.pool.performed (answer env) index decision =
                  [⟨effect, (answer env decision effect state.pool.world).1⟩] :=
              Pool.performed_eq hthread
            rw [Pool.act_perform hthread] at hact
            cases hact
            refine ⟨next (answer env decision effect state.pool.world).1,
              ?_, ?_⟩
            · exact List.getElem?_set_self hlt
            · show Denied conf token
                (Function.update state.history index _ index) _
              rw [Function.update_self, hperformed]
              apply hdenied.perform refusing.gone.nonempty
                refusing.gone.absent
              apply unvouched
              rw [performedBy, hperformed]
              exact List.mem_singleton_self _
      · refine ⟨procedure, ?_, ?_⟩
        · rw [Pool.act_other hact hsame hlt]
          exact hthread
        · show Denied conf token
            (Function.update state.history acting _ index) _
          rw [Function.update_of_ne hsame]
          exact hdenied

end Denied

section Runs

variable {env : Environment} {conf : Config} {token : String}

theorem gone_of_success {store : Store} {concluding concluded : Sessions}
    {event : SessionEvent}
    (before : Reachable (Sessions.step env conf) (Orderly env conf token)
      (.initial store) concluding)
    (concludes : Concludes token concluding event)
    (answered : concluding.step env conf event = some concluded) :
    Gone conf token concluded := by
  have hholds := before.invariant
    (fun state => AllUndecided token state ∨ Gone conf token state)
    (.inl fun thread hmem => by cases hmem)
    (fun _ _ _ holds orderly stepped =>
      undecided_or_gone_step holds orderly stepped)
  exact gone_of_concludes hholds concludes answered

theorem gone_onward {start state : Sessions} (gone : Gone conf token start)
    (reached : Reachable (Sessions.step env conf) (Onward env conf token) start
      state) : Gone conf token state :=
  reached.invariant (Gone conf token) gone
    fun _ _ _ holds onward stepped => holds.step onward.1 onward.2 stepped

theorem refusing_start {state begun : Sessions} {call : SessionCall}
    (gone : Gone conf token state)
    (presents : call.presented = some (.str token))
    (h : state.step env conf (.start call) = some begun) :
    Refusing conf token state.pool.threads.length call begun := by
  have honward : Onward env conf token state (.start call) :=
    onward_start presents
  refine ⟨gone.step honward.1 honward.2 h, ?_⟩
  cases h
  refine ⟨call.procedure env conf, by simp, ?_, ?_⟩
  · intro performed hmem
    simp at hmem
  · exact .inl ⟨by simp, denies_procedure presents⟩

/-- After a logout has answered that it has succeeded, every later request with
the token is answered 401, until the homeserver accepts the token again. -/
theorem logout_revokes {store : Store}
    {concluding concluded started begun state : Sessions}
    {event : SessionEvent} {call : SessionCall}
    (before : Reachable (Sessions.step env conf) (Orderly env conf token)
      (.initial store) concluding)
    (concludes : Concludes token concluding event)
    (answered : concluding.step env conf event = some concluded)
    (after : Reachable (Sessions.step env conf) (Onward env conf token)
      concluded started)
    (presents : call.presented = some (.str token))
    (begins : started.step env conf (.start call) = some begun)
    (later : Reachable (Sessions.step env conf) (Onward env conf token)
      begun state) :
    ∃ procedure,
      state.pool.threads[started.pool.threads.length]? =
        some (call, procedure) ∧
      Unauthorized (state.history started.pool.threads.length) procedure := by
  have hgone := gone_onward (gone_of_success before concludes answered) after
  have hrefusing := later.invariant
    (Refusing conf token started.pool.threads.length call)
    (refusing_start hgone presents begins)
    (fun _ _ _ holds onward stepped => holds.step onward.1 onward.2 stepped)
  obtain ⟨procedure, hthread, hdenied⟩ := hrefusing.denied
  exact ⟨procedure, hthread, hdenied.unauthorized⟩

end Runs

/-! A token that the tom-server has cached. -/

def bearing : Request where
  authorization := some "Bearer token"

def accepting : Decision where
  choice := ⟨false, 0⟩
  fetch := fun _ _ => some (.obj [("user_id", .str "user")])

def refusing : Decision where
  choice := ⟨false, 0⟩
  fetch := fun _ _ => none

def registered : Store :=
  Function.update emptyStore .accessTokens
    [{ id := "token", data := some (tokenContent (.str "user") 0) }]

theorem orderly_delete {env : Environment} {conf : Config} {world : World}
    {history : Nat → List Performed} {server : Server}
    (uncached : world.store .matrixTokens = []) :
    Orderly env conf "token"
      ⟨⟨world, [(.logout server bearing, .perform
        (.db (.deleteEqual .accessTokens "id" (.str "token")))
        onLogoutDelete)]⟩, history⟩ (.act 0 refusing) where
  registers := fun _ _ hevent => by cases hevent
  presents := fun _ hevent => by cases hevent
  deletes := by
    intro performed _ _
    refine ⟨by decide, ?_, ?_⟩
    · rw [uncached]
      exact fun row hrow => by cases hrow
    · intro thread hmem
      rw [List.mem_singleton.mp hmem]
      exact .perform (not_restores_delete _ _) settled_onLogoutDelete
  window := by
    rintro ⟨performed, hmem, hvouches⟩
    rw [List.mem_singleton.mp hmem] at hvouches
    exact hvouches.elim

/-- A token that was registered is refused, with a 401, after its logout. -/
theorem registered_token_revoked :
    ∃ (state : Sessions) (procedure : Procedure),
      state.pool.threads[1]? =
        some (.authenticated .tomServer true bearing, procedure) ∧
      (state.history 1).getLast? =
        some ⟨.send 401 (errMsg .unAuthorized), ()⟩ ∧
      Unauthorized (state.history 1) procedure := by
  have hquiet : ∀ (state : Sessions) (index : Nat),
      (∀ performed ∈ state.pool.performed (answer (.offline id)) index refusing,
        ¬ Deletes "token" performed ∧ ¬ Vouches .sample "token" performed) →
      Onward (.offline id) .sample "token" state (.act index refusing) :=
    fun _ _ => onward_act
  have hbefore : Reachable (Sessions.step (.offline id) .sample)
      (Orderly (.offline id) .sample "token") (.initial registered) _ :=
    @Reachable.tail _ _ _ _ _ _ _ (.act 0 refusing)
      (@Reachable.tail _ _ _ _ _ _ _ (.act 0 refusing)
        (@Reachable.tail _ _ _ _ _ _ _ (.act 0 refusing)
          (@Reachable.tail _ _ _ _ _ _ _
            (.start (.logout .identityServer bearing)) .refl
            (onward_start rfl).1 rfl)
          (hquiet _ _ fun performed hmem => by
            rw [List.mem_singleton.mp hmem]
            exact ⟨fun h => h, fun h => h⟩).1 rfl)
        (hquiet _ _ fun performed hmem => by
          rw [List.mem_singleton.mp hmem]
          exact ⟨fun h => h, fun h => h⟩).1 rfl)
      (orderly_delete rfl) rfl
  have hlater : ∀ (state : Sessions) (performed : Performed),
      state.pool.performed (answer (.offline id)) 1 refusing = [performed] →
      ¬ Deletes "token" performed → ¬ Vouches .sample "token" performed →
      Onward (.offline id) .sample "token" state (.act 1 refusing) := by
    intro state performed hperformed hdeletes hvouches
    refine hquiet state 1 fun other hmem => ?_
    rw [hperformed] at hmem
    rw [List.mem_singleton.mp hmem]
    exact ⟨hdeletes, hvouches⟩
  have hrevoked := logout_revokes hbefore
    (show Concludes "token" _ (.act 0 refusing) from
      ⟨.identityServer, bearing, _, _, rfl, rfl⟩) rfl .refl
    (show SessionCall.presented (.authenticated .tomServer true bearing) =
      some (.str "token") from rfl) rfl
    (@Reachable.tail _ _ _ _ _ _ _ (.act 1 refusing)
      (@Reachable.tail _ _ _ _ _ _ _ (.act 1 refusing)
        (@Reachable.tail _ _ _ _ _ _ _ (.act 1 refusing) .refl
          (hlater _ _ rfl (fun h => h) (fun h => h)) rfl)
        (hlater _ _ rfl (fun h => h) (fun h => h)) rfl)
      (hlater _ _ rfl (fun h => h) (fun h => h)) rfl)
  obtain ⟨procedure, hthread, hunauthorized⟩ := hrevoked
  exact ⟨_, procedure, hthread, rfl, hunauthorized⟩

/-- The homeserver accepts the token once, and a logout with it follows. -/
def cachedRun : List SessionEvent :=
  [.start (.authenticated .tomServer true bearing),
    .act 0 refusing, .act 0 accepting, .act 0 refusing, .act 0 refusing,
    .act 1 refusing, .act 0 refusing,
    .start (.logout .tomServer bearing), .act 2 refusing, .act 2 refusing]

theorem cached_token_granted :
    ∃ (concluding concluded begun state : Sessions) (event : SessionEvent)
      (call : SessionCall),
      Reachable (Sessions.step (.offline id) .sample) (fun _ _ => True)
        (.initial emptyStore) concluding ∧
      Concludes "token" concluding event ∧
      concluding.step (.offline id) .sample event = some concluded ∧
      call.presented = some (.str "token") ∧
      concluded.step (.offline id) .sample (.start call) = some begun ∧
      Reachable (Sessions.step (.offline id) .sample)
        (Unvouched (.offline id) .sample "token") begun state ∧
      ∃ performed ∈ state.history concluded.pool.threads.length,
        Grants performed := by
  have hreached : runEvents (Sessions.step (.offline id) .sample)
      (fun _ _ => true) cachedRun (.initial emptyStore) = some _ := rfl
  refine ⟨_, _, _, _, .act 2 refusing, .authenticated .tomServer true bearing,
    reachable_of_runEvents (fun _ _ _ => trivial) hreached,
    ⟨.tomServer, bearing, _, _, rfl, rfl⟩, rfl, rfl, rfl,
    @Reachable.tail _ _ _ _ _ _ _ (.act 3 refusing)
      (@Reachable.tail _ _ _ _ _ _ _ (.act 3 refusing) .refl ?_ rfl)
      ?_ rfl, ?_⟩
  · intro performed hmem
    rw [List.mem_singleton.mp hmem]
    exact fun h => h
  · intro performed hmem
    rw [List.mem_singleton.mp hmem]
    exact fun h => h
  · exact ⟨⟨.callback (tokenContent (.str "user") 0) (.str "token"), ()⟩,
      List.mem_cons_of_mem _ List.mem_cons_self, trivial⟩

end TwakeKickstart
