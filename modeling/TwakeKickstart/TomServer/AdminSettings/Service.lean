import TwakeKickstart.Library.Heap
import TwakeKickstart.Library.Retry
import TwakeKickstart.TomServer.BuildUrl

namespace TwakeKickstart.TomServer

open Library

/-! Requests of the admin settings service, made with the token of the
administrator. -/

namespace AdminSettings

structure Config where
  matrix_server : String
  matrix_admin_login : String
  matrix_admin_password : String

abbrev Headers := List (String × String)

inductive Body where
  | text (text : String)
  | buffer (bytes : List UInt8)

structure RequestInit where
  method : Option String
  headers : Option Headers
  body : Option Body

structure Request where
  url : String
  method : Option String
  headers : Headers
  body : Option Body

structure Response where
  status : Nat
  statusText : String
  data : String

/-- The text of an error. -/
abbrev Failure := String

abbrev Event := Retry.Event String Request Response Failure

/-- The token service and the network, whose answers may depend on all that
has happened. -/
structure Peers where
  getAccessTokenWithCreds :
    List Event → String → String → Except Failure (Option String)
  fetch : List Event → Request → Except Failure Response

/-- An `Lru` whose entries do not expire. -/
structure Lru (Cache : Type) where
  get : Cache → String → Option String × Cache
  set : Cache → String → String → Cache
  delete : Cache → String → Cache
  get_set : ∀ cache key value, (get (set cache key value) key).1 = some value
  get_delete : ∀ cache key, (get (delete cache key) key).1 = none

/-- The cache of the service has room for one entry. -/
def Lru.oneEntry : Lru (Option (String × String)) where
  get entry key :=
    match entry with
    | some (name, value) => (if name = key then some value else none, entry)
    | none => (none, none)
  set _ key value := some (key, value)
  delete entry key := entry.filter fun (name, _) => name ≠ key
  get_set entry key value := by simp
  get_delete entry key := by
    cases entry with
    | none => rfl
    | some held =>
        obtain ⟨name, value⟩ := held
        by_cases h : name = key <;> simp [Option.filter, h]

structure Service (Cache Url : Type) where
  config : Config
  peers : Peers
  lru : Lru Cache
  urls : UrlClass Url

/-- The cache of a service, and what it has asked for so far. -/
structure State (Cache : Type) where
  cache : Cache
  log : List Event

variable {Cache Url : Type}

def State.add (state : State Cache) (event : Event) : State Cache :=
  { state with log := state.log ++ [event] }

def tokenKey : String := "admin_token"

namespace Service

variable (service : Service Cache Url)

/-- The service answers `null` when it could not get a token. -/
def accessToken (log : List Event) : Except Failure String :=
  match service.peers.getAccessTokenWithCreds log
      service.config.matrix_admin_login service.config.matrix_admin_password with
  | .ok (some accessToken) => .ok accessToken
  | .ok none => .error "Failed to get access token"
  | .error error => .error error

def getAdminAccessToken (state : State Cache) :
    Except Failure String × State Cache :=
  let answer := service.accessToken state.log
  (answer, state.add (.credential answer))

def getCachedToken (state : State Cache) :
    Except Failure String × State Cache :=
  let (token, cache) := service.lru.get state.cache tokenKey
  let state := { state with cache }
  match token with
  | some token => (.ok token, state)
  | none =>
      match service.getAdminAccessToken state with
      | (.error error, state) => (.error error, state)
      | (.ok newToken, state) =>
          (.ok newToken,
            { state with cache := service.lru.set state.cache tokenKey newToken })

def invalidateToken (state : State Cache) : State Cache :=
  { state with cache := service.lru.delete state.cache tokenKey }

def request (endpoint : String) (options : RequestInit) (token : String) :
    Except Failure Request :=
  match buildUrl service.urls service.config.matrix_server endpoint with
  | none => .error "Invalid URL"
  | some url => .ok
      { url
        method := options.method
        headers := Fields.put (options.headers.getD []) "Authorization"
          ("Bearer " ++ token)
        body := options.body }

def doFetch (endpoint : String) (options : RequestInit) (token : String)
    (state : State Cache) : Except Failure Response × State Cache :=
  match service.request endpoint options token with
  | .error error => (.error error, state.add (.unsent error))
  | .ok request =>
      let answer := service.peers.fetch state.log request
      (answer, state.add (.call request answer))

/-- The error of a call whose last answer was 401 as well. -/
def gaveUp (endpoint : String) (attempt : Nat) (response : Response) :
    Failure :=
  "Request to " ++ endpoint ++ " failed after " ++ toString (attempt + 1) ++
    " attempts (status: " ++ toString response.status ++ ")"

def makeRequestWithAdminToken (endpoint : String) (options : RequestInit)
    (maxRetries attempt : Nat) (state : State Cache) :
    Except Failure Response × State Cache :=
  match service.getCachedToken state with
  | (.error error, state) => (.error error, state)
  | (.ok token, state) =>
      match service.doFetch endpoint options token state with
      | (.error error, state) => (.error error, state)
      | (.ok response, state) =>
          if response.status ≠ 401 then (.ok response, state)
          else if maxRetries ≤ attempt then
            (.error (gaveUp endpoint attempt response), state)
          else
            makeRequestWithAdminToken endpoint options maxRetries (attempt + 1)
              (service.invalidateToken state)
termination_by maxRetries - attempt

/-- The token that is at hand. -/
def kept (state : State Cache) : Option String :=
  (service.lru.get state.cache tokenKey).1

@[simp] theorem kept_invalidateToken (state : State Cache) :
    service.kept (service.invalidateToken state) = none :=
  service.lru.get_delete state.cache tokenKey

@[simp] theorem log_invalidateToken (state : State Cache) :
    (service.invalidateToken state).log = state.log := rfl

theorem getCachedToken_kept {state : State Cache} {token : String}
    {cache : Cache}
    (hget : service.lru.get state.cache tokenKey = (some token, cache)) :
    service.getCachedToken state = (.ok token, { state with cache }) := by
  rw [getCachedToken, hget]

theorem getCachedToken_asked {state : State Cache} {cache : Cache}
    (hget : service.lru.get state.cache tokenKey = (none, cache)) :
    service.getCachedToken state =
      match service.accessToken state.log with
      | .error error => (.error error,
          ⟨cache, state.log ++ [.credential (.error error)]⟩)
      | .ok token => (.ok token,
          ⟨service.lru.set cache tokenKey token,
            state.log ++ [.credential (.ok token)]⟩) := by
  rw [getCachedToken, hget]
  change (match service.getAdminAccessToken ⟨cache, state.log⟩ with
    | (.error error, state) => (Except.error error, state)
    | (.ok newToken, state) => (.ok newToken,
        { state with cache := service.lru.set state.cache tokenKey newToken }))
    = _
  rw [getAdminAccessToken]
  cases service.accessToken state.log with
  | error error => rfl
  | ok token => rfl

/-- The events are answered by the token service and the network. -/
abbrev Given : List Event → List Event → Prop :=
  Retry.Given service.accessToken service.peers.fetch

theorem getCachedToken_cases (state : State Cache) :
    (∃ opening token after,
      Retry.Obtains (service.kept state) opening token ∧
      service.Given state.log opening ∧
      service.getCachedToken state = (.ok token, after) ∧
      after.log = state.log ++ opening) ∨
    ∃ error after, service.kept state = none ∧
      service.Given state.log [.credential (.error error)] ∧
      service.getCachedToken state = (.error error, after) ∧
      after.log = state.log ++ [.credential (.error error)] := by
  rw [kept]
  cases hget : service.lru.get state.cache tokenKey with
  | mk cached cache =>
      cases cached with
      | some token =>
          exact .inl ⟨[], token, _, .kept token, trivial,
            service.getCachedToken_kept hget, (List.append_nil _).symm⟩
      | none =>
          rw [service.getCachedToken_asked hget]
          cases htoken : service.accessToken state.log with
          | ok token =>
              exact .inl ⟨_, token, _, .asked token, ⟨htoken.symm, trivial⟩,
                rfl, rfl⟩
          | error error =>
              exact .inr ⟨error, _, rfl, ⟨htoken.symm, trivial⟩, rfl, rfl⟩

theorem doFetch_cases (endpoint : String) (options : RequestInit)
    (token : String) (state : State Cache) :
    (∃ error, service.request endpoint options token = .error error ∧
      service.doFetch endpoint options token state =
        (.error error, state.add (.unsent error))) ∨
    ∃ sent answer, service.request endpoint options token = .ok sent ∧
      answer = service.peers.fetch state.log sent ∧
      service.doFetch endpoint options token state =
        (answer, state.add (.call sent answer)) := by
  rw [doFetch]
  cases service.request endpoint options token with
  | error error => exact .inl ⟨error, rfl, rfl⟩
  | ok sent => exact .inr ⟨sent, _, rfl, rfl, rfl⟩

variable (endpoint : String) (options : RequestInit)

def Unauthorized (response : Response) : Prop := response.status = 401

instance : DecidablePred Unauthorized :=
  fun response => inferInstanceAs (Decidable (response.status = 401))

abbrev Course (state : State Cache) (budget : Nat) :
    List Event → Except Failure Response → Prop :=
  Retry.Course (service.request endpoint options) Unauthorized
    (service.kept state) budget

/-- A round is the last one, whatever budget is left, or its request was
answered with 401. -/
theorem round_cases (maxRetries attempt : Nat) (state : State Cache) :
    (∃ events after result,
      service.makeRequestWithAdminToken endpoint options maxRetries attempt
        state = (result, after) ∧
      after.log = state.log ++ events ∧ service.Given state.log events ∧
      ∀ budget, service.Course endpoint options state budget events result) ∨
    ∃ opening token sent response after,
      Retry.Obtains (service.kept state) opening token ∧
      service.request endpoint options token = .ok sent ∧
      Unauthorized response ∧
      after.log = state.log ++ opening ++ [.call sent (.ok response)] ∧
      service.Given state.log (opening ++ [.call sent (.ok response)]) ∧
      service.makeRequestWithAdminToken endpoint options maxRetries attempt
        state =
        if maxRetries ≤ attempt then
          (.error (gaveUp endpoint attempt response), after)
        else
          service.makeRequestWithAdminToken endpoint options maxRetries
            (attempt + 1) (service.invalidateToken after) := by
  rw [makeRequestWithAdminToken]
  rcases service.getCachedToken_cases state with
    ⟨opening, token, ready, obtains, hgiven, hready, hlog⟩ |
    ⟨error, after, hkept, hgiven, hfailed, hlog⟩
  · rw [hready]
    rcases service.doFetch_cases endpoint options token ready with
      ⟨error, hrequest, hunsent⟩ | ⟨sent, answer, hrequest, hfetch, hcall⟩
    · refine .inl ⟨opening ++ [.unsent error], ready.add (.unsent error),
        .error error, ?_, ?_, ?_, fun budget => .unsent obtains hrequest⟩
      · simp only [hunsent]
      · rw [State.add, hlog, List.append_assoc]
      · exact (Retry.given_append ..).mpr ⟨hgiven, trivial, trivial⟩
    · rw [hlog] at hfetch
      have hboth : service.Given state.log (opening ++ [.call sent answer]) :=
        (Retry.given_append ..).mpr ⟨hgiven, hfetch, trivial⟩
      have hafter : (ready.add (.call sent answer)).log =
          state.log ++ (opening ++ [.call sent answer]) := by
        rw [State.add, hlog, List.append_assoc]
      cases answer with
      | error error =>
          refine .inl ⟨_, _, .error error, ?_, hafter, hboth, fun budget =>
            .failed obtains hrequest⟩
          simp only [hcall]
      | ok response =>
          by_cases hstatus : response.status = 401
          · refine .inr ⟨opening, token, sent, response,
              ready.add (.call sent (.ok response)), obtains, hrequest, hstatus,
              hafter.trans (List.append_assoc ..).symm, hboth, ?_⟩
            simp [hcall, hstatus]
          · refine .inl ⟨_, _, .ok response, ?_, hafter, hboth, fun budget =>
              .answered obtains hrequest hstatus⟩
            simp [hcall, hstatus]
  · refine .inl ⟨_, after, .error error, ?_, hlog, hgiven, fun budget => ?_⟩
    · rw [hfailed]
    · rw [Course, hkept]
      exact .refused

theorem makeRequestWithAdminToken_course (maxRetries attempt budget : Nat)
    (state : State Cache) (hbudget : maxRetries = attempt + budget) :
    ∃ events after result,
      service.makeRequestWithAdminToken endpoint options maxRetries attempt
        state = (result, after) ∧
      after.log = state.log ++ events ∧ service.Given state.log events ∧
      service.Course endpoint options state budget events result := by
  induction budget generalizing attempt state with
  | zero =>
      rcases service.round_cases endpoint options maxRetries attempt state with
        ⟨events, after, result, hrun, hlog, hgiven, course⟩ |
        ⟨opening, token, sent, response, after, obtains, hrequest, hstatus,
          hlog, hgiven, hrun⟩
      · exact ⟨events, after, result, hrun, hlog, hgiven, course 0⟩
      · rw [if_pos (by omega)] at hrun
        exact ⟨_, after, _, hrun, hlog.trans (List.append_assoc ..), hgiven,
          .exhausted obtains hrequest hstatus⟩
  | succ budget ih =>
      rcases service.round_cases endpoint options maxRetries attempt state with
        ⟨events, after, result, hrun, hlog, hgiven, course⟩ |
        ⟨opening, token, sent, response, after, obtains, hrequest, hstatus,
          hlog, hgiven, hrun⟩
      · exact ⟨events, after, result, hrun, hlog, hgiven, course (budget + 1)⟩
      · rw [if_neg (by omega)] at hrun
        obtain ⟨events, last, result, hnext, hmore, hlater, course⟩ :=
          ih (attempt + 1) (service.invalidateToken after) (by omega)
        rw [Course, kept_invalidateToken] at course
        rw [log_invalidateToken, hlog, List.append_assoc] at hmore hlater
        refine ⟨opening ++ .call sent (.ok response) :: events, last, result,
          hrun.trans hnext, ?_, ?_, .again obtains hrequest hstatus course⟩
        · rw [hmore]
          simp only [List.append_assoc, List.singleton_append]
        · rw [List.append_cons]
          exact (Retry.given_append ..).mpr ⟨hgiven, hlater⟩

end Service

/-! What a call promises. -/

section Promises

variable (service : Service Cache Url) (endpoint : String)
  (options : RequestInit) (maxRetries : Nat) (state : State Cache)

/-- The events of a call with its result: what the token service and the
network are asked, in order, with what they answer. -/
structure Retries (events : List Event) (result : Except Failure Response) :
    Prop where
  given : service.Given state.log events
  first : ∀ before sent answer after,
    events = before ++ .call sent answer :: after →
      Retry.calls before = [] →
      ∃ token, Retry.Obtains (service.kept state) before token ∧
        sent.headers.lookup "Authorization" = some ("Bearer " ++ token)
  bounded : (Retry.calls events).length ≤ maxRetries + 1
  same : ∀ sent ∈ Retry.calls events,
    buildUrl service.urls service.config.matrix_server endpoint =
        some sent.url ∧
      sent.method = options.method ∧ sent.body = options.body
  resolves : ∀ response, result = .ok response ↔
    (Retry.arrived events).find? (fun response => response.status ≠ 401) =
      some response
  rejects : (∃ error, result = .error error) ↔
    (∃ event ∈ events, event.Fails) ∨
      ((Retry.arrived events).length = maxRetries + 1 ∧
        ∀ response ∈ Retry.arrived events, response.status = 401)
  renewed : ∀ before sent answer after,
    events = before ++ .call sent answer :: after →
      Retry.calls before ≠ [] →
      ∃ earlier previous refusal token,
        before = earlier ++ [.call previous (.ok refusal),
          .credential (.ok token)] ∧
        refusal.status = 401 ∧
        sent.headers.lookup "Authorization" = some ("Bearer " ++ token)

theorem request_spec {token : String} {sent : Request}
    (hsent : service.request endpoint options token = .ok sent) :
    buildUrl service.urls service.config.matrix_server endpoint =
        some sent.url ∧
      sent.method = options.method ∧ sent.body = options.body ∧
      sent.headers.lookup "Authorization" = some ("Bearer " ++ token) := by
  rw [Service.request] at hsent
  cases hurl : buildUrl service.urls service.config.matrix_server endpoint with
  | none => simp [hurl] at hsent
  | some url =>
      rw [hurl] at hsent
      injection hsent with hsent
      subst hsent
      exact ⟨rfl, rfl, rfl, by rw [Fields.lookup_put, if_pos rfl]⟩

end Promises

/-! A token that has gone stale, and a new one. -/

/-- A class whose URLs are their texts. -/
def textUrls : UrlClass String where
  parse := some
  resolve := fun path base => some (base ++ path)
  pathname := id
  withPathname := fun _ pathname => pathname
  href := id

def staleService : Service (Option (String × String)) String where
  config := ⟨"https://matrix.example.org", "admin", "secret"⟩
  peers := {
    getAccessTokenWithCreds := fun _ _ _ => .ok (some "new")
    fetch := fun _ request =>
      if request.headers.lookup "Authorization" = some "Bearer new" then
        .ok ⟨200, "OK", "done"⟩
      else .ok ⟨401, "Unauthorized", ""⟩ }
  lru := .oneEntry
  urls := textUrls

def staleState : State (Option (String × String)) :=
  ⟨some (tokenKey, "old"), []⟩

def sentWith (token : String) : Request :=
  ⟨"https://matrix.example.org/users", some "GET",
    [("Authorization", "Bearer " ++ token)], none⟩

theorem request_staleService (token : String) :
    staleService.request "/users" ⟨some "GET", none, none⟩ token =
      .ok (sentWith token) := by
  have hurl : buildUrl textUrls "https://matrix.example.org" "/users" =
      some "https://matrix.example.org/users" := by
    decide +kernel
  rw [Service.request]
  simp only [staleService, hurl]
  rfl

theorem doFetch_staleService (token : String)
    (state : State (Option (String × String))) :
    staleService.doFetch "/users" ⟨some "GET", none, none⟩ token state =
      (staleService.peers.fetch state.log (sentWith token),
        state.add (.call (sentWith token)
          (staleService.peers.fetch state.log (sentWith token)))) := by
  rw [Service.doFetch, request_staleService]

end AdminSettings

end TwakeKickstart.TomServer
