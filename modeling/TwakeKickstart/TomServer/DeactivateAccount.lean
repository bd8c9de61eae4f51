import TwakeKickstart.Library.Script
import TwakeKickstart.TomServer.AdminUrls

namespace TwakeKickstart.TomServer

open Library

/-! The deactivation of an account: the middleware, the controller and the
service behind it. -/

namespace DeactivateAccount

structure Config where
  matrix_server : String
  matrix_admin_login : String
  matrix_admin_password : String
  admin_access_token : String

structure Fetch where
  url : String
  method : String
  headers : List (String × String)
  body : Option JsObject := none

inductive Command where
  | get (table : String) (fields : List String) (filter : String × String)
  | getAccessTokenWithCreds (username password : String)
  | fetch (request : Fetch)

/-- The rows, unless the query fails; what the token service gives, or the error
it throws; whether there is a response, whatever it says. -/
@[reducible] def Answer : Command → Type
  | .get _ _ _ => Option (List JsObject)
  | .getAccessTokenWithCreds _ _ => Except String (Option String)
  | .fetch _ => Bool

abbrev Service (α : Type) := Script Command Answer α

abbrev Log := Script.Log Command Answer

/-- The header `x-access-token` and the parameter of the path. -/
structure Call where
  accessToken : Option String
  id : String

/-- A message is an answer, an error goes to the error handler of the server,
and where a query of the middleware fails there is no answer. -/
inductive Reply where
  | json (status : Nat) (message : String)
  | next (error : String)
  | none

section Handler

variable {Url : Type} (urls : UrlClass Url) (conf : Config)

/-- A request with a token; `none` where it throws. -/
def adminRequest (operation : AdminUrls.Operation) (userId token : String)
    (request : String → String → Fetch) : Option Fetch :=
  (buildUrl urls conf.matrix_server (operation.path userId)).map fun url =>
    request url ("Bearer " ++ token)

def mediaRequest (url authorization : String) : Fetch where
  url := url
  method := "DELETE"
  headers := [("Authorization", authorization)]

def deactivateRequest (url authorization : String) : Fetch where
  url := url
  method := "POST"
  headers := [("Authorization", authorization),
    ("Content-Type", "application/json")]
  body := some [("erase", .bool true)]

/-- What becomes of the request is only logged. -/
def deleteUserMedia (userId token : String) : Service Unit :=
  match adminRequest urls conf .deleteUserMedia userId token mediaRequest with
  | some request => do
      let _ ← Script.ask (Command.fetch request)
      return ()
  | none => return ()

def disableUserAccount (userId token : String) :
    Service (Except String Unit) :=
  match adminRequest urls conf .disableUserAccount userId token
      deactivateRequest with
  | some request => do
      let answered ← Script.ask (Command.fetch request)
      return if answered then .ok () else .error "Failed to deactivate user"
  | none => return .error "Failed to deactivate user"

@[reducible] def adminToken : Command :=
  .getAccessTokenWithCreds conf.matrix_admin_login conf.matrix_admin_password

def removeAccount (userId : String) : Service (Except String Unit) := do
  match ← Script.ask (adminToken conf) with
  | .error error => return .error error
  | .ok none => return .error "Failed to get access token"
  | .ok (some token) =>
      if token = "" then return .error "Failed to get access token"
      deleteUserMedia urls conf userId token
      disableUserAccount urls conf userId token

def handle (call : Call) : Service Reply := do
  if call.id = "" then return .json 400 "Missing user ID"
  match ← removeAccount urls conf call.id with
  | .ok _ => return .json 200 "User deactivated"
  | .error error => return .next error

def Authorized (call : Call) : Prop :=
  call.accessToken = some conf.admin_access_token ∧
    conf.admin_access_token ≠ ""

instance (call : Call) : Decidable (Authorized conf call) :=
  inferInstanceAs (Decidable (_ ∧ _))

def checkAccessToken (call : Call) (next : Service Reply) : Service Reply :=
  if Authorized conf call then next else return .json 401 "Unauthorized"

def isDeactivated (user : JsObject) : Bool :=
  ((user.lookup "deactivated").getD .undefined).strictEq (.num 1)

@[reducible] def erasedQuery (userId : String) : Command :=
  .get "erased_users" ["*"] ("user_id", userId)

@[reducible] def userQuery (userId : String) : Command :=
  .get "users" ["deactivated"] ("name", userId)

def checkUserExists (call : Call) (next : Service Reply) : Service Reply := do
  if call.id = "" then return .json 400 "Missing user ID"
  match ← Script.ask (erasedQuery call.id) with
  | none => return .none
  | some (_ :: _) => return .json 400 "User is already erased"
  | some [] =>
      match ← Script.ask (userQuery call.id) with
      | none => return .none
      | some [] => return .json 404 "User not found"
      | some (user :: _) =>
          if isDeactivated user then
            return .json 400 "User is already deactivated"
          else next

def deactivateUser (call : Call) : Service Reply :=
  checkAccessToken conf call (checkUserExists call (handle urls conf call))

/-! What a run does. -/

variable (userId : String)

/-- The user is one that may be deactivated. -/
def Checked (log : Log) : Prop :=
  ∃ user users, isDeactivated user = false ∧
    log = [⟨erasedQuery userId, some []⟩,
      ⟨userQuery userId, some (user :: users)⟩]

/-- The token service has given a token for the administrator. -/
def LoggedIn (token : String) (log : Log) : Prop :=
  token ≠ "" ∧ ∃ checks, Checked userId checks ∧
    log = checks ++ [⟨adminToken conf, .ok (some token)⟩]

/-- The media have been asked to be deleted, where there is a URL for that. -/
def Attempted (token : String) (log : Log) : Prop :=
  match adminRequest urls conf .deleteUserMedia userId token mediaRequest with
  | some request => ∃ answered, log = [⟨.fetch request, answered⟩]
  | none => log = []

/-- What may be sent, and when. -/
inductive Permitted : Log → Command → Prop
  | erased : Permitted [] (erasedQuery userId)
  | user : Permitted [⟨erasedQuery userId, some []⟩] (userQuery userId)
  | token {checks : Log} :
      Checked userId checks → Permitted checks (adminToken conf)
  | media {session : Log} {token : String} {request : Fetch} :
      LoggedIn conf userId token session →
      adminRequest urls conf .deleteUserMedia userId token mediaRequest =
        some request →
      Permitted session (.fetch request)
  | disable {session media : Log} {token : String} {request : Fetch} :
      LoggedIn conf userId token session →
      Attempted urls conf userId token media →
      adminRequest urls conf .disableUserAccount userId token
        deactivateRequest = some request →
      Permitted (session ++ media) (.fetch request)

/-- The homeserver has answered the request to disable the account. -/
def Disables : Script.Entry Command Answer → Prop
  | ⟨.fetch request, true⟩ => ∃ token,
      adminRequest urls conf .disableUserAccount userId token
        deactivateRequest = some request
  | _ => False

/-- It ends as said when the account has been disabled, and not before. -/
def Tells {α : Type} (said outcome : Script.Outcome α) (log : Log) : Prop :=
  outcome = said ↔ ∃ entry ∈ log, Disables urls conf userId entry

/-- The reply tells it. -/
abbrev Told : Script.Outcome Reply → Log → Prop :=
  Tells urls conf userId (.done (.json 200 "User deactivated"))

section Steps

variable {urls conf userId} {permits : Log → Command → Prop} {log : Log}
variable {token : String}

theorem Checked.silent (checked : Checked userId log) :
    Script.Sound (Disables urls conf userId) log := by
  obtain ⟨user, users, _, rfl⟩ := checked
  exact List.forall_mem_cons.mpr ⟨id, List.forall_mem_singleton.mpr id⟩

theorem LoggedIn.silent (loggedIn : LoggedIn conf userId token log) :
    Script.Sound (Disables urls conf userId) log := by
  obtain ⟨_, checks, checked, rfl⟩ := loggedIn
  exact checked.silent.append (List.forall_mem_singleton.mpr id)

theorem not_disables_media {request : Fetch} {answered : Bool}
    (h : adminRequest urls conf .deleteUserMedia userId token mediaRequest =
      some request) :
    ¬ Disables urls conf userId ⟨.fetch request, answered⟩ := by
  obtain ⟨url, _, rfl⟩ := Option.map_eq_some_iff.mp h
  cases answered with
  | false => exact id
  | true =>
      rintro ⟨token, hdisable⟩
      obtain ⟨url, _, heq⟩ := Option.map_eq_some_iff.mp hdisable
      have hmethod : "POST" = "DELETE" := congrArg Fetch.method heq
      exact absurd hmethod (by decide)

theorem Attempted.silent (attempted : Attempted urls conf userId token log) :
    Script.Sound (Disables urls conf userId) log := by
  unfold Attempted at attempted
  split at attempted
  · rename_i request hrequest
    obtain ⟨answered, rfl⟩ := attempted
    exact List.forall_mem_singleton.mpr (not_disables_media hrequest)
  · subst attempted
    exact Script.sound_nil

theorem tells_of_silent {α : Type} {said outcome : Script.Outcome α}
    (unsaid : outcome ≠ said)
    (silent : Script.Sound (Disables urls conf userId) log) :
    Tells urls conf userId said outcome log :=
  iff_of_false unsaid fun ⟨entry, hentry, h⟩ => silent entry hentry h

theorem deleteUserMedia_meets
    (permitted : ∀ request,
      adminRequest urls conf .deleteUserMedia userId token mediaRequest =
        some request → permits log (.fetch request)) :
    (deleteUserMedia urls conf userId token).Meets permits log
      fun outcome after => outcome = .done () ∧
        ∃ media, Attempted urls conf userId token media ∧
          after = log ++ media := by
  unfold deleteUserMedia Attempted
  split
  · rename_i request hrequest
    refine Script.meets_bind.mpr
      (Script.meets_ask.mpr ⟨permitted request hrequest, ?_⟩)
    exact fun answered => ⟨rfl, _, ⟨answered, rfl⟩, rfl⟩
  · exact ⟨rfl, [], rfl, (List.append_nil log).symm⟩

theorem disableUserAccount_meets
    (permitted : ∀ request,
      adminRequest urls conf .disableUserAccount userId token
        deactivateRequest = some request → permits log (.fetch request))
    (silent : Script.Sound (Disables urls conf userId) log) :
    (disableUserAccount urls conf userId token).Meets permits log
      (Tells urls conf userId (.done (.ok ()))) := by
  unfold disableUserAccount
  split
  · rename_i request hrequest
    refine Script.meets_bind.mpr
      (Script.meets_ask.mpr ⟨permitted request hrequest, ?_⟩)
    intro answered
    cases answered with
    | false =>
        refine tells_of_silent nofun (silent.append ?_)
        exact List.forall_mem_singleton.mpr id
    | true =>
        refine iff_of_true rfl
          ⟨⟨.fetch request, true⟩, ?_, token, hrequest⟩
        exact List.mem_append_right log (List.mem_singleton_self _)
  · exact tells_of_silent nofun silent

theorem removeAccount_meets (checked : Checked userId log)
    (permitted : ∀ log command,
      Permitted urls conf userId log command → permits log command) :
    (removeAccount urls conf userId).Meets permits log
      (Tells urls conf userId (.done (.ok ()))) := by
  refine Script.meets_bind.mpr
    (Script.meets_ask.mpr ⟨permitted _ _ (.token checked), ?_⟩)
  intro answer
  have silent : Script.Sound (Disables urls conf userId)
      (log ++ [⟨adminToken conf, answer⟩]) :=
    checked.silent.append (List.forall_mem_singleton.mpr id)
  match answer with
  | .error error => exact tells_of_silent nofun silent
  | .ok none => exact tells_of_silent nofun silent
  | .ok (some token) =>
      dsimp only [Script.Outcome.andThen]
      split
      · exact tells_of_silent nofun silent
      · rename_i hempty
        have loggedIn : LoggedIn conf userId token
            (log ++ [⟨adminToken conf, .ok (some token)⟩]) :=
          ⟨hempty, log, checked, rfl⟩
        refine Script.meets_bind.mpr ((deleteUserMedia_meets
          fun request h => permitted _ _ (.media loggedIn h)).mono ?_)
        rintro _ _ ⟨rfl, media, attempted, rfl⟩
        exact disableUserAccount_meets
          (fun request h => permitted _ _ (.disable loggedIn attempted h))
          (silent.append attempted.silent)

theorem handle_meets {call : Call} (checked : Checked call.id log)
    (permitted : ∀ log command,
      Permitted urls conf call.id log command → permits log command) :
    (handle urls conf call).Meets permits log (Told urls conf call.id) := by
  unfold handle
  split
  · exact tells_of_silent nofun checked.silent
  · refine Script.meets_bind.mpr
      ((removeAccount_meets checked permitted).mono ?_)
    rintro (result | status) after tells
    · cases result with
      | ok _ => exact iff_of_true rfl (tells.mp rfl)
      | error error => exact iff_of_false nofun fun h => nomatch tells.mpr h
    · exact iff_of_false nofun fun h => nomatch tells.mpr h

theorem checkUserExists_meets {call : Call} {next : Service Reply}
    (permitted : ∀ log command,
      Permitted urls conf call.id log command → permits log command)
    (onward : ∀ checks, Checked call.id checks →
      next.Meets permits checks (Told urls conf call.id)) :
    (checkUserExists call next).Meets permits [] (Told urls conf call.id) := by
  unfold checkUserExists
  split
  · exact tells_of_silent nofun Script.sound_nil
  refine Script.meets_bind.mpr
    (Script.meets_ask.mpr ⟨permitted _ _ .erased, ?_⟩)
  intro erased
  have silent : Script.Sound (Disables urls conf call.id)
      [⟨erasedQuery call.id, erased⟩] := List.forall_mem_singleton.mpr id
  match erased with
  | none => exact tells_of_silent nofun silent
  | some (_ :: _) => exact tells_of_silent nofun silent
  | some [] =>
      refine Script.meets_bind.mpr
        (Script.meets_ask.mpr ⟨permitted _ _ .user, ?_⟩)
      intro users
      replace silent : Script.Sound (Disables urls conf call.id)
          [⟨erasedQuery call.id, some []⟩, ⟨userQuery call.id, users⟩] :=
        silent.append (List.forall_mem_singleton.mpr id)
      match users with
      | none => exact tells_of_silent nofun silent
      | some [] => exact tells_of_silent nofun silent
      | some (user :: users) =>
          dsimp only [Script.Outcome.andThen]
          split
          · exact tells_of_silent nofun silent
          · rename_i active
            exact onward _ ⟨user, users, Bool.eq_false_iff.mpr active, rfl⟩

end Steps

section Run

variable {urls conf} {call : Call}

theorem deactivateUser_meets : (deactivateUser urls conf call).Meets
    (fun log command => Authorized conf call ∧
      Permitted urls conf call.id log command) []
    (Told urls conf call.id) := by
  unfold deactivateUser checkAccessToken
  split
  · rename_i authorized
    refine checkUserExists_meets (fun _ _ h => ⟨authorized, h⟩) ?_
    exact fun checks checked =>
      handle_meets checked fun _ _ h => ⟨authorized, h⟩
  · exact tells_of_silent nofun Script.sound_nil

/-- Whatever the database, the token service and the homeserver answer, each
step is taken for a caller that is authorised, and in its place. -/
theorem deactivateUser_permitted
    {environment : Script.Environment Command Answer} {before after : Log}
    {entry : Script.Entry Command Answer}
    (h : ((deactivateUser urls conf call).run environment []).2 =
      before ++ entry :: after) :
    Authorized conf call ∧ Permitted urls conf call.id before entry.1 :=
  (deactivateUser_meets.run environment).2 before entry after h

/-- Everything is answered as it is to be. -/
def answering : Script.Environment Command Answer
  | _, .get table _ _ => some (if table = "users" then [[]] else [])
  | _, .getAccessTokenWithCreds _ _ => .ok (some "token")
  | _, .fetch _ => true

def twake : Config := ⟨"matrix.org", "admin", "secret", "key"⟩

def deactivateAlice : Call := ⟨some "key", "@alice:matrix.org"⟩

def aliceLog : Log :=
  ((deactivateUser (AdminUrls.urlClass Library.Url.Authorities.verbatim) twake
    deactivateAlice).run answering []).2

theorem alice_deactivated : ∃ last, aliceLog = aliceLog.take 4 ++ [last] ∧
    Authorized twake deactivateAlice ∧
      Permitted (AdminUrls.urlClass Library.Url.Authorities.verbatim) twake
        deactivateAlice.id (aliceLog.take 4) last.1 := by
  have hlength : (aliceLog.drop 4).length = 1 := by decide +kernel
  obtain ⟨last, hlast⟩ := List.length_eq_one_iff.mp hlength
  have hlog := List.take_append_drop 4 aliceLog
  rw [hlast] at hlog
  exact ⟨last, hlog.symm, deactivateUser_permitted hlog.symm⟩

/-- The reply tells that the user is deactivated when the homeserver has
answered, with whatever status, the request for it, and at no other time. -/
theorem user_deactivated_iff
    (environment : Script.Environment Command Answer) :
    ((deactivateUser urls conf call).run environment []).1 =
        .done (.json 200 "User deactivated") ↔
      ∃ entry ∈ ((deactivateUser urls conf call).run environment []).2,
        Disables urls conf call.id entry :=
  (deactivateUser_meets.run environment).1

end Run

end Handler

end DeactivateAccount

end TwakeKickstart.TomServer
