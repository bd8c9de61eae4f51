import TwakeKickstart.Library.Async
import TwakeKickstart.IdentityServer.Db.Store

namespace TwakeKickstart.IdentityServer

open Library

/-! What the handlers and the scheduled jobs ask of the world around them, and
how that world answers. -/

/-- The recipient of a verification mail and the parameters of the link that
`mailBody` writes into it. -/
structure Mail where
  dst : JsValue
  token : String
  clientSecret : JsValue
  sid : String

/-- The parts of the configuration that the modelled code reads. -/
structure Config where
  serverName : String
  hashesRateLimit : Nat
  additionalFeatures : Bool
  mailLinkDelay : Nat
  matrixServer : String
  isMatrixDbAvailable : Bool
  isFederatedIdentityServiceSet : Bool

def Config.sample : Config where
  serverName := "example.org"
  hashesRateLimit := 100
  additionalFeatures := false
  mailLinkDelay := 7200
  matrixServer := "matrix.example.org"
  isMatrixDbAvailable := false
  isFederatedIdentityServiceSet := false

inductive Effect where
  | db (call : DbCall)
  | epoch
  | send (status : Nat) (body : JsValue)
  | redirect (location : String)
  | sendMail (mail : Mail)
  | callback (data token : JsValue)
  | fetch (url : String) (authorization : Option String)
  | resolve (server : String)
  | post (server path : String) (body : JsValue)

namespace Effect

@[reducible] def Result : Effect → Type
  | db call => call.Result
  | epoch => Nat
  | send _ _ => Unit
  | redirect _ => Unit
  | sendMail _ => Unit
  | callback _ _ => Unit
  | fetch _ _ => Option JsValue
  | resolve _ => Option JsValue
  | post _ _ _ => Unit

end Effect

abbrev Procedure := Program Effect Effect.Result

/-- The code outside the repository: the database client, the hash and
signature primitives, the resolver of server names and the other servers.
`fetch` gives the decoded JSON body; `none` is a rejected promise. -/
structure Environment where
  driver : Driver
  sha256 : String → String
  signJson : JsValue → (privateKey serverName keyId : String) → JsValue
  parseUrl : String → Option String
  resolve : String → Option JsValue
  fetch : (url : String) → (authorization : Option String) → Option JsValue

/-- The text behind a stored hash. -/
def hashedText (value field pepper : String) : String :=
  value ++ " " ++ field ++ " " ++ pepper

/-- A SQLite deployment whose other servers do not answer. -/
def Environment.offline (sha256 : String → String) : Environment where
  driver := { engine := .sqlite, encode := fun value => value.text?.getD "" }
  sha256 := sha256
  signJson := fun body _ _ _ => body
  parseUrl := some
  resolve := fun _ => none
  fetch := fun _ _ => none

def emptyStore : Store := fun _ => []

structure World where
  store : Store
  sent : List (Nat × JsValue) := []
  redirects : List String := []
  mails : List Mail := []
  granted : List (JsValue × JsValue) := []

namespace World

def setTable (world : World) (table : Collections) (rows : List (Row table)) :
    World :=
  { world with store := Function.update world.store table rows }

section SetTable

variable (world : World) (table : Collections) (rows later : List (Row table))

@[simp] theorem setTable_same :
    (world.setTable table rows).store table = rows :=
  Function.update_self _ _ _

@[simp] theorem setTable_other {other : Collections} (h : other ≠ table) :
    (world.setTable table rows).store other = world.store other :=
  Function.update_of_ne h _ _

@[simp] theorem setTable_setTable :
    (world.setTable table rows).setTable table later =
      world.setTable table later := by
  simp [setTable]

@[simp] theorem setTable_self :
    world.setTable table (world.store table) = world := by
  simp [setTable]

@[simp] theorem setTable_sent :
    (world.setTable table rows).sent = world.sent := rfl

@[simp] theorem setTable_granted :
    (world.setTable table rows).granted = world.granted := rfl

@[simp] theorem setTable_mails :
    (world.setTable table rows).mails = world.mails := rfl

end SetTable

end World

/-- What the environment decides at one step: whether a database call is
refused, and the time. -/
structure Choice where
  fails : Bool
  now : Nat

def DbCall.refused : (call : DbCall) → call.Result
  | .get _ _ _ => none
  | .insert _ _ => none
  | .update _ _ _ _ => none
  | .updateAnd _ _ _ _ => none
  | .deleteEqual _ _ _ => none
  | .deleteEqualAnd _ _ _ => none

def handle (env : Environment) (choice : Choice) :
    Handler Effect Effect.Result World
  | .db call, world =>
      if choice.fails then (call.refused, world)
      else
        let (result, store) := execute env.driver call world.store
        (result, { world with store })
  | .epoch, world => (choice.now, world)
  | .send status body, world =>
      ((), { world with sent := world.sent ++ [(status, body)] })
  | .redirect location, world =>
      ((), { world with redirects := world.redirects ++ [location] })
  | .sendMail mail, world =>
      ((), { world with mails := world.mails ++ [mail] })
  | .callback data token, world =>
      ((), { world with granted := world.granted ++ [(data, token)] })
  | .fetch url authorization, world => (env.fetch url authorization, world)
  | .resolve server, world => (env.resolve server, world)
  | .post _ _ _, world => ((), world)

/-- A complete run in which no database call is refused. -/
def serve (env : Environment) (now : Nat) (procedure : Procedure)
    (world : World) : World :=
  procedure.run (handle env ⟨false, now⟩) world

def reply (status : Nat) (body : JsValue) : Procedure :=
  .perform (.send status body) fun _ => .done

section Serve

variable (env : Environment) (now : Nat) (world : World)

@[simp] theorem serve_done : serve env now .done world = world := rfl

@[simp] theorem serve_db (call : DbCall) (next : call.Result → Procedure) :
    serve env now (.perform (.db call) next) world =
      serve env now (next (execute env.driver call world.store).1)
        { world with store := (execute env.driver call world.store).2 } :=
  rfl

@[simp] theorem serve_epoch (next : Nat → Procedure) :
    serve env now (.perform .epoch next) world =
      serve env now (next now) world :=
  rfl

@[simp] theorem serve_send (status : Nat) (body : JsValue)
    (next : Unit → Procedure) :
    serve env now (.perform (.send status body) next) world =
      serve env now (next ())
        { world with sent := world.sent ++ [(status, body)] } :=
  rfl

@[simp] theorem serve_reply (status : Nat) (body : JsValue) :
    serve env now (reply status body) world =
      { world with sent := world.sent ++ [(status, body)] } :=
  rfl

@[simp] theorem serve_callback (data token : JsValue)
    (next : Unit → Procedure) :
    serve env now (.perform (.callback data token) next) world =
      serve env now (next ())
        { world with granted := world.granted ++ [(data, token)] } :=
  rfl

@[simp] theorem serve_fetch (url : String) (authorization : Option String)
    (next : Option JsValue → Procedure) :
    serve env now (.perform (.fetch url authorization) next) world =
      serve env now (next (env.fetch url authorization)) world :=
  rfl

@[simp] theorem serve_resolve (server : String)
    (next : Option JsValue → Procedure) :
    serve env now (.perform (.resolve server) next) world =
      serve env now (next (env.resolve server)) world :=
  rfl

@[simp] theorem serve_post (server path : String) (body : JsValue)
    (next : Unit → Procedure) :
    serve env now (.perform (.post server path body) next) world =
      serve env now (next ()) world :=
  rfl

@[simp] theorem serve_fork (child rest : Procedure) :
    serve env now (.fork child rest) world =
      serve env now rest (serve env now child world) :=
  rfl

end Serve

end TwakeKickstart.IdentityServer
