import TwakeKickstart.Library.EventLoop
import TwakeKickstart.IdentityServer.Db.Filter

namespace TwakeKickstart.TomServer.Invitations

open Library
open IdentityServer (Filter getStatement)

/-! `InvitationService.accept` with the middleware in front of it: the table of
the invitations, the calls to the Matrix server, and what each reply sets
going. -/

/-- A row of `invitations`.  `expiration` is the decimal text that
`_createInvitation` writes. -/
structure Invitation where
  id : String
  sender : String
  recipient : Option String
  medium : Option String
  expiration : Nat
  accessed : Option Int
  matrixId : Option String
  deriving DecidableEq

structure InvitationResponse where
  id : String
  sender : String
  recipient : Option String
  medium : Option String
  expiration : Nat
  accessed : Bool
  matrixId : Option String
  deriving DecidableEq

def Invitation.cell (row : Invitation) : String → Cell
  | "id" => .text row.id
  | "sender" => .text row.sender
  | "recipient" => row.recipient.elim .null .text
  | "medium" => row.medium.elim .null .text
  | "expiration" => .text (toString row.expiration)
  | "accessed" => row.accessed.elim .null .int
  | "matrix_id" => row.matrixId.elim .null .text
  | _ => .null

def Invitation.isAccessed (row : Invitation) : Bool :=
  row.accessed.any (· != 0)

def Invitation.response (row : Invitation) : InvitationResponse where
  id := row.id
  sender := row.sender
  recipient := row.recipient
  medium := row.medium
  expiration := row.expiration
  accessed := row.isAccessed
  matrixId := row.matrixId

@[simp] theorem response_id (row : Invitation) : row.response.id = row.id := rfl

@[simp] theorem response_sender (row : Invitation) :
    row.response.sender = row.sender := rfl

@[simp] theorem response_recipient (row : Invitation) :
    row.response.recipient = row.recipient := rfl

@[simp] theorem response_expiration (row : Invitation) :
    row.response.expiration = row.expiration := rfl

@[simp] theorem response_accessed (row : Invitation) :
    row.response.accessed = row.isAccessed := rfl

/-- `db.get` on the table. -/
def getInvitations (filter : Filter) (table : List Invitation) :
    Option (List Invitation) :=
  (getStatement ["*"] filter).map fun statement =>
    table.filter fun row => statement.selects row.cell

/-- `db.update` of the row that has the ID. -/
def updateInvitation (userId id : String) (table : List Invitation) :
    List Invitation :=
  table.map fun row =>
    if (row.cell "id").same (.text id) then
      { row with accessed := some 1, matrixId := some userId }
    else row

/-- One call of `accept`; `number` tells the calls apart. -/
structure Request where
  number : Nat
  id : String
  userId : String
  authorization : String
  deriving DecidableEq

inductive Operation where
  | checkInvitation (request : Request)
  | getInvitationById (request : Request)
  | listPending (request : Request) (address : String)
  | createPrivateChat (request : Request) (invitation : InvitationResponse)
      (awaited : Bool)
  | markAsDirectMessage (request : Request) (invitation : InvitationResponse)
      (awaited : Bool) (room : String)
  | update (request : Request) (invitation : InvitationResponse)
      (awaited : Bool)
  deriving DecidableEq

def Operation.request : Operation → Request
  | .checkInvitation request => request
  | .getInvitationById request => request
  | .listPending request _ => request
  | .createPrivateChat request _ _ => request
  | .markAsDirectMessage request _ _ _ => request
  | .update request _ _ => request

def Operation.isQuery : Operation → Bool
  | .createPrivateChat _ _ _ => false
  | .markAsDirectMessage _ _ _ _ => false
  | .update _ _ _ => false
  | _ => true

/-- How an operation ends.  A call that fails may have been carried out all the
same; `clock` gives the time at each reading. -/
structure Outcome where
  fails : Bool := false
  applied : Bool := false
  room : String := ""
  clock : Nat → Nat

def Outcome.effective (outcome : Outcome) : Bool :=
  !outcome.fails || outcome.applied

def Outcome.answered (now : Nat) (room : String) : Outcome where
  room := room
  clock := fun _ => now

inductive Answer where
  | refused (status : Nat) (message : String)
  | resolved
  | rejected (message : String)
  deriving DecidableEq

/-- The end of a call, with the table at that time. -/
structure Ended where
  request : Request
  answer : Answer
  table : List Invitation

structure PrivateChat where
  request : Request
  invitation : InvitationResponse
  room : String

structure Mark where
  request : Request
  invitation : InvitationResponse

/-- The `m.direct` document of a user: the rooms for each other user. -/
abbrev DirectRooms := List (String × List String)

/-- The table and the account data, and what has happened so far: the table at
the start of each call, the rooms created, the rows marked, the operations that
failed, the calls ended. -/
structure Vars where
  table : List Invitation
  direct : String → DirectRooms
  started : List (List Invitation) := []
  rooms : List PrivateChat := []
  marks : List Mark := []
  failed : List Operation := []
  ended : List Ended := []

abbrev AcceptLoop := Loop Operation Vars

def Vars.answer (vars : Vars) (request : Request) (answer : Answer) : Vars :=
  { vars with ended := vars.ended ++ [⟨request, answer, vars.table⟩] }

/-- `accept` runs into its `catch`. -/
def Vars.reject (vars : Vars) (request : Request) : Vars :=
  vars.answer request (.rejected "Failed to accept invitation")

/-- `_processInvitation` has returned, also after an error. -/
def Vars.processed (vars : Vars) (request : Request) (awaited : Bool) : Vars :=
  if awaited then vars.answer request .resolved else vars

def truthy (text : Option String) : Bool := text.any (· != "")

def processInvitation (request : Request) (awaited : Bool) (now : Nat)
    (invitation : InvitationResponse) : List Operation :=
  if invitation.expiration < now then []
  else [.createPrivateChat request invitation awaited]

/-- The loop of `_processInvitationsToAddress`, which awaits none of its
calls. -/
def processEach (request : Request) (clock : Nat → Nat) :
    List InvitationResponse → List Operation
  | [] => []
  | invitation :: rest =>
      processInvitation request false (clock 0) invitation ++
        processEach request (fun reading => clock (reading + 1)) rest

def pendingToAddress (address : String) (rows : List Invitation) :
    List InvitationResponse :=
  (rows.filter fun row =>
    !row.isAccessed && row.recipient == some address).map Invitation.response

/-- The middleware `checkInvitation` and the controller, once the row is
read. -/
def onCheck (request : Request) (now : Nat) (rows : Option (List Invitation))
    (vars : Vars) : Vars × List Operation :=
  if request.id = "" then
    (vars.answer request (.refused 400 "Invitation id is required"), [])
  else
    match rows with
    | none => (vars.answer request (.refused 400 "Invalid invitation"), [])
    | some [] => (vars.answer request (.refused 404 "Invitation not found"), [])
    | some (row :: _) =>
        if request.userId = row.sender then
          (vars.answer request
            (.refused 400 "You cannot accept your own invitation"), [])
        else if row.expiration < now then
          (vars.answer request (.refused 400 "Invitation expired"), [])
        else if request.authorization = "" then
          (vars.answer request
            (.refused 400 "Authorization header is required"), [])
        else if request.userId = "" then
          (vars.answer request (.refused 400 "User id is required"), [])
        else (vars, [.getInvitationById request])

/-- `accept`, once `_getInvitationById` has its rows. -/
def onInvitation (request : Request) (clock : Nat → Nat)
    (rows : Option (List Invitation)) (vars : Vars) : Vars × List Operation :=
  match rows with
  | some (row :: _) =>
      let invitation := row.response
      if invitation.expiration < clock 0 then (vars.reject request, [])
      else if invitation.accessed then (vars.reject request, [])
      else if truthy invitation.recipient then
        (vars, [.listPending request (invitation.recipient.getD "")])
      else
        match processInvitation request true (clock 1) invitation with
        | [] => (vars.processed request true, [])
        | issued => (vars, issued)
  | _ => (vars.reject request, [])

def onPending (request : Request) (address : String) (clock : Nat → Nat)
    (rows : Option (List Invitation)) (vars : Vars) : Vars × List Operation :=
  match rows with
  | none => (vars.reject request, [])
  | some rows =>
      (vars.answer request .resolved,
        processEach request clock (pendingToAddress address rows))

def onRoom (request : Request) (invitation : InvitationResponse)
    (awaited : Bool) (outcome : Outcome) (vars : Vars) :
    Vars × List Operation :=
  let vars :=
    if outcome.effective then
      { vars with
        rooms := vars.rooms ++ [⟨request, invitation, outcome.room⟩] }
    else vars
  if outcome.fails then (vars.processed request awaited, [])
  else
    (vars, [.markAsDirectMessage request invitation awaited outcome.room])

/-- The `PUT` replaces the whole document. -/
def onDirect (request : Request) (invitation : InvitationResponse)
    (awaited : Bool) (room : String) (outcome : Outcome) (vars : Vars) :
    Vars × List Operation :=
  let vars :=
    if outcome.effective then
      { vars with
        direct := Function.update vars.direct request.userId
          [(invitation.sender, [room])] }
    else vars
  if outcome.fails then (vars.processed request awaited, [])
  else (vars, [.update request invitation awaited])

def onUpdate (request : Request) (invitation : InvitationResponse)
    (awaited : Bool) (outcome : Outcome) (vars : Vars) :
    Vars × List Operation :=
  let vars :=
    if outcome.effective then
      { vars with
        table := updateInvitation request.userId invitation.id vars.table
        marks := vars.marks ++ [⟨request, invitation⟩] }
    else vars
  (vars.processed request awaited, [])

def select (outcome : Outcome) (filter : Filter) (vars : Vars) :
    Option (List Invitation) :=
  if outcome.fails then none else getInvitations filter vars.table

def reply (outcome : Outcome) : Operation → Vars → Vars × List Operation
  | .checkInvitation request, vars =>
      onCheck request (outcome.clock 0)
        (select outcome [("id", .str request.id)] vars) vars
  | .getInvitationById request, vars =>
      onInvitation request outcome.clock
        (select outcome [("id", .str request.id)] vars) vars
  | .listPending request address, vars =>
      onPending request address outcome.clock
        (select outcome [("recipient", .str address)] vars) vars
  | .createPrivateChat request invitation awaited, vars =>
      onRoom request invitation awaited outcome vars
  | .markAsDirectMessage request invitation awaited room, vars =>
      onDirect request invitation awaited room outcome vars
  | .update request invitation awaited, vars =>
      onUpdate request invitation awaited outcome vars

def react (outcome : Outcome) (operation : Operation) (vars : Vars) :
    Vars × List Operation :=
  let next := reply outcome operation vars
  ({ next.1 with
    failed := next.1.failed ++ if outcome.fails then [operation] else [] },
    next.2)

/-- A call begins, at the endpoint or in the service, or an operation that is
under way completes. -/
inductive Event where
  | request (id userId authorization : String)
  | accept (id userId authorization : String)
  | complete (index : Nat) (outcome : Outcome)

/-- A call begins with its first query. -/
def AcceptLoop.begin (loop : AcceptLoop) (first : Operation) : AcceptLoop where
  vars := { loop.vars with
    started := loop.vars.started ++ [loop.vars.table] }
  pending := loop.pending ++ [first]

def step (loop : AcceptLoop) : Event → Option AcceptLoop
  | .request id userId authorization =>
      some (AcceptLoop.begin loop (.checkInvitation
        ⟨loop.vars.started.length, id, userId, authorization⟩))
  | .accept id userId authorization =>
      some (AcceptLoop.begin loop (.getInvitationById
        ⟨loop.vars.started.length, id, userId, authorization⟩))
  | .complete index outcome => loop.complete react index outcome

/-- No call is under way, and nothing has happened yet. -/
def startLoop (table : List Invitation) (direct : String → DirectRooms) :
    AcceptLoop where
  vars := { table, direct }
  pending := []

/-! One call alone: what becomes of each of its operations is given. -/

abbrev Plan := Operation → Outcome

def Follows (plan : Plan) (loop : AcceptLoop) : Event → Prop
  | .complete index outcome => ∀ operation,
      loop.pending[index]? = some operation → outcome = plan operation
  | _ => False

def oneCall (first : Operation) (table : List Invitation)
    (direct : String → DirectRooms) : AcceptLoop :=
  AcceptLoop.begin (startLoop table direct) first

/-- The operations that are completed one after the other. -/
def runPlan (plan : Plan) : List Nat → AcceptLoop → Option AcceptLoop
  | [], loop => some loop
  | index :: rest, loop =>
      match loop.pending[index]? with
      | none => none
      | some operation =>
          (step loop (.complete index (plan operation))).bind
            (runPlan plan rest)

theorem reachable_of_runPlan {plan : Plan} {indices : List Nat}
    {start loop final : AcceptLoop}
    (reached : Reachable step (Follows plan) start loop)
    (h : runPlan plan indices loop = some final) :
    Reachable step (Follows plan) start final := by
  induction indices generalizing loop with
  | nil =>
      cases h
      exact reached
  | cons index rest ih =>
      unfold runPlan at h
      split at h
      · cases h
      · rename_i operation hoperation
        obtain ⟨next, hstep, hrest⟩ := Option.bind_eq_some_iff.mp h
        refine ih (.tail reached ?_ hstep) hrest
        intro other hother
        rw [hoperation] at hother
        cases hother
        rfl

/-- The row that is read for the ID. -/
def firstRow (id : String) (table : List Invitation) : Option Invitation :=
  (getInvitations [("id", .str id)] table).bind List.head?

end TwakeKickstart.TomServer.Invitations
