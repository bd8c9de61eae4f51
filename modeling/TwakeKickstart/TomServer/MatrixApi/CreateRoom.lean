import TwakeKickstart.IdentityServer.Cron.UpdateUsers
import TwakeKickstart.Library.Heap

namespace TwakeKickstart.TomServer.CreateRoom

open Library Heap

/-! `RoomService`: a room is created with the power levels of a template, and
its owner is demoted afterwards.  The configuration and the payload are objects
on the heap. -/

mutual
/-- `String(value)`; `none` when it throws. -/
def text? : Json → Option String
  | .null => some "null"
  | .bool b => some (if b then "true" else "false")
  | .num n => some (toString n)
  | .str s => some s
  | .arr items => (itemTexts? items).map (",".intercalate)
  | .obj fields =>
      if fields.any (·.1 == "toString") then none
      else some "[object Object]"

def itemTexts? : List Json → Option (List String)
  | [] => some []
  | .null :: rest => (itemTexts? rest).map ("" :: ·)
  | item :: rest =>
      (text? item).bind fun head => (itemTexts? rest).map (head :: ·)
end

/-- `value ?? default` -/
def orElse (value : Option Value) (default : Value) : Value :=
  match value with
  | none => default
  | some .null => default
  | some value => value

def utf16Length (s : String) : Nat :=
  s.toList.foldl (fun units c => units + if c.toNat < 0x10000 then 1 else 2) 0

/-- `value && value.length === 1` -/
def hasLengthOne (heap : Heap) : Value → Bool
  | .str s => utf16Length s == 1
  | value =>
      match heap.cell? value with
      | some (.array items) => items.length == 1
      | some (.object fields) => fields.lookup "length" == some (.num 1)
      | none => false

/-- The items, `Array.isArray(value)` provided. -/
def arrayItems (heap : Heap) (value : Value) : List Value :=
  match heap.cell? value with
  | some (.array items) => items
  | _ => []

/-- What `{ ...value }` copies from an array or an object. -/
def ownFields (heap : Heap) (value : Value) : List (String × Value) :=
  match heap.cell? value with
  | some (.object fields) => fields
  | some (.array items) =>
      items.zipIdx.map fun (item, index) => (toString index, item)
  | none => []

/-- A template that cannot be reached throws, which counts as none. -/
def getDefaultPowerLevelContent (heap : Heap) (config payload : Value) :
    Option Value :=
  let permissions := heap.get? config "room_permissions"
  let template := fun name => permissions.bind (heap.get? · name)
  if (heap.get? payload "invite").any (hasLengthOne heap) then
    template "direct_chat"
  else if heap.get? payload "preset" = some (.str "public_chat") then
    template "public_group_chat"
  else template "private_group_chat"

def extractCreatorBecomes (powerLevelContent : Value) (heap : Heap) :
    Value × Heap :=
  (orElse (heap.get? powerLevelContent "creator_becomes") (.num 90),
    heap.delete powerLevelContent "creator_becomes")

/-- The own fields of `users || {}`, which is an object by its type. -/
def explicitUsers (heap : Heap) (powerLevelContent : Value) :
    List (String × Value) :=
  match heap.get? powerLevelContent "users" with
  | some users => if users.truthy then ownFields heap users else []
  | none => []

/-- The invited users that are not in `initialUsers`, each with the key that it
is converted to; `none` when a conversion throws. -/
def newUsers (heap : Heap) (initialUsers : List (String × Value)) :
    List Value → Option (List (Value × String))
  | [] => some []
  | invitedUser :: rest => do
      let tree ← heap.stringify invitedUser
      let key ← text? tree
      let others ← newUsers heap initialUsers rest
      if key ∈ initialUsers.map Prod.fst ∨
          key ∈ IdentityServer.inheritedMembers then some others
      else some ((invitedUser, key) :: others)

/-- The levels of the room as it is created. -/
def updatedUsers (roomOwner : String) (usersDefault : Value)
    (initialUsers : List (String × Value)) (invited : List (Value × String)) :
    List (String × Value) :=
  invited.foldl (fun usersMap (invitedUser, key) =>
    Fields.put usersMap key
      (if invitedUser = .str roomOwner then .num 100 else usersDefault))
    (Fields.put initialUsers roomOwner (.num 100))

structure Prepared where
  body : Value
  ownerDemotionLevel : Option Value

/-- The copy of a template that a room starts with, and the level to which its
owner is demoted; `none` when it throws. -/
def initialPowerLevels (defaultPowerLevelContent payload : Value)
    (roomOwner : String) (heap : Heap) : Option (Value × Value × Heap) := do
  let (current, heap) ← heap.deepClone defaultPowerLevelContent
  let (ownerDemotionLevel, heap) := extractCreatorBecomes current heap
  let invitedUsers :=
    ((heap.get? payload "invite").map (arrayItems heap)).getD []
  let initialUsers := explicitUsers heap current
  let invited ← newUsers heap initialUsers invitedUsers
  let usersDefault := orElse (heap.get? current "users_default") (.num 0)
  -- no property can be assigned to a primitive value
  if (heap.cell? current).isNone then none
  else
    let (users, heap) := heap.new (.object
      (updatedUsers roomOwner usersDefault initialUsers invited))
    some (current, ownerDemotionLevel, heap.set current "users" users)

/-- `none` when it throws. -/
def prepareCreateRoomBody (config payload : Value) (roomOwner : String)
    (heap : Heap) : Option (Prepared × Heap) := do
  let (body, heap) ← heap.deepClone payload
  match (getDefaultPowerLevelContent heap config payload).filter
      Value.truthy with
  | none => some (⟨body, none⟩, heap)
  | some defaultPowerLevelContent =>
      let (current, ownerDemotionLevel, heap) ←
        initialPowerLevels defaultPowerLevelContent payload roomOwner heap
      let (body, heap) := heap.new (.object
        (Fields.put (ownFields heap body) "power_level_content_override"
          current))
      some (⟨body, some ownerDemotionLevel⟩, heap)

/-- The body that is sent for a request, up to the first `await`. -/
def sendCreateRoom (config payload : Value) (roomOwner : String)
    (heap : Heap) : Option (Json × Option Value × Heap) := do
  let (prepared, heap) ← prepareCreateRoomBody config payload roomOwner heap
  let body ← heap.stringify prepared.body
  some (body, prepared.ownerDemotionLevel, heap)

/-- The power levels that demote the owner, from those that the homeserver has
answered; `none` when it throws. -/
def demotionContent (currentPowerLevels : Json) (roomOwner : String)
    (powerLevel : Value) (heap : Heap) : Option (Json × Heap) := do
  let (levels, heap) := parse currentPowerLevels heap
  if levels = .null then none
  else
    let (users, heap) := heap.new (.object
      (Fields.put (explicitUsers heap levels) roomOwner powerLevel))
    let (content, heap) := heap.new (.object
      (Fields.put (ownFields heap levels) "users" users))
    let content ← heap.stringify content
    some (content, heap)

/-! The calls of the homeserver. -/

/-- The body cannot be read, or is no JSON. -/
inductive ResponseBody where
  | unreadable
  | text
  | json (value : Json)

structure HttpResponse where
  status : Nat
  body : ResponseBody

namespace HttpResponse

def ok (response : HttpResponse) : Bool :=
  200 ≤ response.status && response.status ≤ 299

def readable (response : HttpResponse) : Bool :=
  match response.body with
  | .unreadable => false
  | _ => true

def json? (response : HttpResponse) : Option Json :=
  match response.body with
  | .json value => some value
  | _ => none

end HttpResponse

/-- What each call ends with; `none` when `fetch` rejects.  A room may have
been created by a call whose response is lost. -/
structure Homeserver where
  createRoom : Option HttpResponse
  createdUnanswered : Bool := false
  getPowerLevels : Option HttpResponse
  putPowerLevels : Option HttpResponse

/-- `none` when it throws. -/
def demoteRoomOwner (homeserver : Homeserver) (roomOwner : String)
    (powerLevel : Value) (heap : Heap) : Option Unit := do
  let response ← homeserver.getPowerLevels
  if !response.ok then none
  else
    let currentPowerLevels ← response.json?
    let _ ← demotionContent currentPowerLevels roomOwner powerLevel heap
    let response ← homeserver.putPowerLevels
    -- a failed update is logged with its text
    if response.ok || response.readable then some () else none

/-- `createData.room_id`, as a text. -/
def roomIdText : Json → Option String
  | .null => none
  | .obj fields =>
      match fields.lookup "room_id" with
      | none => some "undefined"
      | some roomId => text? roomId
  | _ => some "undefined"

def internalError : HttpResponse where
  status := 500
  body := .text

/-- What follows once the homeserver has answered. -/
def finishCreate (homeserver : Homeserver) (roomOwner : String)
    (ownerDemotionLevel : Option Value) (heap : Heap)
    (response : HttpResponse) : Option HttpResponse := do
  if !response.ok then
    if response.readable then some response else none
  else
    let createData ← response.json?
    let _ ← roomIdText createData
    match ownerDemotionLevel with
    | none => some response
    | some powerLevel =>
        let _ ← demoteRoomOwner homeserver roomOwner powerLevel heap
        some response

structure Service where
  config : Value
  /-- `matrix_internal_host` makes a URL. -/
  hostIsUrl : Bool := true

/-- The request that reaches the homeserver: its body, and what is kept for
later. -/
def Service.request (service : Service) (payload : Value) (roomOwner : String)
    (heap : Heap) : Option (Json × Option Value × Heap) :=
  match sendCreateRoom service.config payload roomOwner heap with
  | none => none
  | some sent => if service.hostIsUrl then some sent else none

/-- The promise is rejected when the payload has no fields to read. -/
def Service.create (service : Service) (homeserver : Homeserver)
    (payload : Value) (roomOwner : String) (heap : Heap) :
    Option HttpResponse :=
  if payload = .null then none
  else
    some (match service.request payload roomOwner heap with
      | none => internalError
      | some (_, ownerDemotionLevel, heap) =>
          (homeserver.createRoom.bind (finishCreate homeserver roomOwner
            ownerDemotionLevel heap)).getD internalError)

/-! The controller. -/

structure Request where
  authorization : Option String
  userId : Option String
  body : Value

/-- The status of the response; an error that is passed on gives 500. -/
def createRoom (service : Service) (homeserver : Homeserver) (req : Request)
    (heap : Heap) : Nat :=
  if req.authorization.getD "" = "" then 400
  else
    let roomOwner := req.userId.getD ""
    if roomOwner = "" then 400
    else
      match service.create homeserver req.body roomOwner heap with
      | none => 500
      | some operation =>
          match operation.json? with
          | none => 500
          | some _ => operation.status

end TwakeKickstart.TomServer.CreateRoom
