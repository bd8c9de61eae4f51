import TwakeKickstart.Library.Isolation
import TwakeKickstart.Utils.MatrixId
import TwakeKickstart.IdentityServer.Db.Store

namespace TwakeKickstart.TomServer.Addressbook

open Library Utils
open IdentityServer (Driver Filter getStatement refusesDelete)

/-! `AddressbookService`: the two tables, the operations on them, and the
database calls that each operation makes. -/

structure AddressBook where
  id : String
  owner : String
  deriving DecidableEq

/-- A row of `contacts`; a column that is NULL is `none`. -/
structure ContactRow where
  id : Option String
  addressbookId : String
  mxid : Option String
  displayName : Option String
  active : Option Int
  deriving DecidableEq

structure Contact where
  id : Option String
  mxid : Option String
  displayName : Option String
  active : Bool
  addressbookId : String
  deriving DecidableEq

structure ContactCreationPayload where
  mxid : JsValue
  displayName : JsValue

structure ContactUpdatePayload where
  displayName : JsValue
  active : Option Bool

structure AddressbookListResponse where
  id : String
  owner : String
  contacts : List Contact
  deriving DecidableEq

/-- A row of the user directory. -/
structure UserEntry where
  uid : Option String
  cn : Option String
  displayName : Option String

structure DbError where
  message : String
  code : Option String := none

/-- A filter whose `toString` throws. -/
def typeError : DbError where
  message := "filterFields[key].toString is not a function"

/-! The tables and the calls on them. -/

structure Store where
  addressbooks : List AddressBook
  contacts : List ContactRow

def AddressBook.cell (row : AddressBook) : String → Cell
  | "id" => .text row.id
  | "owner" => .text row.owner
  | _ => .null

def ContactRow.cell (row : ContactRow) : String → Cell
  | "id" => row.id.elim .null .text
  | "addressbook_id" => .text row.addressbookId
  | "mxid" => row.mxid.elim .null .text
  | "display_name" => row.displayName.elim .null .text
  | "active" => row.active.elim .null .int
  | _ => .null

inductive DbCall where
  | getAddressbooks (fields : List String) (filter : Filter)
  | insertAddressbook (row : AddressBook)
  | deleteAddressbooks (field value : String)
  | getContacts (fields : List String) (filter : Filter)
  | insertContact (contact : ContactCreationPayload) (id addressbookId : String)
  | updateContacts (values : ContactUpdatePayload) (field value : String)
  | deleteContacts (field value : String)

@[reducible] def DbCall.Result : DbCall → Type
  | getAddressbooks _ _ => Except DbError (List AddressBook)
  | insertAddressbook _ => Except DbError (List AddressBook)
  | deleteAddressbooks _ _ => Except DbError Unit
  | getContacts _ _ => Except DbError (List ContactRow)
  | insertContact _ _ _ => Except DbError (List ContactRow)
  | updateContacts _ _ _ => Except DbError (List ContactRow)
  | deleteContacts _ _ => Except DbError Unit

def DbCall.refused (error : DbError) : (call : DbCall) → call.Result
  | getAddressbooks _ _ => .error error
  | insertAddressbook _ => .error error
  | deleteAddressbooks _ _ => .error error
  | getContacts _ _ => .error error
  | insertContact _ _ _ => .error error
  | updateContacts _ _ _ => .error error
  | deleteContacts _ _ => .error error

/-- The database client, and the error it gives for a key that is taken. -/
structure Engine where
  driver : Driver
  keyTaken : DbError
  deleteRefused : DbError

/-- What a text column holds for a value that is bound to it. -/
def columnText (driver : Driver) (value : JsValue) : Option String :=
  match driver.bound value with
  | .null => none
  | .int n => some (toString n)
  | .text s => some s

def insertedRow (driver : Driver) (contact : ContactCreationPayload)
    (id addressbookId : String) : ContactRow where
  id := some id
  addressbookId := addressbookId
  mxid := columnText driver contact.mxid
  displayName := columnText driver contact.displayName
  active := some 1

def updatedRow (driver : Driver) (values : ContactUpdatePayload)
    (row : ContactRow) : ContactRow :=
  { row with
    displayName := columnText driver values.displayName
    active := values.active.elim row.active fun active =>
      some (if active then 1 else 0) }

def execute (engine : Engine) :
    (call : DbCall) → Store → call.Result × Store
  | .getAddressbooks fields filter, store =>
      (match getStatement fields filter with
        | none => .error typeError
        | some statement =>
            .ok (store.addressbooks.filter fun row =>
              statement.selects row.cell), store)
  | .insertAddressbook row, store =>
      if store.addressbooks.any (·.id == row.id) then
        (.error engine.keyTaken, store)
      else
        (.ok [row],
          { store with addressbooks := store.addressbooks ++ [row] })
  | .deleteAddressbooks field value, store =>
      if refusesDelete engine.driver.engine (.str value) then
        (.error engine.deleteRefused, store)
      else
        (.ok (), { store with
          addressbooks := store.addressbooks.filter fun row =>
            !(row.cell field).same (.text value) })
  | .getContacts fields filter, store =>
      (match getStatement fields filter with
        | none => .error typeError
        | some statement =>
            .ok (store.contacts.filter fun row =>
              statement.selects row.cell), store)
  | .insertContact contact id addressbookId, store =>
      if store.contacts.any (·.id == some id) then
        (.error engine.keyTaken, store)
      else
        let row := insertedRow engine.driver contact id addressbookId
        (.ok [row], { store with contacts := store.contacts ++ [row] })
  | .updateContacts values field value, store =>
      let selected := fun row : ContactRow =>
        (row.cell field).same (.text value)
      (.ok ((store.contacts.filter selected).map
          (updatedRow engine.driver values)),
        { store with
          contacts := store.contacts.map fun row =>
            if selected row then updatedRow engine.driver values row
            else row })
  | .deleteContacts field value, store =>
      if refusesDelete engine.driver.engine (.str value) then
        (.error engine.deleteRefused, store)
      else
        (.ok (), { store with
          contacts := store.contacts.filter fun row =>
            !(row.cell field).same (.text value) })

/-! The effects of an operation, and how its promise ends. -/

inductive Answer where
  | listed (response : AddressbookListResponse)
  | added (response : Option AddressbookListResponse)
  | contact (contact : Option Contact)
  | finished
  | threw
  deriving DecidableEq

inductive Effect where
  | db (call : DbCall)
  | uuid
  | wait (milliseconds : Nat)
  | getUsers
  | answer (result : Answer)

@[reducible] def Effect.Result : Effect → Type
  | db call => call.Result
  | uuid => String
  | wait _ => Unit
  | getUsers => Option (List UserEntry)
  | answer _ => Unit

abbrev Procedure := Program Effect Effect.Result

structure World where
  store : Store
  answers : List Answer := []

/-- What the environment decides at one step: the error of a database call that
fails, the identifier drawn, and what the directory answers. -/
structure Choice where
  failure : Option DbError := none
  id : String := ""
  users : Option (List UserEntry) := some []

def handle (engine : Engine) (choice : Choice) :
    Handler Effect Effect.Result World
  | .db call, world =>
      match choice.failure with
      | some error => (call.refused error, world)
      | none =>
          let (result, store) := execute engine call world.store
          (result, { world with store })
  | .uuid, world => (choice.id, world)
  | .wait _, world => ((), world)
  | .getUsers, world => (choice.users, world)
  | .answer result, world =>
      ((), { world with answers := world.answers ++ [result] })

def answer (result : Answer) : Procedure :=
  .perform (.answer result) fun _ => .done

/-! The address book of an owner. -/

def DbError.mentions (error : DbError) (text : String) : Bool :=
  decide (text.toList <:+: error.message.toLower.toList)

def isDuplicateKeyError (error : DbError) : Bool :=
  error.mentions "unique constraint" || error.mentions "sqlite_constraint" ||
    error.mentions "duplicate key" || error.code == some "23505"

def getUserAddressBook (owner : String)
    (next : Option AddressBook → Procedure) : Procedure :=
  .perform (.db (.getAddressbooks ["*"] [("owner", .str owner)])) fun
    | .ok (book :: _) => next (some book)
    | _ => next none

def noDataReturned : DbError where
  message := "Failed to create addressbook: no data returned"

def createUserAddressBook (owner : String)
    (next : Except DbError AddressBook → Procedure) : Procedure :=
  .perform .uuid fun id =>
    .perform (.db (.insertAddressbook ⟨id, owner⟩)) fun
      | .ok (book :: _) => next (.ok book)
      | .ok [] => next (.error noDataReturned)
      | .error error => next (.error error)

def maxRetries : Nat := 3

/-- The loop over the attempts; `next none` is where it throws. -/
def createWithRetries (owner : String)
    (next : Option AddressBook → Procedure) : (left : Nat) → Procedure
  | 0 => next none
  | left + 1 =>
      createUserAddressBook owner fun
        | .ok book => next (some book)
        | .error error =>
            if isDuplicateKeyError error then
              getUserAddressBook owner fun
                | some book => next (some book)
                | none =>
                    if left = 0 then next none
                    else
                      .perform (.wait (2 ^ (maxRetries - 1 - left) * 100))
                        fun _ => createWithRetries owner next left
            else next none

def getOrCreateUserAddressBook (owner : String)
    (next : Option AddressBook → Procedure) : Procedure :=
  if owner = "" then next none
  else
    getUserAddressBook owner fun
      | some book => next (some book)
      | none => createWithRetries owner next maxRetries

/-! Contacts. -/

/-- The options of the service; `localeCompare` is the collation of the
runtime. -/
structure Service where
  enableAdditionalFeatures : Bool
  hasUserDb : Bool
  serverName : String
  localeCompare : String → String → Ordering

def truthy (text : Option String) : Bool := text.any (· != "")

def validateContactData (row : ContactRow) : Bool :=
  truthy row.id && truthy row.mxid

def normalizeContact (row : ContactRow) : Contact where
  id := row.id
  mxid := row.mxid
  displayName := row.displayName
  active := row.active.any (· != 0)
  addressbookId := row.addressbookId

def compareField (service : Service) (field : Contact → Option String)
    (emptyLast : Bool) (a b : Contact) : Ordering :=
  let strA := (field a).getD ""
  let strB := (field b).getD ""
  if strA = "" ∧ strB = "" then .eq
  else if strA = "" then if emptyLast then .gt else .lt
  else if strB = "" then if emptyLast then .lt else .gt
  else service.localeCompare strA strB

def sortByStringField (service : Service) (field : Contact → Option String)
    (emptyLast : Bool) (contacts : List Contact) : List Contact :=
  contacts.mergeSort fun a b =>
    compareField service field emptyLast a b != .gt

def deduplicateByMxid (contacts : List Contact) : List Contact :=
  (contacts.foldl (fun (seen, kept) contact =>
    if contact.mxid ∈ seen then (seen, kept)
    else (contact.mxid :: seen, kept ++ [contact]))
    (([] : List (Option String)), ([] : List Contact))).2

def listAddressbookContacts (service : Service)
    (rows : Except DbError (List ContactRow)) : List Contact :=
  match rows with
  | .error _ => []
  | .ok rows =>
      let normalized := (rows.filter validateContactData).map normalizeContact
      sortByStringField service Contact.displayName true
        (deduplicateByMxid
          (sortByStringField service Contact.id true normalized))

def userDbContact (service : Service) (entry : UserEntry) : Option Contact :=
  match entry.uid with
  | none => none
  | some uid =>
      if uid = "" then none
      else
        match toMatrixId (some uid) service.serverName with
        | .error _ => none
        | .ok mxid =>
            let name :=
              if truthy entry.cn then entry.cn
              else if truthy entry.displayName then entry.displayName
              else some uid
            some ⟨some uid, some mxid, name, true, ""⟩

def Service.readsUserDb (service : Service) : Bool :=
  service.enableAdditionalFeatures && service.hasUserDb &&
    service.serverName != ""

def mergeContacts (service : Service) (addressbookContacts : List Contact)
    (userDbContacts : List Contact) : List Contact :=
  let mxids := addressbookContacts.map Contact.mxid
  sortByStringField service Contact.displayName true
    (addressbookContacts ++
      userDbContacts.filter fun contact => contact.mxid ∉ mxids)

def getUserDbContacts (service : Service) (wanted : Bool)
    (next : List Contact → Procedure) : Procedure :=
  if wanted && service.readsUserDb then
    .perform .getUsers fun users =>
      next ((users.getD []).filterMap (userDbContact service))
  else next []

def list (service : Service) (owner : String) (includeUserDbContacts : Bool) :
    Procedure :=
  getOrCreateUserAddressBook owner fun
    | none => answer (.listed ⟨"", owner, []⟩)
    | some book =>
        .perform (.db (.getContacts ["*"]
          [("addressbook_id", .str book.id)])) fun rows =>
            getUserDbContacts service includeUserDbContacts fun users =>
              answer (.listed ⟨book.id, owner, mergeContacts service
                (listAddressbookContacts service rows) users⟩)

/-- `_checkIfContactExists`, then `_insertContact`. -/
def addContact (contact : ContactCreationPayload) (addressbookId : String)
    (next : Option Contact → Procedure) : Procedure :=
  .perform (.db (.getContacts ["*"] [("mxid", contact.mxid),
    ("display_name", contact.displayName),
    ("addressbook_id", .str addressbookId)])) fun
    | .ok (_ :: _) => next none
    | _ =>
        .perform .uuid fun id =>
          .perform (.db (.insertContact contact id addressbookId)) fun
            | .ok (row :: _) =>
                next (if truthy row.id then some (normalizeContact row)
                  else none)
            | _ => next none

def addEach (addressbookId : String) (next : List Contact → Procedure) :
    List ContactCreationPayload → (createdContacts : List Contact) → Procedure
  | [], createdContacts => next createdContacts
  | contact :: rest, createdContacts =>
      addContact contact addressbookId fun created =>
        addEach addressbookId next rest (createdContacts ++ created.toList)

def addContacts (owner : String)
    (contacts : Option (List ContactCreationPayload)) : Procedure :=
  getOrCreateUserAddressBook owner fun
    | none => answer (.added none)
    | some book =>
        addEach book.id (fun createdContacts =>
          answer (.added (some ⟨book.id, owner, createdContacts⟩)))
          (contacts.getD []) []

def getContact (contactId : String) : Procedure :=
  .perform (.db (.getContacts ["*"] [("id", .str contactId)])) fun
    | .ok (row :: _) => answer (.contact (some (normalizeContact row)))
    | _ => answer (.contact none)

def updateContact (id : String) (contact : ContactUpdatePayload) : Procedure :=
  .perform (.db (.updateContacts contact "id" id)) fun
    | .ok (row :: _) => answer (.contact (some (normalizeContact row)))
    | _ => answer (.contact none)

def deleteContact (contactId : String) : Procedure :=
  .perform (.db (.deleteContacts "id" contactId)) fun
    | .ok _ => answer .finished
    | .error _ => answer .threw

def delete (owner : String) : Procedure :=
  .perform (.db (.getAddressbooks ["id"] [("owner", .str owner)])) fun
    | .ok (book :: _) =>
        .perform (.db (.deleteContacts "addressbook_id" book.id)) fun
          | .ok _ =>
              .perform (.db (.deleteAddressbooks "id" book.id)) fun
                | .ok _ => answer .finished
                | .error _ => answer .threw
          | .error _ => answer .threw
    | _ => answer .threw

inductive Call where
  | list (owner : String) (includeUserDbContacts : Bool)
  | addContacts (owner : String)
      (contacts : Option (List ContactCreationPayload))
  | getContact (contactId : String)
  | updateContact (id : String) (contact : ContactUpdatePayload)
  | deleteContact (contactId : String)
  | delete (owner : String)

def Call.program (service : Service) : Call → Procedure
  | list owner includeUserDbContacts =>
      Addressbook.list service owner includeUserDbContacts
  | addContacts owner contacts => Addressbook.addContacts owner contacts
  | getContact contactId => Addressbook.getContact contactId
  | updateContact id contact => Addressbook.updateContact id contact
  | deleteContact contactId => Addressbook.deleteContact contactId
  | delete owner => Addressbook.delete owner

abbrev ServicePool := Pool Effect Effect.Result World Call

/-- The operations of the service side by side. -/
def serviceStep (engine : Engine) (service : Service) :
    ServicePool → PoolEvent Call Choice → Option ServicePool :=
  Pool.step (Call.program service) (handle engine)

end TwakeKickstart.TomServer.Addressbook
