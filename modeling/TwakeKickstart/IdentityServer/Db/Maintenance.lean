import TwakeKickstart.IdentityServer.Db.BackendAgreement
import TwakeKickstart.Library.Transition
import TwakeKickstart.Storage.Tables

namespace TwakeKickstart.IdentityServer

open Library

/-! The maintenance of the database. -/

/-- What the arrow function given to `setTimeout` evaluates: the name
`_vacuum`, or a call of it. -/
inductive Body where
  | name
  | call

/-- `() => _vacuum`, in both places. -/
def arrow : Body := .name

structure Timeout where
  body : Body
  milliseconds : Nat

/-- The database of a server, and what it was given. -/
structure Maintenance (Table : Type) where
  columns : Table → Columns
  engines : Engines
  engine : SupportedDatabases
  cleanByExpires : List Table
  delay : Nat

namespace Maintenance

variable {Table : Type} (server : Maintenance Table)

abbrev Contents := (table : Table) → List (StoredRow (server.columns table))

/-- The tables, and the timer that is pending. -/
structure State where
  tables : server.Contents
  cleanJob : Option Timeout

def deleteLowerThan (table : Table) (field : String) (value : SqlValue)
    (rows : List (StoredRow (server.columns table))) :
    Option (List (StoredRow (server.columns table))) :=
  ((backend server.engine).deleteLowerThan field value).bind fun query =>
    if query.accepted server.engines server.engine (server.columns table) then
      some (rows.filter fun row =>
        !query.selects server.engines server.engine row)
    else none

def setTimeout (body : Body) : Timeout :=
  ⟨body, server.delay * 1000⟩

def dbMaintenance (body : Body) (tables : server.Contents) : server.State :=
  { tables, cleanJob := some (server.setTimeout body) }

section Steps

variable [DecidableEq Table]

/-- The deletions of `Promise.all`, and whether all of them are carried out:
one that is rejected does not stop the others. -/
def deleteExpired (epoch : Nat) :
    List Table → server.Contents → server.Contents × Bool
  | [], tables => (tables, true)
  | table :: rest, tables =>
      match server.deleteLowerThan table "expires" (.number epoch)
          (tables table) with
      | none => ((deleteExpired epoch rest tables).1, false)
      | some rows =>
          deleteExpired epoch rest (Function.update tables table rows)

/-- `_vacuum`, which sets the timer again when no deletion is rejected. -/
def vacuum (body : Body) (epoch : Nat) (tables : server.Contents) :
    server.State :=
  let (tables, cleaned) :=
    server.deleteExpired epoch server.cleanByExpires tables
  { tables
    cleanJob := if cleaned then some (server.setTimeout body) else none }

inductive Event where
  | fire (epoch : Nat)
  | write (table : Table) (rows : List (StoredRow (server.columns table)))

/-- The timer is over once it has fired.  An arrow function whose body is a
name returns the function and does no more. -/
def fire (body : Body) (epoch : Nat) (tables : server.Contents) :
    Body → server.State
  | .name => { tables, cleanJob := none }
  | .call => server.vacuum body epoch tables

def step (body : Body) (state : server.State) :
    server.Event → Option server.State
  | .fire epoch =>
      state.cleanJob.map fun timeout =>
        server.fire body epoch state.tables timeout.body
  | .write table rows =>
      some { state with tables := Function.update state.tables table rows }

end Steps

/-! What the maintenance is for. -/

def isExpired (epoch : Nat) {columns : Columns} (row : StoredRow columns) :
    Bool :=
  match columns.lookup "expires", row.cells "expires" with
  | some .integer, .int expires => decide (expires < epoch)
  | _, _ => false

/-- What a firing of the timer is to do. -/
structure Cleaned (epoch : Nat) (before after : server.State) : Prop where
  removed : ∀ table ∈ server.cleanByExpires, ∀ row ∈ after.tables table,
    isExpired epoch row = false
  untouched : ∀ table,
    (after.tables table).filter (fun row => !isExpired epoch row) =
      (before.tables table).filter fun row => !isExpired epoch row
  armed : after.cleanJob.isSome = true

def Maintained (before : server.State) :
    server.Event → server.State → Prop
  | .fire epoch, after => server.Cleaned epoch before after
  | .write _ _, _ => True

inductive Event.IsFiring {server : Maintenance Table} : server.Event → Prop
  | fire (epoch : Nat) : IsFiring (.fire epoch)

section Timer

variable {server : Maintenance Table}

/-- The body of the timer, as long as there is one. -/
def Carries (body : Body) (state : server.State) : Prop :=
  ∀ timeout, state.cleanJob = some timeout → timeout.body = body

theorem carries_dbMaintenance (body : Body) (tables : server.Contents) :
    Carries body (server.dbMaintenance body tables) := by
  intro timeout h
  cases h
  rfl

variable [DecidableEq Table]

theorem carries_fire (body : Body) (epoch : Nat) (tables : server.Contents)
    (fired : Body) : Carries body (server.fire body epoch tables fired) := by
  intro timeout h
  cases fired with
  | name => cases h
  | call =>
      dsimp only [fire, vacuum] at h
      split at h
      · cases h
        rfl
      · cases h

theorem step_fire {body : Body} {before after : server.State} {epoch : Nat}
    (carries : Carries body before)
    (h : server.step body before (.fire epoch) = some after) :
    after = server.fire body epoch before.tables body := by
  obtain ⟨timeout, htimeout, hafter⟩ := Option.map_eq_some_iff.mp h
  rw [carries timeout htimeout] at hafter
  exact hafter.symm

theorem carries_step {body : Body} {before after : server.State}
    {event : server.Event} (carries : Carries body before)
    (h : server.step body before event = some after) :
    Carries body after := by
  cases event with
  | fire epoch =>
      rw [step_fire carries h]
      exact carries_fire body epoch before.tables body
  | write table rows =>
      cases h
      exact carries

end Timer

/-! Whole runs. -/

section Runs

variable [DecidableEq Table] {server : Maintenance Table}

def anyTime (_ : server.State) (_ : server.Event) : Bool := true

/-- The timer names `_vacuum` and does not call it: a run does what the
maintenance is for exactly when the timer does not fire in it. -/
theorem maintained_iff {tables : server.Contents}
    {events : List server.Event}
    (happens : (runEvents (server.step arrow) anyTime events
      (server.dbMaintenance arrow tables)).isSome = true) :
    EveryStep (server.step arrow) server.Maintained events
        (server.dbMaintenance arrow tables) ↔
      ∀ event ∈ events, ¬ event.IsFiring := by
  constructor
  · refine EveryStep.avoids (Carries arrow)
      (fun before event after carries hstep => carries_step carries hstep)
      ?_ (carries_dbMaintenance arrow tables) happens
    intro before event after carries firing hstep cleaned
    cases firing with
    | fire epoch =>
        have harmed := Cleaned.armed cleaned
        rw [step_fire carries hstep] at harmed
        cases harmed
  · refine everyStep_of_invariant (fun _ => True)
      (fun event => ¬ Event.IsFiring event) ?_ trivial
    intro before event after _ quiet hstep
    refine ⟨?_, trivial⟩
    cases event with
    | fire epoch => exact absurd (.fire epoch) quiet
    | write table rows => trivial

end Runs

end Maintenance

/-! The identity server, and a token that has expired. -/

def columnType : SqlType → ColumnType
  | .integer => .integer
  | _ => .text

def tableColumns (table : Storage.Table) : Columns :=
  table.columns.map fun column => (column.1, columnType column.2)

def cleanByExpires : List Storage.Table := [.oneTimeTokens, .attempts]

theorem expires_declared {table : Storage.Table}
    (registered : table ∈ cleanByExpires) :
    (tableColumns table).lookup "expires" = some .integer := by
  unfold tableColumns
  rw [Storage.Table.columns_eq]
  simp only [cleanByExpires, List.mem_cons, List.not_mem_nil, or_false]
    at registered
  cases registered with
  | inl h =>
      subst h
      rfl
  | inr h =>
      subst h
      rfl

def identityServer : Maintenance Storage.Table where
  columns := tableColumns
  engines := Engines.plain
  engine := .sqlite
  cleanByExpires := cleanByExpires
  delay := 3

def expiredToken : StoredRow (tableColumns .oneTimeTokens) where
  cells
    | "id" => .text "token"
    | "expires" => .int 5
    | "data" => .text "\x7b\x7d"
    | _ => .null

def oneToken : identityServer.Contents :=
  Function.update (fun _ => []) .oneTimeTokens [expiredToken]

theorem expiredToken_isExpired :
    Maintenance.isExpired 10 expiredToken = true := by
  unfold Maintenance.isExpired
  rw [expires_declared List.mem_cons_self]
  rfl

theorem expired_token_kept :
    ∃ after,
      identityServer.step arrow (identityServer.dbMaintenance arrow oneToken)
        (.fire 10) = some after ∧
      (∃ row ∈ after.tables .oneTimeTokens,
        Maintenance.isExpired 10 row = true) ∧
      after.cleanJob = none ∧
      ¬ identityServer.Cleaned 10
        (identityServer.dbMaintenance arrow oneToken) after := by
  refine ⟨_, rfl, ⟨expiredToken, List.mem_cons_self,
    expiredToken_isExpired⟩, rfl, ?_⟩
  intro cleaned
  cases cleaned.armed

theorem no_cleaning_after_a_write :
    ¬ EveryStep (identityServer.step arrow) identityServer.Maintained
      [.write .attempts [], .fire 10]
      (identityServer.dbMaintenance arrow oneToken) := by
  rw [Maintenance.maintained_iff (by rfl)]
  intro quiet
  exact quiet (.fire 10) (by simp) (.fire 10)

end TwakeKickstart.IdentityServer
