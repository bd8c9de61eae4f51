import TwakeKickstart.Library.Linearizable
import TwakeKickstart.TomServer.Addressbook.Service

namespace TwakeKickstart.TomServer.Vault

open Library
open IdentityServer (Driver Filter getStatement getStatement_spec)
open Addressbook (columnText)

/-! The recovery words of the users: their table, and the handlers of the
vault. -/

structure Row where
  userId : String
  words : Option String
  deriving DecidableEq

def Row.cell (row : Row) : String → Cell
  | "userId" => .text row.userId
  | "words" => row.words.elim .null .text
  | _ => .null

/-- The table `recoveryWords`; its primary key is `userId`. -/
structure RecoveryWords where
  rows : List Row
  unique : (rows.map Row.userId).Nodup

namespace RecoveryWords

def empty : RecoveryWords := ⟨[], List.nodup_nil⟩

def insert (table : RecoveryWords) (row : Row)
    (free : row.userId ∉ table.rows.map Row.userId) : RecoveryWords where
  rows := table.rows ++ [row]
  unique := by
    rw [List.map_append]
    refine List.nodup_append.mpr ⟨table.unique, List.nodup_singleton _, ?_⟩
    intro userId huserId other hother heq
    exact free (List.mem_singleton.mp hother ▸ heq ▸ huserId)

def update (table : RecoveryWords) (userId : String)
    (words : Option String) : RecoveryWords where
  rows := table.rows.map fun row =>
    if row.userId = userId then { row with words } else row
  unique := by
    have hmap : (table.rows.map fun row =>
        if row.userId = userId then { row with words } else row).map
          Row.userId = table.rows.map Row.userId := by
      rw [List.map_map]
      apply List.map_congr_left
      intro row _
      simp only [Function.comp_apply]
      split <;> rfl
    exact hmap ▸ table.unique

def deleteWhere (table : RecoveryWords) (userId : String) :
    RecoveryWords where
  rows := table.rows.filter fun row => row.userId ≠ userId
  unique := table.unique.sublist (List.filter_sublist.map _)

/-- The words of a user, if there is a row of theirs. -/
def stored (table : RecoveryWords) (userId : String) :
    Option (Option String) :=
  (table.rows.find? fun row => row.userId = userId).map Row.words

theorem stored_eq_none_iff {table : RecoveryWords} {userId : String} :
    table.stored userId = none ↔ userId ∉ table.rows.map Row.userId := by
  simp [stored]

theorem stored_insert {table : RecoveryWords} {row : Row}
    (free : row.userId ∉ table.rows.map Row.userId) :
    (table.insert row free).stored =
      Function.update table.stored row.userId (some row.words) := by
  funext userId
  unfold stored insert
  rw [List.find?_append, Function.update_apply]
  by_cases h : userId = row.userId
  · have hnone := stored_eq_none_iff.mpr free
    rw [stored, Option.map_eq_none_iff] at hnone
    rw [h, hnone, if_pos rfl, Option.none_or, List.find?_singleton]
    simp
  · rw [if_neg h, List.find?_singleton]
    have hne : decide (row.userId = userId) = false := by
      simpa using fun heq => h heq.symm
    simp [hne]

theorem stored_update (table : RecoveryWords) (userId : String)
    (words : Option String) :
    (table.update userId words).stored =
      if table.stored userId = none then table.stored
      else Function.update table.stored userId (some words) := by
  funext other
  have hfind : (table.update userId words).stored other =
      (table.rows.find? fun row => row.userId = other).map fun row =>
        if row.userId = userId then words else row.words := by
    unfold stored update
    rw [List.find?_map, Option.map_map]
    have hcomp : ((fun row : Row => decide (row.userId = other)) ∘ fun row =>
        if row.userId = userId then { row with words } else row) =
          fun row => decide (row.userId = other) := by
      funext row
      simp only [Function.comp_apply]
      split <;> rfl
    rw [hcomp]
    congr 1
    funext row
    simp only [Function.comp_apply]
    split <;> rfl
  rw [hfind]
  by_cases hother : other = userId
  · subst hother
    split
    · rename_i hnone
      rw [hnone]
      rw [stored, Option.map_eq_none_iff] at hnone
      rw [hnone]
      rfl
    · rename_i hsome
      rw [Function.update_self]
      obtain ⟨column, hcolumn⟩ := Option.ne_none_iff_exists'.mp hsome
      obtain ⟨row, hrow, -⟩ := Option.map_eq_some_iff.mp hcolumn
      have huser : row.userId = other := by simpa using List.find?_some hrow
      rw [hrow, Option.map_some, if_pos huser]
  · have hkept : ((table.rows.find? fun row => row.userId = other).map
        fun row => if row.userId = userId then words else row.words) =
          table.stored other := by
      rw [stored]
      cases hrow : table.rows.find? fun row => row.userId = other with
      | none => rfl
      | some row =>
          have huser : row.userId = other := by simpa using List.find?_some hrow
          rw [Option.map_some, Option.map_some, if_neg (huser ▸ hother)]
    rw [hkept]
    split
    · rfl
    · exact (Function.update_of_ne hother _ _).symm

theorem stored_deleteWhere (table : RecoveryWords) (userId : String) :
    (table.deleteWhere userId).stored =
      Function.update table.stored userId none := by
  funext other
  unfold stored deleteWhere
  rw [List.find?_filter]
  by_cases h : other = userId
  · rw [h, Function.update_self, Option.map_eq_none_iff]
    simp
  · rw [Function.update_of_ne h]
    congr 2
    funext row
    by_cases huser : row.userId = other
    · simp [huser, h]
    · simp [huser]

theorem filter_eq_toList (table : RecoveryWords) (userId : String) :
    ((table.rows.filter fun row => row.userId = userId).map Row.words) =
      (table.stored userId).toList := by
  have hhead : (table.rows.filter fun row => row.userId = userId).head? =
      table.rows.find? fun row => row.userId = userId := List.head?_filter
  have hlength : (table.rows.filter fun row => row.userId = userId).length ≤
      1 := by
    rw [← List.countP_eq_length_filter]
    have hcount := List.nodup_iff_count_le_one.mp table.unique userId
    rw [List.count, List.countP_map] at hcount
    refine le_trans (le_of_eq ?_) hcount
    apply List.countP_congr
    intro row _
    simp
  rw [stored, ← hhead]
  match hrows : table.rows.filter fun row => row.userId = userId with
  | [] =>
      rw [hrows]
      rfl
  | [row] =>
      rw [hrows]
      rfl
  | first :: second :: rest =>
      rw [hrows] at hlength
      simp only [List.length_cons] at hlength
      omega

end RecoveryWords

/-! Statements on the table. -/

inductive DbCall where
  | get (fields : List String) (filter : Filter)
  | insert (userId : String) (words : JsValue)
  | update (words : JsValue) (userId : String)
  | deleteWhere (userId : String)

@[reducible] def DbCall.Result : DbCall → Type
  | get _ _ => Except String (List Row)
  | insert _ _ => Except String (List Row)
  | update _ _ => Except String (List Row)
  | deleteWhere _ => Except String Unit

def DbCall.rejected (message : String) : (call : DbCall) → call.Result
  | get _ _ => .error message
  | insert _ _ => .error message
  | update _ _ => .error message
  | deleteWhere _ => .error message

/-- The database client, and what it says of a key that is taken. -/
structure Engine where
  driver : Driver
  keyTaken : String

def statement (engine : Engine) :
    (call : DbCall) → RecoveryWords → call.Result × RecoveryWords
  | .get fields filter, table =>
      (match getStatement fields filter with
        | none => .error "filterFields[key].toString is not a function"
        | some statement =>
            .ok (table.rows.filter fun row => statement.selects row.cell),
        table)
  | .insert userId words, table =>
      let row : Row := ⟨userId, columnText engine.driver words⟩
      if free : row.userId ∉ table.rows.map Row.userId then
        (.ok [row], table.insert row free)
      else (.error engine.keyTaken, table)
  | .update words userId, table =>
      let after := table.update userId (columnText engine.driver words)
      (.ok (after.rows.filter fun row => row.userId = userId), after)
  | .deleteWhere userId, table => (.ok (), table.deleteWhere userId)

/-- What becomes of a statement: it is done, or its promise is rejected, before
or after it was done. -/
inductive Fate where
  | done
  | refused (message : String)
  | lost (message : String)

def execute (engine : Engine) (fate : Fate) (call : DbCall)
    (table : RecoveryWords) : call.Result × RecoveryWords :=
  match fate with
  | .done => statement engine call table
  | .refused message => (call.rejected message, table)
  | .lost message => (call.rejected message, (statement engine call table).2)

/-! The handlers. -/

structure Reply where
  status : Nat
  body : JsValue

abbrev Handler := Script DbCall DbCall.Result Reply

/-- What reaches the error middleware. -/
inductive Thrown where
  | vaultAPIError (message : String) (statusCode : Nat)
  | error (message : String)

def errorMiddleware : Thrown → Reply
  | .vaultAPIError message statusCode =>
      ⟨statusCode, .obj [("error", .str message)]⟩
  | .error message => ⟨500, .obj [("error", .str message)]⟩

namespace Reply

def failed (message : String) : Reply := errorMiddleware (.error message)

def saved : Reply :=
  ⟨201, .obj [("message", .str "Saved recovery words successfully")]⟩

def alreadySaved : Reply :=
  ⟨409, .obj [("error", .str "User already has recovery words")]⟩

def shown (words : Option String) : Reply :=
  ⟨200, .obj [("words", words.elim .null .str)]⟩

def noWords : Reply :=
  errorMiddleware (.vaultAPIError "User has no recovery sentence" 404)

def deleted : Reply := ⟨204, .undefined⟩

def updated : Reply :=
  ⟨200, .obj [("message", .str "Updated recovery words successfully")]⟩

def nothingToUpdate : Reply :=
  ⟨404, .obj [("message", .str "User has no recovery sentence")]⟩

@[simp] theorem status_failed (message : String) :
    (failed message).status = 500 := rfl

@[simp] theorem status_saved : saved.status = 201 := rfl

@[simp] theorem status_alreadySaved : alreadySaved.status = 409 := rfl

@[simp] theorem status_shown (words : Option String) :
    (shown words).status = 200 := rfl

@[simp] theorem status_noWords : noWords.status = 404 := rfl

@[simp] theorem status_deleted : deleted.status = 204 := rfl

@[simp] theorem status_updated : updated.status = 200 := rfl

@[simp] theorem status_nothingToUpdate : nothingToUpdate.status = 404 := rfl

end Reply

/-- The test `words === undefined || words.length === 0`. -/
def missing : JsValue → Except String Bool
  | .undefined => .ok true
  | .null => .error "Cannot read properties of null (reading 'length')"
  | .str words => .ok (words == "")
  | .arr items => .ok items.isEmpty
  | .obj fields =>
      .ok (((fields.lookup "length").getD .undefined).strictEq (.num 0))
  | .bool _ => .ok false
  | .num _ => .ok false

def wordsOf (userId : String) : DbCall :=
  .get ["words"] [("userId", .str userId)]

def savedWords : Except String (List Row) → Handler
  | .error message => .done (.failed message)
  | .ok _ => .done .saved

def saveUnlessStored (userId : String) (words : JsValue) :
    Except String (List Row) → Handler
  | .error message => .done (.failed message)
  | .ok data =>
      if 0 < data.length then .done .alreadySaved
      else .call (.insert userId words) savedWords

def saveRecoveryWords (userId : String) (words : JsValue) : Handler :=
  match missing words with
  | .error message => .done (.failed message)
  | .ok true => .done ⟨400, .obj [("error", .str "Missing recovery words")]⟩
  | .ok false => .call (wordsOf userId) (saveUnlessStored userId words)

def showWords : Except String (List Row) → Handler
  | .error message => .done (.failed message)
  | .ok [] => .done .noWords
  | .ok [row] => .done (.shown row.words)
  | .ok (_ :: _ :: _) => .done (errorMiddleware
      (.vaultAPIError "User has more than one recovery sentence" 409))

def getRecoveryWords (userId : String) : Handler :=
  .call (wordsOf userId) showWords

def deletedWords : Except String Unit → Handler
  | .error message => .done (.failed message)
  | .ok _ => .done .deleted

def deleteIfStored (userId : String) : Except String (List Row) → Handler
  | .error message => .done (.failed message)
  | .ok data =>
      if data.length = 0 then .done .noWords
      else .call (.deleteWhere userId) deletedWords

def deleteRecoveryWords (userId : String) : Handler :=
  .call (wordsOf userId) (deleteIfStored userId)

def updatedWords : Except String (List Row) → Handler
  | .error message => .done (.failed message)
  | .ok _ => .done .updated

def updateIfStored (userId : String) (words : JsValue) :
    Except String (List Row) → Handler
  | .error message => .done (.failed message)
  | .ok data =>
      if data.length = 0 then .done .nothingToUpdate
      else .call (.update words userId) updatedWords

def updateRecoveryWords (userId : String) (words : JsValue) : Handler :=
  match missing words with
  | .error message => .done (.failed message)
  | .ok true =>
      .done ⟨400, .obj [("message", .str "Missing recovery sentence")]⟩
  | .ok false => .call (wordsOf userId) (updateIfStored userId words)

/-- A request of a user whose token has been accepted; `words` is the field of
the body. -/
inductive Request where
  | save (userId : String) (words : JsValue)
  | get (userId : String)
  | update (userId : String) (words : JsValue)
  | delete (userId : String)

namespace Request

def userId : Request → String
  | save userId _ => userId
  | get userId => userId
  | update userId _ => userId
  | delete userId => userId

def handler : Request → Handler
  | save userId words => saveRecoveryWords userId words
  | get userId => getRecoveryWords userId
  | update userId words => updateRecoveryWords userId words
  | delete userId => deleteRecoveryWords userId

end Request

theorem statement_wordsOf {engine : Engine} {table : RecoveryWords}
    {userId : String} (named : userId ≠ "") :
    statement engine (wordsOf userId) table =
      (.ok (table.rows.filter fun row => row.userId = userId), table) := by
  rcases getStatement_spec ["words"] [("userId", .str userId)] with
    ⟨hresolve, _⟩ | ⟨resolved, chosen, hresolve, hchosen, hselects⟩
  · rw [IdentityServer.resolve_cons_str, if_neg named] at hresolve
    cases hresolve
  · rw [IdentityServer.resolve_cons_str, if_neg named] at hresolve
    cases hresolve
    simp only [wordsOf, statement, hchosen]
    congr 2
    apply List.filter_congr
    intro row _
    rw [hselects, Bool.eq_iff_iff]
    simp [IdentityServer.selectsAll, Row.cell, Operator.test]

end TwakeKickstart.TomServer.Vault
