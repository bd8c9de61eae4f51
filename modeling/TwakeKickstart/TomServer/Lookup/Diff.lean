import Mathlib
import TwakeKickstart.Library.Paging
import TwakeKickstart.IdentityServer.Cron.UserRun

namespace TwakeKickstart.TomServer

open Library Utils IdentityServer

/-! `POST /lookup/diff`: the users whose history has changed since a time. -/

/-- The validated body. -/
structure DiffQueryBody where
  since : Int
  fields : Option (List String) := none
  limit : Option Int := none
  offset : Option Int := none

/-- The rows of a table whose columns are higher than the values of the
filter, by the text of one column. -/
def getHigherThan (fails : Bool) (fields : List String) (filter : Filter)
    (store : Store) : Option (List HistoryRow) :=
  if fails then none
  else
    (_get fields [(.and, .gt, filter)]).map fun statement =>
      ((store .userHistory).filter fun row =>
        statement.selects (cell .userHistory row)).insertionSort
          fun row other => row.address ≤ other.address

def changedRows (fails : Bool) (since : Int) (store : Store) :
    Option (List HistoryRow) :=
  getHigherThan fails ["address", "active"] [("timestamp", .num since)] store

/-- `userDB.get('users', fields, { uid: uids })` -/
structure UserQuery where
  fields : List String
  uids : List String

def userQuery (data : DiffQueryBody) (rows : List HistoryRow) :
    UserQuery where
  fields :=
    let fields := data.fields.getD []
    if fields.contains "uid" then fields else fields ++ ["uid"]
  uids := rows.map fun row => localPart row.address

/-- An entry of `new`.  Rows of one user share the object of that user, so the
last of them gives its address. -/
structure NewUser where
  user : UserRow
  address : String

structure DeletedUser where
  uid : String
  address : String
  deriving DecidableEq

inductive DiffReply where
  | failed
  | body (new : List (Option NewUser)) (deleted : List DeletedUser)
      (timestamp : Nat)

def lastAddress (rows : List HistoryRow) (uid : String) : Option String :=
  ((rows.filter (·.active != 0)).reverse.find? fun row =>
    localPart row.address == uid).map HistoryRow.address

/-- The user that is pushed for an active row: `none` when there is no such
user, which throws.  A value that every object inherits is no user, and is
encoded as `null`. -/
def newUser (rows : List HistoryRow) (userRows : List UserRow)
    (row : HistoryRow) : Option (Option NewUser) :=
  let uid := localPart row.address
  match lastWith userRows (some uid) with
  | some user => some (some ⟨user, (lastAddress rows uid).getD row.address⟩)
  | none => if inheritedMembers.contains uid then some none else none

def newUsers (rows : List HistoryRow) (userRows : List UserRow) :
    Option (List (Option NewUser)) :=
  (rows.filter (·.active != 0)).mapM (newUser rows userRows)

def deletedUsers (rows : List HistoryRow) : List DeletedUser :=
  (rows.filter (·.active == 0)).map fun row =>
    ⟨localPart row.address, row.address⟩

def diffReply (data : DiffQueryBody) (timestamp : Nat)
    (rows : List HistoryRow) (userRows : List UserRow) : DiffReply :=
  match newUsers rows userRows with
  | none => .failed
  | some users =>
      let first := data.offset.getD 0
      let last := first + data.limit.getD 30
      .body (slice users first last) (slice (deletedUsers rows) first last)
        timestamp

/-! The rows that are found, and what the reply says of them. -/

theorem changedRows_healthy (since : Int) (store : Store) :
    changedRows false since store =
      some (((store .userHistory).filter fun row =>
        decide (since < row.timestamp)).insertionSort
          fun row other => row.address ≤ other.address) := by
  have hresolve : Filter.resolve [("timestamp", .num since)] =
      some [("timestamp", [toString since])] := by
    have htext : (JsValue.num since).text? = some (toString since) := rfl
    rw [resolve_single rfl, htext, Option.bind_some,
      if_neg (num_text_ne_empty since)]
    rfl
  rcases get_spec .gt ["address", "active"] [("timestamp", .num since)] with
    ⟨hnone, _⟩ | ⟨resolved, statement, hsome, hstatement, hselects⟩
  · rw [hresolve] at hnone
    cases hnone
  · rw [hresolve, Option.some.injEq] at hsome
    subst hsome
    simp only [changedRows, getHigherThan, Bool.false_eq_true, if_false,
      hstatement, Option.map_some]
    congr 2
    apply List.filter_congr
    intro row _
    rw [hselects]
    simp [selectsAll, cell, Operator.test]

theorem mem_changedRows {since : Int} {store : Store} {rows : List HistoryRow}
    (found : changedRows false since store = some rows) {row : HistoryRow} :
    row ∈ rows ↔ row ∈ store .userHistory ∧ since < row.timestamp := by
  rw [changedRows_healthy, Option.some.injEq] at found
  rw [← found, List.mem_insertionSort, List.mem_filter, decide_eq_true_eq]

/-- The user of the row is among those of the reply. -/
def DiffReply.reports (reply : DiffReply) (address : String) : Bool :=
  match reply with
  | .failed => false
  | .body new deleted _ =>
      (new.any fun entry => entry.any fun found =>
        found.user.uid == some (localPart address)) ||
      deleted.contains ⟨localPart address, address⟩

/-- No limit is exceeded. -/
structure WithinLimits (data : DiffQueryBody) (rows : List HistoryRow) :
    Prop where
  offset : data.offset.getD 0 = 0
  active : ((rows.filter (·.active != 0)).length : Int) ≤ data.limit.getD 30
  gone : ((rows.filter (·.active == 0)).length : Int) ≤ data.limit.getD 30

theorem mapM_newUser {rows listed : List HistoryRow}
    {userRows : List UserRow}
    (known : ∀ row ∈ listed,
      ∃ user ∈ userRows, user.uid = some (localPart row.address)) :
    ∃ users, listed.mapM (newUser rows userRows) = some users ∧
      users.length = listed.length ∧
      ∀ row ∈ listed, ∃ found, some found ∈ users ∧
        found.user.uid = some (localPart row.address) := by
  induction listed with
  | nil => exact ⟨[], rfl, rfl, fun _ h => absurd h List.not_mem_nil⟩
  | cons head rest ih =>
      obtain ⟨user, huser, huid⟩ := known head List.mem_cons_self
      obtain ⟨last, hlast, hsame⟩ := exists_lastWith huser
      rw [huid] at hlast hsame
      obtain ⟨users, husers, hlength, hfound⟩ := ih fun row hrow =>
        known row (List.mem_cons_of_mem _ hrow)
      have hhead : newUser rows userRows head = some (some ⟨last,
          (lastAddress rows (localPart head.address)).getD head.address⟩) := by
        simp only [newUser, hlast]
      refine ⟨some ⟨last, (lastAddress rows (localPart head.address)).getD
        head.address⟩ :: users, ?_, ?_, ?_⟩
      · rw [List.mapM_cons, hhead, husers]
        rfl
      · rw [List.length_cons, List.length_cons, hlength]
      · intro row hrow
        rcases List.mem_cons.mp hrow with rfl | hrest
        · exact ⟨_, List.mem_cons_self, hsame⟩
        · obtain ⟨found, hmem, hfoundUid⟩ := hfound row hrest
          exact ⟨found, List.mem_cons_of_mem _ hmem, hfoundUid⟩

theorem reports_diffReply {data : DiffQueryBody} (timestamp : Nat)
    {rows : List HistoryRow} {userRows : List UserRow}
    (within : WithinLimits data rows)
    (known : ∀ row ∈ rows, row.active ≠ 0 →
      ∃ user ∈ userRows, user.uid = some (localPart row.address)) :
    (∃ new deleted, diffReply data timestamp rows userRows =
      .body new deleted timestamp) ∧
    ∀ row ∈ rows,
      (diffReply data timestamp rows userRows).reports row.address =
        true := by
  obtain ⟨users, husers, hlength, hfound⟩ := @mapM_newUser rows
    (rows.filter (·.active != 0)) userRows (by
      intro row hrow
      obtain ⟨hmem, hactive⟩ := List.mem_filter.mp hrow
      exact known row hmem (by simpa using hactive))
  have hgone : (deletedUsers rows).length =
      (rows.filter (·.active == 0)).length := List.length_map _
  have hreply : diffReply data timestamp rows userRows =
      .body users (deletedUsers rows) timestamp := by
    have hactive := within.active
    have hdeleted := within.gone
    rw [← hlength] at hactive
    rw [← hgone] at hdeleted
    simp only [diffReply, newUsers, husers, within.offset, Int.zero_add]
    rw [slice_all hactive, slice_all hdeleted]
  rw [hreply]
  refine ⟨⟨users, _, rfl⟩, ?_⟩
  intro row hrow
  by_cases hactive : row.active = 0
  · have hmem : ⟨localPart row.address, row.address⟩ ∈ deletedUsers rows :=
      List.mem_map.mpr ⟨row, List.mem_filter.mpr
        ⟨hrow, by simpa using hactive⟩, rfl⟩
    simp only [DiffReply.reports, Bool.or_eq_true, List.contains_iff_mem]
    exact .inr hmem
  · obtain ⟨found, hmem, huid⟩ := hfound row
      (List.mem_filter.mpr ⟨hrow, by simpa using hactive⟩)
    simp only [DiffReply.reports, Bool.or_eq_true, List.any_eq_true]
    exact .inl ⟨some found, hmem, by simp [huid]⟩

end TwakeKickstart.TomServer
