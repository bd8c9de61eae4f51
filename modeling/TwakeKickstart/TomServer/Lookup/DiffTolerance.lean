import TwakeKickstart.Library.Traversal
import TwakeKickstart.TomServer.Lookup.Diff

namespace TwakeKickstart.TomServer

open Library Utils IdentityServer

/-! A history that is ahead of the directory: `POST /lookup/diff` joins two
tables that are updated at different times. -/

/-- The users that the query finds in a directory. -/
def UserQuery.run (query : UserQuery) (directory : List UserRow) :
    List UserRow :=
  directory.filter (listed query.uids)

/-- The reply to a request whose database calls succeed. -/
def diff (data : DiffQueryBody) (timestamp : Nat) (store : Store)
    (directory : List UserRow) : DiffReply :=
  match changedRows false data.since store with
  | none => .failed
  | some rows =>
      diffReply data timestamp rows ((userQuery data rows).run directory)

/-! What the reply has to say. -/

/-- The rows of the history that are younger than a time, by address. -/
def historySince (since : Int) (store : Store) : List HistoryRow :=
  ((store .userHistory).filter fun row =>
    decide (since < row.timestamp)).insertionSort
      fun row other => row.address ≤ other.address

def activeRows (rows : List HistoryRow) : List HistoryRow :=
  rows.filter (·.active != 0)

def inactiveRows (rows : List HistoryRow) : List HistoryRow :=
  rows.filter (·.active == 0)

/-- What `offset` and `limit` leave of a list. -/
def DiffQueryBody.window {α : Type} (data : DiffQueryBody) (items : List α) :
    List α :=
  slice items (data.offset.getD 0) (data.offset.getD 0 + data.limit.getD 30)

/-- The directory has the user of the row. -/
def Resolvable (directory : List UserRow) (row : HistoryRow) : Prop :=
  ∃ user ∈ directory, user.uid = some (localPart row.address)

/-- The request is answered, with the rows of the window. -/
def Tolerates (data : DiffQueryBody) (timestamp : Nat)
    (rows : List HistoryRow) (directory : List UserRow) (reply : DiffReply) :
    Prop :=
  ∃ new deleted, reply = .body new deleted timestamp ∧
    (∀ row ∈ data.window (activeRows rows), Resolvable directory row →
      ∃ user ∈ directory, user.uid = some (localPart row.address) ∧
        some ⟨user, row.address⟩ ∈ new) ∧
    ∀ row ∈ data.window (inactiveRows rows),
      ⟨localPart row.address, row.address⟩ ∈ deleted

/-- The last active row of the user of this one has the same address. -/
def LastOfUser (rows : List HistoryRow) (row : HistoryRow) : Prop :=
  ∃ before last after, activeRows rows = before ++ last :: after ∧
    last.address = row.address ∧
    ∀ other ∈ after, localPart other.address ≠ localPart row.address

/-- Each active row has a user, or the name of a member of every object; a row
of the window does not give way to another address of its user. -/
structure Joinable (data : DiffQueryBody) (rows : List HistoryRow)
    (directory : List UserRow) : Prop where
  resolved : ∀ row ∈ activeRows rows, Resolvable directory row ∨
    localPart row.address ∈ inheritedMembers
  last : ∀ row ∈ data.window (activeRows rows), Resolvable directory row →
    LastOfUser rows row

/-! The join. -/

variable {data : DiffQueryBody} {timestamp : Nat} {store : Store}
  {rows : List HistoryRow} {directory : List UserRow} {row : HistoryRow}

theorem mem_run {query : UserQuery} {user : UserRow} :
    user ∈ query.run directory ↔
      user ∈ directory ∧ ∃ uid ∈ query.uids, user.uid = some uid := by
  unfold UserQuery.run listed
  rw [List.mem_filter, Option.any_eq_true]
  simp only [List.contains_iff_mem]
  exact and_congr_right fun _ =>
    ⟨fun ⟨uid, h, hmem⟩ => ⟨uid, hmem, h⟩,
      fun ⟨uid, hmem, h⟩ => ⟨uid, h, hmem⟩⟩

theorem resolvable_run (hrow : row ∈ rows) :
    Resolvable ((userQuery data rows).run directory) row ↔
      Resolvable directory row := by
  constructor
  · intro ⟨user, huser, huid⟩
    exact ⟨user, (mem_run.mp huser).1, huid⟩
  · intro ⟨user, huser, huid⟩
    have hasked : localPart row.address ∈ (userQuery data rows).uids :=
      List.mem_map_of_mem hrow
    exact ⟨user, mem_run.mpr ⟨huser, _, hasked, huid⟩, huid⟩

theorem lastAddress_eq_iff :
    lastAddress rows (localPart row.address) = some row.address ↔
      LastOfUser rows row := by
  unfold lastAddress LastOfUser activeRows
  rw [Option.map_eq_some_iff]
  constructor
  · intro ⟨last, hfound, haddress⟩
    obtain ⟨_, after, before, hsplit, hother⟩ :=
      List.find?_eq_some_iff_append.mp hfound
    refine ⟨before.reverse, last, after.reverse, ?_, haddress, ?_⟩
    · rw [← List.reverse_reverse (rows.filter _), hsplit]
      simp
    · intro other hmem
      simpa using hother other (List.mem_reverse.mp hmem)
  · intro ⟨before, last, after, hsplit, haddress, hother⟩
    refine ⟨last, List.find?_eq_some_iff_append.mpr
      ⟨by simp [haddress], after.reverse, before.reverse, ?_, ?_⟩, haddress⟩
    · rw [hsplit]
      simp
    · intro other hmem
      simpa using hother other (List.mem_reverse.mp hmem)

theorem newUser_resolvable (resolvable : Resolvable directory row)
    (active : row ∈ activeRows rows) :
    ∃ user address, user ∈ directory ∧
      user.uid = some (localPart row.address) ∧
      lastAddress rows (localPart row.address) = some address ∧
      newUser rows directory row = some (some ⟨user, address⟩) := by
  obtain ⟨user, huser, huid⟩ := resolvable
  obtain ⟨last, hlast, hsame⟩ := exists_lastWith huser
  rw [huid] at hlast hsame
  have haddress : (lastAddress rows (localPart row.address)).isSome = true := by
    unfold lastAddress
    rw [Option.isSome_map, List.find?_isSome]
    exact ⟨row, List.mem_reverse.mpr active, beq_self_eq_true _⟩
  obtain ⟨address, haddress⟩ := Option.isSome_iff_exists.mp haddress
  refine ⟨last, address, (mem_of_lastWith hlast).1, hsame, haddress, ?_⟩
  simp only [newUser, hlast, haddress, Option.getD_some]

theorem newUser_isSome_iff :
    (∃ entry, newUser rows directory row = some entry) ↔
      Resolvable directory row ∨ localPart row.address ∈ inheritedMembers := by
  cases hlast : lastWith directory (some (localPart row.address)) with
  | some user =>
      obtain ⟨huser, huid⟩ := mem_of_lastWith hlast
      exact ⟨fun _ => .inl ⟨user, huser, huid⟩,
        fun _ => ⟨_, by simp only [newUser, hlast]; rfl⟩⟩
  | none =>
      have hmissing : ¬ Resolvable directory row := by
        rintro ⟨user, huser, huid⟩
        obtain ⟨last, hfound, _⟩ := exists_lastWith huser
        rw [huid, hlast] at hfound
        cases hfound
      simp [newUser, hlast, hmissing]

theorem newUsers_isSome_iff :
    (∃ users, newUsers rows directory = some users) ↔
      ∀ row ∈ activeRows rows, Resolvable directory row ∨
        localPart row.address ∈ inheritedMembers := by
  rw [newUsers, ← Option.isSome_iff_exists, mapM_isSome_iff]
  exact forall₂_congr fun _ _ =>
    Option.isSome_iff_exists.trans newUser_isSome_iff

theorem newUsers_window {users : List (Option NewUser)}
    (found : newUsers rows directory = some users) :
    data.window users = (data.window (activeRows rows)).map fun row =>
      (newUser rows directory row).getD none := by
  have hsome := newUsers_isSome_iff.mp ⟨users, found⟩
  have hmap : newUsers rows directory = some ((activeRows rows).map fun row =>
      (newUser rows directory row).getD none) := by
    apply mapM_eq_some_map
    intro row hrow
    obtain ⟨entry, hentry⟩ := newUser_isSome_iff.mpr (hsome row hrow)
    rw [hentry]
    rfl
  rw [found, Option.some.injEq] at hmap
  rw [hmap]
  exact slice_map _ _ _ _

theorem mem_deleted_window (h : row ∈ data.window (inactiveRows rows)) :
    ⟨localPart row.address, row.address⟩ ∈
      data.window (deletedUsers rows) := by
  have hmap : data.window (deletedUsers rows) =
      (data.window (inactiveRows rows)).map fun row =>
        ⟨localPart row.address, row.address⟩ := slice_map _ _ _ _
  rw [hmap]
  exact List.mem_map_of_mem h

/-- A row of the window is among the entries exactly if no later row of the
same user has changed the address of their common object. -/
theorem mem_new_iff {users : List (Option NewUser)}
    (found : newUsers rows directory = some users)
    (listed : row ∈ data.window (activeRows rows))
    (resolvable : Resolvable directory row) :
    (∃ user ∈ directory, user.uid = some (localPart row.address) ∧
      some ⟨user, row.address⟩ ∈ data.window users) ↔
      LastOfUser rows row := by
  obtain ⟨user, address, huser, huid, haddress, hentry⟩ :=
    newUser_resolvable resolvable (mem_of_mem_slice listed)
  rw [newUsers_window found, ← lastAddress_eq_iff]
  constructor
  · intro ⟨other, _, hsame, hmem⟩
    obtain ⟨source, hsource, hequal⟩ := List.mem_map.mp hmem
    cases hlast : lastWith directory (some (localPart source.address)) with
    | none =>
        simp only [newUser, hlast] at hequal
        split at hequal <;> cases hequal
    | some last =>
        simp only [newUser, hlast, Option.getD_some, Option.some.injEq,
          NewUser.mk.injEq] at hequal
        obtain ⟨rfl, hequal⟩ := hequal
        have hpart : localPart source.address = localPart row.address := by
          have hlastUid := (mem_of_lastWith hlast).2
          rw [hsame, Option.some.injEq] at hlastUid
          exact hlastUid.symm
        rw [hpart, haddress, Option.getD_some] at hequal
        rw [haddress, hequal]
  · intro hlast
    rw [haddress, Option.some.injEq] at hlast
    subst hlast
    refine ⟨user, huser, huid, List.mem_map.mpr ⟨row, listed, ?_⟩⟩
    rw [hentry]
    rfl

theorem diff_eq :
    diff data timestamp store directory =
      diffReply data timestamp (historySince data.since store)
        ((userQuery data (historySince data.since store)).run directory) := by
  unfold diff
  rw [changedRows_healthy]
  rfl

theorem diffReply_failed (missing : newUsers rows directory = none) :
    diffReply data timestamp rows directory = .failed := by
  simp only [diffReply, missing]

theorem diffReply_body {users : List (Option NewUser)}
    (found : newUsers rows directory = some users) :
    diffReply data timestamp rows directory =
      .body (data.window users) (data.window (deletedUsers rows))
        timestamp := by
  simp only [diffReply, found]
  rfl

/-- The reply tolerates the history exactly if its rows can be joined. -/
theorem diff_tolerates_iff (data : DiffQueryBody) (timestamp : Nat)
    (store : Store) (directory : List UserRow) :
    Tolerates data timestamp (historySince data.since store) directory
        (diff data timestamp store directory) ↔
      Joinable data (historySince data.since store) directory := by
  rw [diff_eq]
  generalize historySince data.since store = rows
  have hsame : ∀ row ∈ activeRows rows,
      (Resolvable ((userQuery data rows).run directory) row ↔
        Resolvable directory row) := fun row hrow =>
    resolvable_run (List.mem_of_mem_filter hrow)
  constructor
  · intro ⟨new, deleted, hreply, hlisted, _⟩
    cases hnew : newUsers rows ((userQuery data rows).run directory) with
    | none =>
        rw [diffReply_failed hnew] at hreply
        cases hreply
    | some users =>
        rw [diffReply_body hnew, DiffReply.body.injEq] at hreply
        obtain ⟨rfl, _, _⟩ := hreply
        have hresolved := newUsers_isSome_iff.mp ⟨users, hnew⟩
        refine ⟨fun row hrow => (hresolved row hrow).imp_left
          (hsame row hrow).mp, fun row hrow hresolvable => ?_⟩
        have hactive := mem_of_mem_slice hrow
        apply (mem_new_iff hnew hrow
          ((hsame row hactive).mpr hresolvable)).mp
        obtain ⟨user, huser, huid, hmem⟩ := hlisted row hrow hresolvable
        have hasked : localPart row.address ∈ (userQuery data rows).uids :=
          List.mem_map_of_mem (List.mem_of_mem_filter hactive)
        exact ⟨user, mem_run.mpr ⟨huser, _, hasked, huid⟩, huid, hmem⟩
  · intro hjoin
    obtain ⟨users, hnew⟩ := newUsers_isSome_iff.mpr fun row hrow =>
      (hjoin.resolved row hrow).imp_left (hsame row hrow).mpr
    refine ⟨_, _, diffReply_body hnew, ?_, fun row => mem_deleted_window⟩
    intro row hrow hresolvable
    have hactive := mem_of_mem_slice hrow
    obtain ⟨user, huser, huid, hmem⟩ := (mem_new_iff hnew hrow
      ((hsame row hactive).mpr hresolvable)).mpr
        (hjoin.last row hrow hresolvable)
    exact ⟨user, (mem_run.mp huser).1, huid, hmem⟩

/-- Bob has left the directory before the history says so. -/
def departedStore : Store := fun table =>
  match table with
  | .userHistory => [⟨"@alice:twake.app", 1, 1⟩, ⟨"@bob:twake.app", 1, 1⟩]
  | _ => []

def remainingUsers : List UserRow := [⟨some "alice", none, none, none⟩]

theorem departed_user_fails :
    diff { since := 0 } 2 departedStore remainingUsers = .failed ∧
    ¬ Tolerates { since := 0 } 2 (historySince 0 departedStore) remainingUsers
      (diff { since := 0 } 2 departedStore remainingUsers) := by
  have hreply : diff { since := 0 } 2 departedStore remainingUsers =
      .failed := by
    rw [diff_eq]
    apply diffReply_failed
    decide
  refine ⟨hreply, ?_⟩
  intro ⟨_, _, hbody, _⟩
  rw [hreply] at hbody
  cases hbody

end TwakeKickstart.TomServer
