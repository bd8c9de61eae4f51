import TwakeKickstart.IdentityServer.Cron.UserStatus
import TwakeKickstart.IdentityServer.Lookup

namespace TwakeKickstart.IdentityServer

open Library Utils

/-! Whether directory, history and lookup agree once `updateUsers` has run. -/

/-! The primary key of the hash table. -/

section Unique

variable {env : Environment} {conf : Config} {outcome : UserOutcome}
variable {operation : UserOperation} {update : UserUpdate}

theorem uniqueHashes_insert {store : Store} {row : HashRow}
    (unique : UniqueHashes (store .hashes)) :
    UniqueHashes ((attempt env false (.insert .hashes row) store).2
      .hashes) := by
  rcases attempt_insertHash_healthy env row store with
    ⟨_, hrefused⟩ | ⟨hfree, rows, hstored⟩
  · rw [hrefused]
    exact unique
  · rw [hstored]
    dsimp only
    rw [Function.update_self]
    refine List.pairwise_append.mpr ⟨unique, List.pairwise_singleton _ _, ?_⟩
    intro other hother last hlast
    rw [List.mem_singleton.mp hlast]
    exact hfree other hother

theorem uniqueHashes_activate {store : Store} {address : String}
    (unique : UniqueHashes (store .hashes)) :
    UniqueHashes ((attempt env false
      (.update .hashes (fun row => { row with active := some 1 }) "value"
        (.str address)) store).2 .hashes) := by
  simp only [attempt, Bool.false_eq_true, if_false, execute,
    Function.update_self, updateRows]
  refine List.Pairwise.map _ ?_ unique
  intro row other hdistinct
  split
  · split
    · exact hdistinct
    · exact hdistinct
  · split
    · exact hdistinct
    · exact hdistinct

theorem react_unique (healthy : outcome.fails = false)
    (unique : UniqueHashes (update.store .hashes)) :
    UniqueHashes ((UserUpdate.react env conf outcome operation
      update).1.store .hashes) := by
  have hother : Collections.hashes ≠ .userHistory := by decide
  cases operation with
  | getUsers =>
      rw [react_read_store rfl]
      exact unique
  | getHashes =>
      rw [react_read_store rfl]
      exact unique
  | getHistory =>
      rw [react_read_store rfl]
      exact unique
  | getMatrixUsers =>
      rw [react_read_store rfl]
      exact unique
  | updateHistory row =>
      simp only [UserUpdate.react, healthy, attempt, Bool.false_eq_true,
        if_false, execute]
      rw [Function.update_of_ne hother]
      exact unique
  | insertHistory row =>
      simp only [UserUpdate.react, healthy, attempt, Bool.false_eq_true,
        if_false, execute]
      split
      · exact unique
      · dsimp only
        rw [Function.update_of_ne hother]
        exact unique
  | deactivateHistory selected =>
      simp only [UserUpdate.react, healthy, attempt, Bool.false_eq_true,
        if_false, execute]
      rw [Function.update_of_ne hother]
      exact unique
  | activateHashes address =>
      simp only [UserUpdate.react, healthy]
      exact uniqueHashes_activate unique
  | getActive selected timestamp =>
      rw [(react_lookup env conf outcome selected timestamp update).1]
      exact unique
  | hash task =>
      simp only [UserUpdate.react, healthy]
      cases task with
      | getPepper args =>
          simp only [Workers.react]
          split
          · exact unique
          · exact unique
      | insert args pepper =>
          have hinsert := @uniqueHashes_insert env update.store
            (args.row env pepper) unique
          simp only [Workers.react]
          split
          · rename_i hattempt
            rw [hattempt] at hinsert
            exact hinsert
          · rename_i hattempt
            rw [hattempt] at hinsert
            exact hinsert

theorem run_unique {users : List UserRow} {entries : Option (List String)}
    {start final : UserLoop} (run : UpdateRun env conf users entries start final)
    (unique : UniqueHashes (start.vars.store .hashes)) :
    UniqueHashes (final.vars.store .hashes) := by
  refine run.invariant (fun loop => UniqueHashes (loop.vars.store .hashes))
    unique ?_
  intro before event after hunique replies stepped
  obtain ⟨operation, _, completes⟩ := Loop.complete_cases stepped
  rw [completes.vars]
  exact react_unique replies.healthy hunique

end Unique

/-! When the directory and the lookup tables agree. -/

def isActive (store : Store) (address : String) : Bool :=
  (historyOf store address).any (·.active != 0)

def Inactive (store : Store) (address : String) : Prop :=
  ∃ row, historyOf store address = some row ∧ row.active = 0

/-- Some lookup answers with the user among its `mappings`. -/
def Returned (conf : Config) (store : Store) (mxid : String) : Prop :=
  ∃ addresses mappings others name,
    addresses.length ≤ conf.hashesRateLimit ∧
    lookupBody conf (selectHashes (store .hashes) addresses) =
      .obj (("mappings", .obj mappings) :: others) ∧
    mappings.lookup name = some (.str mxid)

/-- The users that the Matrix database lists; without one, all of them. -/
def isMatrixUid (conf : Config) (entries : Option (List String))
    (uid : Option String) : Bool :=
  !conf.isMatrixDbAvailable ||
    uid.any ((entries.getD []).map localPart).contains

/-- A user of this server. -/
def Local (conf : Config) (mxid : String) : Prop :=
  ∃ uid, toMatrixId (some uid) conf.serverName = .ok mxid

/-- The store without some of the hashes. -/
def keepHashes (store : Store) (keep : HashRow → Bool) : Store :=
  Function.update store .hashes ((store .hashes).filter keep)

/-- A run that has resolved, and its store. -/
structure Resolved (env : Environment) (conf : Config) (users : List UserRow)
    (entries : Option (List String)) (start after : Store) : Prop where
  run : ∃ final, UpdateRun env conf users entries (startUpdate conf start)
    final ∧ final.pending = [] ∧ final.vars.rejected = false ∧
    final.vars.store = after

structure Agrees (env : Environment) (conf : Config) (users : List UserRow)
    (entries : Option (List String)) (start after : Store) : Prop where
  present : ∀ user ∈ users, ∀ mxid,
    toMatrixId user.uid conf.serverName = .ok mxid →
    isMatrixUid conf entries user.uid = true → isActive after mxid = true
  gone : ∀ uid mxid, toMatrixId (some uid) conf.serverName = .ok mxid →
    (∀ user ∈ users, user.uid ≠ some uid) →
    ((∃ row ∈ start .hashes, row.value = mxid) ∨
      ∃ row ∈ start .userHistory, row.address = mxid) →
    Inactive after mxid ∧ ¬ Returned conf after mxid
  back : ∀ user ∈ users, ∀ mxid,
    toMatrixId user.uid conf.serverName = .ok mxid → Inactive start mxid →
    isMatrixUid conf entries user.uid = true → isActive after mxid = true
  foreign : ∀ keep, (∀ row, Local conf row.value → keep row = true) →
    ∀ other, Resolved env conf users entries (keepHashes start keep) other →
    ∀ mxid, Local conf mxid → isActive other mxid = isActive after mxid

/-! What they come down to. -/

/-- The first row whose value has the `uid` as its local part. -/
def firstRow (rows : List HashRow) (uid : Option String) : Option HashRow :=
  rows.find? fun row => some (localPart row.value) == uid

/-- The user is taken for new or, with a Matrix database, for inactive. -/
def noticed (conf : Config) (rows : List HashRow) (uid : Option String) :
    Bool :=
  match firstRow rows uid with
  | none => true
  | some row => conf.isMatrixDbAvailable && !(row.active.any (· != 0))

def Remembered (rows : List HashRow) (uid : String) : Prop :=
  (∃ row ∈ rows, localPart row.value = uid) ∧ uid ∉ inheritedMembers

structure Agreeable (conf : Config) (users : List UserRow)
    (entries : Option (List String)) (start : Store) : Prop where
  present : ∀ user ∈ users, ∀ mxid,
    toMatrixId user.uid conf.serverName = .ok mxid →
    isMatrixUid conf entries user.uid = true →
    isActive start mxid = true ∨ noticed conf (start .hashes) user.uid = true
  gone : ∀ uid mxid, toMatrixId (some uid) conf.serverName = .ok mxid →
    (∀ user ∈ users, user.uid ≠ some uid) →
    ((∃ row ∈ start .hashes, row.value = mxid) ∨
      ∃ row ∈ start .userHistory, row.address = mxid) →
    (Inactive start mxid ∨ Remembered (start .hashes) uid) ∧
      ∀ row ∈ start .hashes, row.value = mxid → row.active = some 1 →
        row.hash = "__proto__"
  foreign : ∀ keep, (∀ row, Local conf row.value → keep row = true) →
    ∀ uid mxid, toMatrixId (some uid) conf.serverName = .ok mxid →
    ((∃ user ∈ users, user.uid = some uid) →
      isMatrixUid conf entries (some uid) = true →
      isActive start mxid = false →
      noticed conf ((start .hashes).filter keep) (some uid) =
        noticed conf (start .hashes) (some uid)) ∧
    ((∀ user ∈ users, user.uid ≠ some uid) → isActive start mxid = true →
      Remembered (start .hashes) uid →
      Remembered ((start .hashes).filter keep) uid)

section Agreement

variable {env : Environment} {conf : Config} {users : List UserRow}
variable {entries : Option (List String)} {start after : Store}
variable {mxid uid : String}

theorem returned_iff {store : Store} (unique : UniqueHashes (store .hashes)) :
    Returned conf store mxid ↔
      ∃ row ∈ store .hashes, row.value = mxid ∧ row.active = some 1 ∧
        row.hash ≠ "__proto__" := by
  have hunique : UniqueHashes (activeRows (store .hashes)) :=
    uniqueHashes_filter unique _
  constructor
  · rintro ⟨addresses, mappings, others, name, _, hbody, hlookup⟩
    have hmappings : mappings =
        assignAll (selectHashes (activeRows (store .hashes)) addresses) := by
      rw [lookupBody_select] at hbody
      dsimp only at hbody
      split at hbody
      · simp only [JsValue.obj.injEq, List.cons.injEq, Prod.mk.injEq,
          true_and] at hbody
        exact hbody.1.symm
      · simp only [JsValue.obj.injEq, List.cons.injEq, Prod.mk.injEq,
          true_and] at hbody
        exact hbody.1.symm
    rw [hmappings, lookup_assignAll (uniqueHashes_select hunique addresses)]
      at hlookup
    obtain ⟨hproto, row, hrow, hname, hvalue⟩ := hlookup
    obtain ⟨hactive, _⟩ := mem_selectHashes.mp hrow
    obtain ⟨hmem, hone⟩ := List.mem_filter.mp hactive
    refine ⟨row, hmem, (JsValue.str.inj hvalue).symm, by simpa using hone, ?_⟩
    rw [hname]
    exact hproto
  · rintro ⟨row, hrow, rfl, hactive, hproto⟩
    -- a lookup of nothing answers with every row
    have hlookup : (assignAll (selectHashes (activeRows (store .hashes))
        [])).lookup row.hash = some (.str row.value) := by
      rw [lookup_assignAll (uniqueHashes_select hunique [])]
      refine ⟨hproto, row, mem_selectHashes.mpr ⟨?_, .inl (.inl rfl)⟩, rfl,
        rfl⟩
      exact List.mem_filter.mpr ⟨hrow, by simpa using hactive⟩
    cases hfeatures : conf.additionalFeatures with
    | true =>
        refine ⟨[], _, [("inactive_mappings", .obj (assignAll (selectHashes
          (inactiveRows (store .hashes)) [])))], row.hash, Nat.zero_le _, ?_,
          hlookup⟩
        rw [lookupBody_select, hfeatures]
        rfl
    | false =>
        refine ⟨[], _, [], row.hash, Nat.zero_le _, ?_, hlookup⟩
        rw [lookupBody_select, hfeatures]
        rfl

theorem position_gathered (rows : List HashRow) (history : List HistoryRow)
    (uid : Option String) :
    (Facts.gathered conf users entries rows history).position uid =
      (firstRow rows uid).map (·.active) := by
  unfold Facts.position Facts.gathered firstRow
  rw [List.find?_map, Option.map_map]
  rfl

theorem isMatrixUser_gathered (rows : List HashRow)
    (history : List HistoryRow) (uid : Option String) :
    (Facts.gathered conf users entries rows history).isMatrixUser uid =
      (conf.isMatrixDbAvailable && isMatrixUid conf entries uid) := by
  unfold Facts.isMatrixUser Facts.gathered isMatrixUid
  cases conf.isMatrixDbAvailable with
  | true => rfl
  | false => rfl

theorem activity_gathered (rows : List HashRow) (history : List HistoryRow)
    (uid : Option String) :
    (Facts.gathered conf users entries rows history).activity conf uid =
      if isMatrixUid conf entries uid then 1 else 0 := by
  unfold Facts.activity
  rw [isMatrixUser_gathered]
  unfold isMatrixUid
  cases conf.isMatrixDbAvailable with
  | true => rfl
  | false => rfl

theorem userWrites_gathered {rows : List HashRow} {history : List HistoryRow}
    {now : Nat} {user : UserRow} {address : String} :
    (Facts.gathered conf users entries rows history).userWrites conf now user
        address ≠ [] ↔
      isMatrixUid conf entries user.uid = true ∧
        noticed conf rows user.uid = true := by
  unfold Facts.userWrites noticed
  rw [position_gathered]
  cases firstRow rows user.uid with
  | none =>
      dsimp only [Option.map_none]
      rw [activity_gathered]
      cases isMatrixUid conf entries user.uid with
      | true => simp
      | false => simp
  | some row =>
      dsimp only [Option.map_some]
      rw [isMatrixUser_gathered]
      cases conf.isMatrixDbAvailable with
      | true => simp
      | false => simp

theorem written_gathered {rows : List HashRow} {history : List HistoryRow}
    {now : Nat} (named : toMatrixId (some uid) conf.serverName = .ok mxid) :
    Written conf (Facts.gathered conf users entries rows history) now mxid ↔
      (∃ user ∈ users, user.uid = some uid) ∧
        isMatrixUid conf entries (some uid) = true ∧
        noticed conf rows (some uid) = true := by
  constructor
  · rintro ⟨user, huser, hmxid, hwrites⟩
    have huid := toMatrixId_injective hmxid named
    have hnoticed := userWrites_gathered.mp hwrites
    rw [huid] at hnoticed
    exact ⟨⟨user, huser, huid⟩, hnoticed⟩
  · rintro ⟨⟨user, huser, huid⟩, hnoticed⟩
    refine ⟨user, huser, huid ▸ named, userWrites_gathered.mpr ?_⟩
    rw [huid]
    exact hnoticed

theorem removed_gathered {rows : List HashRow} {history : List HistoryRow}
    (named : toMatrixId (some uid) conf.serverName = .ok mxid) :
    Removed conf (Facts.gathered conf users entries rows history) mxid ↔
      (∀ user ∈ users, user.uid ≠ some uid) ∧ Remembered rows uid := by
  have hknown : ∀ other, other ∈ (Facts.gathered conf users entries rows
      history).known.map Prod.fst ↔
      ∃ row ∈ rows, localPart row.value = other := by
    intro other
    simp [Facts.gathered, knownEntry]
  constructor
  · rintro ⟨other, hother, habsent, hown, hmxid⟩
    have hsame := toMatrixId_injective hmxid named
    rw [Option.some.injEq] at hsame
    subst hsame
    exact ⟨habsent, (hknown _).mp hother, hown⟩
  · rintro ⟨habsent, hother, hown⟩
    exact ⟨uid, (hknown uid).mpr hother, habsent, hown, named⟩

theorem resolved_status (resolved : Resolved env conf users entries start after)
    (named : toMatrixId (some uid) conf.serverName = .ok mxid) :
    ((∃ user ∈ users, user.uid = some uid) →
      (isActive after mxid = true ↔ isActive start mxid = true ∨
        isMatrixUid conf entries (some uid) = true ∧
          noticed conf (start .hashes) (some uid) = true)) ∧
    ((∀ user ∈ users, user.uid ≠ some uid) →
      (isActive after mxid = true ↔
        isActive start mxid = true ∧ ¬ Remembered (start .hashes) uid) ∧
      (Inactive after mxid ↔
        Inactive start mxid ∨ Remembered (start .hashes) uid)) := by
  obtain ⟨final, hrun, hended, haccepted, rfl⟩ := resolved.run
  obtain ⟨_, ⟨now, hfinal⟩, _⟩ := resolved_run hrun hended haccepted
  specialize hfinal mxid
  rw [IsFinal, written_gathered named, removed_gathered named] at hfinal
  unfold isActive Inactive
  constructor
  · rintro ⟨user, huser, huid⟩
    rcases hfinal with ⟨⟨_, hmatrix, hnoticed⟩, hrow⟩ |
      ⟨_, ⟨habsent, _⟩, _⟩ | ⟨hnot, _, hrow⟩
    · rw [hrow]
      exact iff_of_true rfl (.inr ⟨hmatrix, hnoticed⟩)
    · exact absurd huid (habsent user huser)
    · rw [hrow]
      refine (or_iff_left ?_).symm
      exact fun h => hnot ⟨⟨user, huser, huid⟩, h⟩
  · intro habsent
    rcases hfinal with ⟨⟨⟨user, huser, huid⟩, _⟩, _⟩ |
      ⟨_, ⟨_, hremembered⟩, hrow⟩ | ⟨_, hnot, hrow⟩
    · exact absurd huid (habsent user huser)
    · have hzero : (deactivated now mxid
          (historyOf start mxid)).active = 0 := by
        cases historyOf start mxid with
        | none => rfl
        | some row => rfl
      rw [hrow]
      refine ⟨?_, ?_⟩
      · refine iff_of_false ?_ fun h => h.2 hremembered
        simp [hzero]
      · exact iff_of_true ⟨_, rfl, hzero⟩ (.inr hremembered)
    · have hforgotten : ¬ Remembered (start .hashes) uid :=
        fun h => hnot ⟨habsent, h⟩
      rw [hrow]
      exact ⟨(and_iff_left hforgotten).symm, (or_iff_left hforgotten).symm⟩

theorem returned_after (unique : UniqueHashes (start .hashes))
    (resolved : Resolved env conf users entries start after)
    (named : toMatrixId (some uid) conf.serverName = .ok mxid)
    (absent : ∀ user ∈ users, user.uid ≠ some uid) :
    Returned conf after mxid ↔ ∃ row ∈ start .hashes, row.value = mxid ∧
      row.active = some 1 ∧ row.hash ≠ "__proto__" := by
  obtain ⟨final, hrun, hended, haccepted, rfl⟩ := resolved.run
  obtain ⟨_, _, hkept⟩ := resolved_run hrun hended haccepted
  rw [returned_iff (run_unique hrun unique)]
  have hunlisted : ¬ Listed conf users mxid := by
    rintro ⟨user, huser, hmxid⟩
    exact absent user huser (toMatrixId_injective hmxid named)
  constructor
  · rintro ⟨row, hrow, rfl, hrest⟩
    exact ⟨row, (hkept row hunlisted).mp hrow, rfl, hrest⟩
  · rintro ⟨row, hrow, rfl, hrest⟩
    exact ⟨row, (hkept row hunlisted).mpr hrow, rfl, hrest⟩

theorem exists_resolved_without
    (resolved : Resolved env conf users entries start after)
    (keep : HashRow → Bool) :
    ∃ other, Resolved env conf users entries (keepHashes start keep) other := by
  obtain ⟨final, hrun, hended, haccepted, rfl⟩ := resolved.run
  obtain ⟨hnameable, _, _⟩ := resolved_run hrun hended haccepted
  have hwithout : Nameable conf (Facts.gathered conf users entries
      (keepHashes start keep .hashes) (keepHashes start keep .userHistory)) := by
    refine ⟨hnameable.users, ?_⟩
    intro uid hknown
    refine hnameable.known uid ?_
    simp only [Facts.gathered, keepHashes, Function.update_self, List.map_map,
      List.mem_map, List.mem_filter] at hknown ⊢
    obtain ⟨row, ⟨hrow, _⟩, huid⟩ := hknown
    exact ⟨row, hrow, huid⟩
  obtain ⟨other, hother⟩ := exists_resolved_run env hwithout
  exact ⟨other.vars.store, other, hother.1, hother.2.1, hother.2.2, rfl⟩

theorem isActive_keepHashes (store : Store) (keep : HashRow → Bool)
    (address : String) :
    isActive (keepHashes store keep) address = isActive store address := by
  have hother : Collections.userHistory ≠ .hashes := by decide
  unfold isActive historyOf keepHashes
  rw [Function.update_of_ne hother]

theorem hashes_keepHashes (store : Store) (keep : HashRow → Bool) :
    keepHashes store keep .hashes = (store .hashes).filter keep :=
  Function.update_self _ _ _

theorem remembered_of_filter {rows : List HashRow} {keep : HashRow → Bool}
    (h : Remembered (rows.filter keep) uid) : Remembered rows uid := by
  obtain ⟨⟨row, hrow, huid⟩, hown⟩ := h
  exact ⟨⟨row, (List.mem_filter.mp hrow).1, huid⟩, hown⟩

theorem foreign_of_agreeable
    (agreeable : Agreeable conf users entries start)
    (resolved : Resolved env conf users entries start after)
    {keep : HashRow → Bool}
    (kept : ∀ row, Local conf row.value → keep row = true) {other : Store}
    (without : Resolved env conf users entries (keepHashes start keep) other)
    (named : toMatrixId (some uid) conf.serverName = .ok mxid) :
    isActive other mxid = isActive after mxid := by
  obtain ⟨hlisted, hgone⟩ := agreeable.foreign keep kept uid mxid named
  have hstatus := resolved_status resolved named
  have hother := resolved_status without named
  rw [isActive_keepHashes, hashes_keepHashes] at hother
  rw [Bool.eq_iff_iff]
  by_cases hdirectory : ∃ user ∈ users, user.uid = some uid
  · rw [hstatus.1 hdirectory, hother.1 hdirectory]
    cases hactive : isActive start mxid with
    | true => simp
    | false =>
        simp only [Bool.false_eq_true, false_or]
        refine and_congr_right ?_
        intro hmatrix
        rw [hlisted hdirectory hmatrix hactive]
  · push Not at hdirectory
    rw [(hstatus.2 hdirectory).1, (hother.2 hdirectory).1]
    refine and_congr_right ?_
    intro hactive
    exact not_congr ⟨remembered_of_filter, hgone hdirectory hactive⟩

theorem agreeable_of_foreign
    (agrees : Agrees env conf users entries start after)
    (resolved : Resolved env conf users entries start after)
    {keep : HashRow → Bool}
    (kept : ∀ row, Local conf row.value → keep row = true)
    (named : toMatrixId (some uid) conf.serverName = .ok mxid) :
    ((∃ user ∈ users, user.uid = some uid) →
      isMatrixUid conf entries (some uid) = true →
      isActive start mxid = false →
      noticed conf ((start .hashes).filter keep) (some uid) =
        noticed conf (start .hashes) (some uid)) ∧
    ((∀ user ∈ users, user.uid ≠ some uid) → isActive start mxid = true →
      Remembered (start .hashes) uid →
      Remembered ((start .hashes).filter keep) uid) := by
  obtain ⟨other, hother⟩ := exists_resolved_without resolved keep
  have hsame := agrees.foreign keep kept other hother mxid ⟨uid, named⟩
  rw [Bool.eq_iff_iff] at hsame
  have hstatus := resolved_status resolved named
  have hwithout := resolved_status hother named
  rw [isActive_keepHashes, hashes_keepHashes] at hwithout
  constructor
  · intro hdirectory hmatrix hinactive
    rw [hstatus.1 hdirectory, hwithout.1 hdirectory, hinactive, hmatrix]
      at hsame
    simp only [Bool.false_eq_true, false_or, true_and] at hsame
    exact Bool.eq_iff_iff.mpr hsame
  · intro hdirectory hactive hremembered
    rw [(hstatus.2 hdirectory).1, (hwithout.2 hdirectory).1, hactive] at hsame
    by_contra hforgotten
    exact (hsame.mp ⟨rfl, hforgotten⟩).2 hremembered

/-- After a run that resolves, directory, history and lookup agree exactly when
no user was missed before it. -/
theorem directory_agrees_iff (unique : UniqueHashes (start .hashes))
    (resolved : Resolved env conf users entries start after) :
    Agrees env conf users entries start after ↔
      Agreeable conf users entries start := by
  constructor
  · intro hagrees
    refine ⟨?_, ?_, ?_⟩
    · intro user huser mxid hmxid hmatrix
      obtain ⟨uid, huid, _⟩ := toMatrixId_ok hmxid
      have hactive := hagrees.present user huser mxid hmxid hmatrix
      rw [huid] at hmxid ⊢
      rw [(resolved_status resolved hmxid).1 ⟨user, huser, huid⟩] at hactive
      exact hactive.imp_right And.right
    · intro uid mxid hmxid habsent hknown
      obtain ⟨hinactive, hhidden⟩ := hagrees.gone uid mxid hmxid habsent hknown
      rw [((resolved_status resolved hmxid).2 habsent).2] at hinactive
      rw [returned_after unique resolved hmxid habsent] at hhidden
      refine ⟨hinactive, ?_⟩
      intro row hrow hvalue hactive
      by_contra hproto
      exact hhidden ⟨row, hrow, hvalue, hactive, hproto⟩
    · intro keep hkept uid mxid hmxid
      exact agreeable_of_foreign hagrees resolved hkept hmxid
  · intro hagreeable
    have hpresent : ∀ user ∈ users, ∀ mxid,
        toMatrixId user.uid conf.serverName = .ok mxid →
        isMatrixUid conf entries user.uid = true →
        isActive after mxid = true := by
      intro user huser mxid hmxid hmatrix
      obtain ⟨uid, huid, _⟩ := toMatrixId_ok hmxid
      have hnoticed := hagreeable.present user huser mxid hmxid hmatrix
      rw [huid] at hmxid hmatrix hnoticed
      rw [(resolved_status resolved hmxid).1 ⟨user, huser, huid⟩]
      exact hnoticed.imp_right fun h => ⟨hmatrix, h⟩
    refine ⟨hpresent, ?_, ?_, ?_⟩
    · intro uid mxid hmxid habsent hknown
      obtain ⟨hinactive, hrows⟩ :=
        hagreeable.gone uid mxid hmxid habsent hknown
      refine ⟨?_, ?_⟩
      · rw [((resolved_status resolved hmxid).2 habsent).2]
        exact hinactive
      · rw [returned_after unique resolved hmxid habsent]
        rintro ⟨row, hrow, hvalue, hactive, hproto⟩
        exact hproto (hrows row hrow hvalue hactive)
    · intro user huser mxid hmxid _ hmatrix
      exact hpresent user huser mxid hmxid hmatrix
    · rintro keep hkept other hother mxid ⟨uid, hmxid⟩
      exact foreign_of_agreeable hagreeable resolved hkept hother hmxid

end Agreement

/-! Runs over a directory with one user. -/

def directoryUser : UserRow where
  uid := some "alice"
  mail := some "alice@example.org"
  mobile := none

def newStore : Store :=
  Function.update emptyStore .keys (keyRows "matrixrocks" "")

def directoryHash : HashRow where
  hash := "alice@example.org email matrixrocks"
  pepper := "matrixrocks"
  type := "email"
  value := "@alice:example.org"
  active := some 1

/-- A run of which every operation succeeds, in the order issued. -/
def updateOnce (users : List UserRow) (operations : Nat) (store : Store) :
    Option UserLoop :=
  runEvents (updateStep (.offline id) .sample)
    (fun _ event => !event.2.fails && event.2.users == users &&
      event.2.entries == none)
    (List.replicate operations (0, healthyOutcome users none))
    (startUpdate .sample store)

structure UpdateSummary where
  ended : Bool
  rejected : Bool
  hashes : List HashRow
  history : List HistoryRow
  deriving DecidableEq

def updateSummary (loop : UserLoop) : UpdateSummary where
  ended := loop.pending.isEmpty
  rejected := loop.vars.rejected
  hashes := loop.vars.store .hashes
  history := loop.vars.store .userHistory

theorem updateRun_of_updateOnce {users : List UserRow} {operations : Nat}
    {store : Store} {loop : UserLoop}
    (run : updateOnce users operations store = some loop) :
    UpdateRun (.offline id) .sample users none (startUpdate .sample store)
      loop := by
  refine reachable_of_runEvents ?_ run
  intro state event permitted
  simp only [Bool.and_eq_true, Bool.not_eq_true', beq_iff_eq] at permitted
  exact ⟨permitted.1.1, permitted.1.2, permitted.2⟩

theorem resolved_of_updateOnce {users : List UserRow} {operations : Nat}
    {store : Store} {loop : UserLoop} {hashes : List HashRow}
    {history : List HistoryRow}
    (run : updateOnce users operations store = some loop)
    (summary : updateSummary loop = ⟨true, false, hashes, history⟩) :
    Resolved (.offline id) .sample users none store loop.vars.store ∧
      loop.vars.store .hashes = hashes := by
  simp only [updateSummary, UpdateSummary.mk.injEq, List.isEmpty_iff]
    at summary
  exact ⟨⟨loop, updateRun_of_updateOnce run, summary.1, summary.2.1, rfl⟩,
    summary.2.2.1⟩

def carolHash : HashRow where
  hash := "carol@example.org email matrixrocks"
  pepper := "matrixrocks"
  type := "email"
  value := "@carol:example.org"
  active := some 0

def daveHash : HashRow where
  hash := "dave@other.org email matrixrocks"
  pepper := "matrixrocks"
  type := "email"
  value := "@dave:other.org"
  active := some 1

def peopledStore : Store :=
  Function.update (Function.update newStore .hashes [carolHash, daveHash])
    .userHistory [⟨"@carol:example.org", 1, 0⟩]

theorem not_local_dave : ¬ Local .sample daveHash.value := by
  rintro ⟨uid, named⟩
  obtain ⟨_, huid, hmxid⟩ := toMatrixId_ok named
  cases huid
  have htail := congrArg (fun text => text.toList.reverse.take 11) hmxid
  simp [daveHash, Config.sample] at htail

theorem known_peopledStore {uid mxid : String}
    (named : toMatrixId (some uid) Config.sample.serverName = .ok mxid)
    (known : (∃ row ∈ peopledStore .hashes, row.value = mxid) ∨
      ∃ row ∈ peopledStore .userHistory, row.address = mxid) :
    uid = "carol" ∧ mxid = "@carol:example.org" := by
  have hcarol : mxid = "@carol:example.org" := by
    rcases known with ⟨row, hrow, rfl⟩ | ⟨row, hrow, rfl⟩
    · rcases List.mem_cons.mp hrow with rfl | hdave
      · rfl
      · rw [List.mem_singleton.mp hdave] at named
        exact absurd ⟨uid, named⟩ not_local_dave
    · rw [List.mem_singleton.mp hrow]
  have huid := localPart_of_toMatrixId named
  rw [hcarol] at huid
  exact ⟨Option.some.inj (huid.trans (by decide)), hcarol⟩

theorem agreeable_peopledStore :
    Agreeable .sample [directoryUser] none peopledStore where
  present := by
    intro user huser _ _ _
    rw [List.mem_singleton.mp huser]
    exact .inr (by decide)
  gone := by
    intro uid mxid named _ known
    obtain ⟨rfl, rfl⟩ := known_peopledStore named known
    refine ⟨.inr ⟨⟨carolHash, List.mem_cons_self, by decide⟩, by decide⟩, ?_⟩
    intro row hrow hvalue hactive
    rcases List.mem_cons.mp hrow with rfl | hdave
    · cases hactive
    · rw [List.mem_singleton.mp hdave] at hvalue
      exact absurd hvalue (by decide)
  foreign := by
    intro keep hkept uid mxid named
    have hrow : carolHash ∈ (peopledStore .hashes).filter keep :=
      List.mem_filter.mpr ⟨List.mem_cons_self, hkept _ ⟨"carol", by decide⟩⟩
    constructor
    · rintro ⟨user, huser, huid⟩ _ _
      rw [List.mem_singleton.mp huser] at huid
      cases huid
      have hnew : firstRow ((peopledStore .hashes).filter keep) (some "alice") =
          none := by
        rw [firstRow, List.find?_eq_none]
        intro row hrow
        have hall : ∀ row ∈ peopledStore .hashes,
            ¬ (some (localPart row.value) == some "alice") = true := by decide
        exact hall row (List.mem_filter.mp hrow).1
      unfold noticed
      rw [hnew]
      decide
    · intro _ hactive hknown
      obtain ⟨row, hhistory, _⟩ := (Option.any_eq_true _ _).mp hactive
      have hmem := List.mem_of_find?_eq_some hhistory
      have haddress : row.address = mxid := by
        simpa using List.find?_some hhistory
      obtain ⟨rfl, rfl⟩ := known_peopledStore named (.inr ⟨row, hmem, haddress⟩)
      exact ⟨⟨carolHash, hrow, by decide⟩, hknown.2⟩

/-- Alice is new, Carol has left, and Dave is a user of another server. -/
theorem directory_agrees_alice :
    ∃ after, Resolved (.offline id) .sample [directoryUser] none peopledStore
        after ∧
      after .hashes = [carolHash, daveHash, directoryHash] ∧
      Agrees (.offline id) .sample [directoryUser] none peopledStore after := by
  have hrun : (updateOnce [directoryUser] 10 peopledStore).map updateSummary =
      some ⟨true, false, [carolHash, daveHash, directoryHash],
        [⟨"@carol:example.org", 0, 0⟩, ⟨"@alice:example.org", 1, 0⟩,
          ⟨"@dave:example.org", 0, 0⟩]⟩ := by
    decide +kernel
  obtain ⟨loop, hloop, hsummary⟩ := Option.map_eq_some_iff.mp hrun
  obtain ⟨hresolved, hhashes⟩ := resolved_of_updateOnce hloop hsummary
  have hunique : UniqueHashes (peopledStore .hashes) :=
    List.pairwise_pair.mpr (by decide +kernel)
  exact ⟨loop.vars.store, hresolved, hhashes,
    (directory_agrees_iff hunique hresolved).mpr agreeable_peopledStore⟩
/-- A user that leaves the directory is still returned by a lookup. -/
theorem gone_user_returned :
    ∃ first second, Resolved (.offline id) .sample [directoryUser] none
        newStore first ∧
      Resolved (.offline id) .sample [] none first second ∧
      ¬ Agrees (.offline id) .sample [] none first second := by
  have hrun : ((updateOnce [directoryUser] 6 newStore).bind fun first =>
      (updateOnce [] 5 first.vars.store).map fun second =>
        (updateSummary first, updateSummary second)) =
      some (⟨true, false, [directoryHash], [⟨"@alice:example.org", 1, 0⟩]⟩,
        ⟨true, false, [directoryHash], [⟨"@alice:example.org", 0, 0⟩]⟩) := by
    decide
  obtain ⟨first, hfirst, hrun⟩ := Option.bind_eq_some_iff.mp hrun
  obtain ⟨second, hsecond, hsummaries⟩ := Option.map_eq_some_iff.mp hrun
  obtain ⟨hbefore, hafter⟩ := Prod.mk.inj hsummaries
  obtain ⟨hresolved, hhashes⟩ := resolved_of_updateOnce hfirst hbefore
  obtain ⟨hgone, hkept⟩ := resolved_of_updateOnce hsecond hafter
  refine ⟨first.vars.store, second.vars.store, hresolved, hgone, ?_⟩
  intro hagrees
  have hnamed : toMatrixId (some "alice") Config.sample.serverName =
      .ok "@alice:example.org" := by decide
  have hunique : UniqueHashes (second.vars.store .hashes) := by
    rw [hkept]
    exact List.pairwise_singleton _ _
  refine (hagrees.gone "alice" "@alice:example.org" hnamed ?_ (.inl ?_)).2 ?_
  · exact fun _ h => absurd h List.not_mem_nil
  · rw [hhashes]
    exact ⟨directoryHash, List.mem_singleton_self _, rfl⟩
  · rw [returned_iff hunique, hkept]
    exact ⟨directoryHash, List.mem_singleton_self _, rfl, rfl, by decide⟩

end TwakeKickstart.IdentityServer
