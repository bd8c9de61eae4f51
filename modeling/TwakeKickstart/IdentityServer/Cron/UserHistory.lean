import TwakeKickstart.IdentityServer.Cron.UserScan

namespace TwakeKickstart.IdentityServer

open Library Utils

/-! What a run of `updateUsers` makes of the history of each user. -/

def historyOf (store : Store) (address : String) : Option HistoryRow :=
  (store .userHistory).find? (·.address == address)

section Writes

variable {env : Environment} {store : Store}

theorem find_map_other {rows : List HistoryRow}
    {values : HistoryRow → HistoryRow} {selected address : String}
    (kept : ∀ row, row.address = selected → (values row).address = selected) :
    (rows.map fun row =>
        if row.address == selected then values row else row).find?
        (·.address == address) =
      if address = selected then
        (rows.find? (·.address == address)).map values
      else rows.find? (·.address == address) := by
  induction rows with
  | nil => simp
  | cons row rest ih =>
      rw [List.map_cons, List.find?_cons, ih]
      by_cases hrow : row.address = selected
      · rw [if_pos (by simpa using hrow), kept row hrow, List.find?_cons, hrow]
        by_cases haddress : address = selected
        · simp [haddress]
        · have hother : (selected == address) = false := by
            simpa using fun h : selected = address => haddress h.symm
          simp only [hother, if_neg haddress]
      · rw [if_neg (by simpa using hrow), List.find?_cons]
        by_cases hfound : (row.address == address) = true
        · have hsame : row.address = address := by simpa using hfound
          have hother : address ≠ selected := fun h => hrow (hsame.trans h)
          simp only [hfound, if_neg hother]
        · rw [Bool.not_eq_true] at hfound
          rw [hfound]

theorem historyOf_update (env : Environment) (store : Store)
    {values : HistoryRow → HistoryRow} {selected : String}
    (kept : ∀ row, row.address = selected → (values row).address = selected)
    (address : String) :
    historyOf (attempt env false
        (.update .userHistory values "address" (.str selected)) store).2
        address =
      if address = selected then (historyOf store address).map values
      else historyOf store address := by
  have hequals : (fun row : HistoryRow =>
      if equals env.driver .userHistory ("address", .str selected) row = true
        then values row else row) =
      fun row => if (row.address == selected) = true then values row
        else row := by
    funext row
    simp [equals, cell, Cell.same]
  have hrows : (attempt env false
      (.update .userHistory values "address" (.str selected)) store).2
      .userHistory = (store .userHistory).map fun row =>
        if row.address == selected then values row else row := by
    simp only [attempt, Bool.false_eq_true, if_false, execute,
      Function.update_self, updateRows]
    rw [hequals]
  unfold historyOf
  rw [hrows]
  exact find_map_other kept

theorem historyOf_insert (env : Environment) (store : Store)
    (row : HistoryRow) (address : String) :
    historyOf (attempt env false (.insert .userHistory row) store).2 address =
      if address = row.address ∧ historyOf store address = none then some row
      else historyOf store address := by
  have hconflicts : conflicts .userHistory (store .userHistory) row =
      (store .userHistory).any fun other => other.address == row.address := by
    simp only [conflicts, primaryKey, Option.any_some, cell, Cell.same]
  simp only [attempt, Bool.false_eq_true, if_false, execute, hconflicts]
  split
  · rename_i hstored
    rw [if_neg]
    rintro ⟨rfl, hnone⟩
    obtain ⟨other, hother, hsame⟩ := List.any_eq_true.mp hstored
    exact List.find?_eq_none.mp hnone other hother hsame
  · rename_i hfree
    unfold historyOf
    dsimp only
    rw [Function.update_self, List.find?_append]
    by_cases haddress : address = row.address
    · have hnone : (store .userHistory).find? (·.address == address) =
          none := by
        rw [List.find?_eq_none]
        intro other hother hsame
        rw [haddress] at hsame
        exact hfree (List.any_eq_true.mpr ⟨other, hother, hsame⟩)
      have hfound : (row.address == address) = true := by simp [haddress]
      rw [if_pos ⟨haddress, hnone⟩, hnone, Option.none_or,
        List.find?_singleton, hfound]
      rfl
    · rw [if_neg fun h => haddress h.1]
      have hother : (row.address == address) = false := by
        simpa using fun h : row.address = address => haddress h.symm
      simp [hother]

theorem attempt_getHistory (env : Environment) (store : Store)
    (fields : List String) {address : String} (named : address ≠ "") :
    (attempt env false
        (.get .userHistory fields [("address", .str address)]) store).1 =
      some ((store .userHistory).filter (·.address == address)) := by
  simp only [attempt, Bool.false_eq_true, if_false, execute_get]
  rw [resolve_cons_str, if_neg named]
  simp only [resolve_nil, Option.map_some, Option.some.injEq]
  apply List.filter_congr
  intro row _
  simp [selectsAll, cell, Operator.test]

theorem head_history (store : Store) (address : String) :
    ((store .userHistory).filter (·.address == address)).head? =
      historyOf store address := by
  rw [historyOf, List.head?_filter]

end Writes

/-! What a run plans for each address, and what it makes of it. -/

section Plans

variable (conf : Config) (facts : Facts) (now : Nat)

/-- Something is written for a user of the directory. -/
def Written (address : String) : Prop :=
  ∃ user ∈ facts.users, toMatrixId user.uid conf.serverName = .ok address ∧
    facts.userWrites conf now user address ≠ []

/-- A known user that the directory no longer has. -/
def Removed (address : String) : Prop :=
  ∃ uid, uid ∈ facts.known.map Prod.fst ∧
    (∀ user ∈ facts.users, user.uid ≠ some uid) ∧ uid ∉ inheritedMembers ∧
    toMatrixId (some uid) conf.serverName = .ok address

def deactivated (address : String) : Option HistoryRow → HistoryRow
  | none => ⟨address, 0, now⟩
  | some row => { row with active := 0 }

/-- The history that an address has in the end. -/
def IsFinal (address : String) (initial final : Option HistoryRow) : Prop :=
  (Written conf facts now address ∧ final = some ⟨address, 1, now⟩) ∨
  (¬ Written conf facts now address ∧ Removed conf facts address ∧
    final = some (deactivated now address initial)) ∨
  (¬ Written conf facts now address ∧ ¬ Removed conf facts address ∧
    final = initial)

/-- The operations that the plan for an address consists of. -/
def Serves (address : String) (initial : Option HistoryRow)
    (operation : UserOperation) : Prop :=
  (Written conf facts now address ∧
    operation = facts.writeHistory ⟨address, 1, now⟩) ∨
  (Removed conf facts address ∧
    (operation = .getActive address now ∨
      (operation = .insertHistory ⟨address, 0, now⟩ ∧ initial = none) ∨
      (operation = .deactivateHistory address ∧ initial ≠ none)))

/-- The history of the address is what it will be, or still as it was with an
operation of its plan under way. -/
structure Tracks (address : String) (initial : Option HistoryRow)
    (store : Store) (pending : List UserOperation) : Prop where
  serves : ∀ operation ∈ pending, operation.address? = some address →
    Serves conf facts now address initial operation
  state : IsFinal conf facts now address initial (historyOf store address) ∨
    (historyOf store address = initial ∧
      ∃ operation ∈ pending, operation.address? = some address)

variable {conf} {facts} {now}

theorem named_of_toMatrixId {uid : Option String} {serverName mxid : String}
    (h : toMatrixId uid serverName = .ok mxid) : mxid ≠ "" := by
  obtain ⟨name, _, rfl⟩ := toMatrixId_ok h
  intro hempty
  have hlist := congrArg String.toList hempty
  simp [String.toList_append] at hlist

theorem not_written_of_removed {address : String}
    (removed : Removed conf facts address) :
    ¬ Written conf facts now address := by
  obtain ⟨uid, _, habsent, _, hid⟩ := removed
  rintro ⟨user, huser, hmxid, _⟩
  exact habsent user huser (toMatrixId_injective hmxid hid)

theorem activity_eq_one {uid : Option String}
    (h : facts.activity conf uid ≠ 0) : facts.activity conf uid = 1 := by
  unfold Facts.activity at h ⊢
  split
  · split
    · rfl
    · rename_i hmatrix hother
      rw [if_pos hmatrix, if_neg hother] at h
      exact absurd rfl h
  · rfl

theorem userWrites_cases (user : UserRow) (address : String) :
    facts.userWrites conf now user address = [] ∨
    facts.userWrites conf now user address =
      [facts.writeHistory ⟨address, 1, now⟩] ∨
    facts.userWrites conf now user address =
      [.activateHashes address, facts.writeHistory ⟨address, 1, now⟩] := by
  unfold Facts.userWrites
  split
  · split
    · rename_i hactive
      rw [activity_eq_one hactive]
      exact .inr (.inl rfl)
    · exact .inl rfl
  · split
    · exact .inr (.inr rfl)
    · exact .inl rfl

theorem mem_userWrites {user : UserRow} {address : String}
    {operation : UserOperation}
    (h : operation ∈ facts.userWrites conf now user address) :
    operation = .activateHashes address ∨
      operation = facts.writeHistory ⟨address, 1, now⟩ := by
  rcases @userWrites_cases conf facts now user address with
    hnone | hone | htwo
  · rw [hnone] at h
    cases h
  · rw [hone] at h
    exact .inr (List.mem_singleton.mp h)
  · rw [htwo] at h
    rcases List.mem_cons.mp h with hhashes | hwrite
    · exact .inl hhashes
    · exact .inr (List.mem_singleton.mp hwrite)

theorem writes_of_user {user : UserRow} {address : String}
    {operation : UserOperation}
    (h : operation ∈ facts.userWrites conf now user address)
    (history : operation.address? ≠ none) :
    operation = facts.writeHistory ⟨address, 1, now⟩ := by
  rcases mem_userWrites h with rfl | hwrite
  · exact absurd rfl history
  · exact hwrite

theorem writeHistory_of_writes {user : UserRow} {address : String}
    (h : facts.userWrites conf now user address ≠ []) :
    facts.writeHistory ⟨address, 1, now⟩ ∈
      facts.userWrites conf now user address := by
  rcases @userWrites_cases conf facts now user address with
    hnone | hone | htwo
  · exact absurd hnone h
  · rw [hone]
    exact List.mem_singleton_self _
  · rw [htwo]
    exact List.mem_cons_of_mem _ (List.mem_singleton_self _)

theorem address_writeHistory (facts : Facts) (row : HistoryRow) :
    (facts.writeHistory row).address? = some row.address := by
  unfold Facts.writeHistory
  split
  · rfl
  · rfl

end Plans

/-! One operation of the run. -/

section Steps

variable {env : Environment} {conf : Config} {outcome : UserOutcome}
variable {update : UserUpdate} {operation : UserOperation} {address : String}

theorem react_hash_history (env : Environment) (conf : Config)
    (outcome : UserOutcome) (task : HashOperation) (update : UserUpdate) :
    (UserUpdate.react env conf outcome (.hash task) update).1.store
      .userHistory = update.store .userHistory := by
  simp only [UserUpdate.react]
  rcases @Workers.react_store env update.store update.workers outcome.fails
    task with hsame | ⟨row, hstored⟩
  · rw [hsame]
  · rw [hstored]
    exact Function.update_of_ne (by decide) _ _

theorem react_activate_history (env : Environment) (conf : Config)
    (outcome : UserOutcome) (matrixAddress : String) (update : UserUpdate) :
    (UserUpdate.react env conf outcome (.activateHashes matrixAddress)
      update).1.store .userHistory = update.store .userHistory := by
  have hother : Collections.userHistory ≠ .hashes := by decide
  simp only [UserUpdate.react, attempt, execute]
  split
  · rfl
  · dsimp only
    rw [Function.update_of_ne hother]

theorem react_historyOf (late : operation.isRead = false)
    (healthy : outcome.fails = false) (address : String) :
    historyOf (UserUpdate.react env conf outcome operation update).1.store
        address =
      match operation with
      | .updateHistory row =>
          if address = row.address then
            (historyOf update.store address).map fun _ => row
          else historyOf update.store address
      | .insertHistory row =>
          if address = row.address ∧ historyOf update.store address = none then
            some row
          else historyOf update.store address
      | .deactivateHistory selected =>
          if address = selected then
            (historyOf update.store address).map fun row =>
              { row with active := 0 }
          else historyOf update.store address
      | _ => historyOf update.store address := by
  cases operation with
  | getUsers => cases late
  | getHashes => cases late
  | getHistory => cases late
  | getMatrixUsers => cases late
  | updateHistory row =>
      simp only [UserUpdate.react, healthy]
      exact historyOf_update env update.store (fun _ _ => rfl) address
  | insertHistory row =>
      simp only [UserUpdate.react, healthy]
      exact historyOf_insert env update.store row address
  | activateHashes matrixAddress =>
      unfold historyOf
      rw [react_activate_history]
  | hash task =>
      unfold historyOf
      rw [react_hash_history]
  | getActive selected timestamp =>
      simp only [UserUpdate.react]
      split
      · rfl
      · rfl
      · rfl
  | deactivateHistory selected =>
      simp only [UserUpdate.react, healthy]
      refine historyOf_update env update.store ?_ address
      exact fun _ h => h

theorem react_historyOf_other (late : operation.isRead = false)
    (healthy : outcome.fails = false)
    (other : operation.address? ≠ some address) :
    historyOf (UserUpdate.react env conf outcome operation update).1.store
        address = historyOf update.store address := by
  rw [react_historyOf late healthy]
  cases operation with
  | updateHistory row =>
      exact if_neg fun h => other (congrArg some h.symm)
  | insertHistory row =>
      exact if_neg fun h => other (congrArg some h.1.symm)
  | deactivateHistory selected =>
      exact if_neg fun h => other (congrArg some h.symm)
  | _ => rfl

theorem react_issued (late : operation.isRead = false)
    (healthy : outcome.fails = false) {issued : UserOperation}
    (h : issued ∈ (UserUpdate.react env conf outcome operation update).2)
    (history : issued.address? ≠ none) :
    ∃ selected timestamp, operation = .getActive selected timestamp ∧
      ((issued = .insertHistory ⟨selected, 0, timestamp⟩ ∧
        (selected ≠ "" → historyOf update.store selected = none)) ∨
      (issued = .deactivateHistory selected ∧
        (selected ≠ "" → ∃ row, historyOf update.store selected = some row ∧
          row.active ≠ 0))) := by
  cases operation with
  | getUsers => cases late
  | getHashes => cases late
  | getHistory => cases late
  | getMatrixUsers => cases late
  | updateHistory row =>
      simp only [UserUpdate.react] at h
      cases h
  | insertHistory row =>
      simp only [UserUpdate.react] at h
      cases h
  | activateHashes matrixAddress =>
      simp only [UserUpdate.react] at h
      cases h
  | deactivateHistory selected =>
      simp only [UserUpdate.react] at h
      cases h
  | hash task =>
      simp only [UserUpdate.react] at h
      obtain ⟨later, _, rfl⟩ := List.mem_map.mp h
      exact absurd rfl history
  | getActive selected timestamp =>
      refine ⟨selected, timestamp, rfl, ?_⟩
      simp only [UserUpdate.react, healthy] at h
      split at h
      · cases h
      · rename_i hrows
        refine .inl ⟨List.mem_singleton.mp h, ?_⟩
        intro named
        rw [attempt_getHistory env update.store _ named, Option.some.injEq]
          at hrows
        rw [← head_history, hrows]
        rfl
      · rename_i row rest hrows
        split at h
        · rename_i hactive
          refine .inr ⟨List.mem_singleton.mp h, ?_⟩
          intro named
          rw [attempt_getHistory env update.store _ named, Option.some.injEq]
            at hrows
          refine ⟨row, ?_, hactive⟩
          rw [← head_history, hrows]
          rfl
        · cases h

theorem react_getActive (healthy : outcome.fails = false)
    (named : address ≠ "") (timestamp : Nat) :
    (UserUpdate.react env conf outcome (.getActive address timestamp)
      update).2 =
      match historyOf update.store address with
      | none => [.insertHistory ⟨address, 0, timestamp⟩]
      | some row =>
          if row.active ≠ 0 then [.deactivateHistory address] else [] := by
  rw [← head_history]
  simp only [UserUpdate.react, healthy,
    attempt_getHistory env update.store _ named]
  cases (update.store .userHistory).filter (·.address == address) with
  | nil => rfl
  | cons row rest => rfl

end Steps

/-! The plan for an address is kept by every operation. -/

section Keeping

variable {env : Environment} {conf : Config} {facts : Facts} {now : Nat}
variable {outcome : UserOutcome} {before after : UserLoop}
variable {operation : UserOperation} {rest : List UserOperation}
variable {address : String} {initial : Option HistoryRow}

theorem isFinal_written (written : Written conf facts now address)
    {final : Option HistoryRow} :
    IsFinal conf facts now address initial final ↔
      final = some ⟨address, 1, now⟩ := by
  constructor
  · rintro (⟨_, hfinal⟩ | ⟨hnot, _⟩ | ⟨hnot, _⟩)
    · exact hfinal
    · exact absurd written hnot
    · exact absurd written hnot
  · exact fun hfinal => .inl ⟨written, hfinal⟩

theorem isFinal_removed (removed : Removed conf facts address)
    {final : Option HistoryRow} :
    IsFinal conf facts now address initial final ↔
      final = some (deactivated now address initial) := by
  have hnot : ¬ Written conf facts now address :=
    not_written_of_removed removed
  constructor
  · rintro (⟨hwritten, _⟩ | ⟨_, _, hfinal⟩ | ⟨_, hkept, _⟩)
    · exact absurd hwritten hnot
    · exact hfinal
    · exact absurd removed hkept
  · exact fun hfinal => .inr (.inl ⟨hnot, removed, hfinal⟩)

theorem step_writeHistory {update : UserUpdate}
    (healthy : outcome.fails = false)
    (existing : facts.existing.contains address = initial.isSome)
    (state : historyOf update.store address = some ⟨address, 1, now⟩ ∨
      historyOf update.store address = initial) :
    historyOf (UserUpdate.react env conf outcome
        (facts.writeHistory ⟨address, 1, now⟩) update).1.store address =
      some ⟨address, 1, now⟩ := by
  unfold Facts.writeHistory
  rw [existing]
  cases initial with
  | none =>
      rw [Option.isSome_none, if_neg Bool.false_ne_true,
        react_historyOf rfl healthy]
      dsimp only
      rcases state with hfinal | hinitial
      · rw [hfinal, if_neg (by simp)]
      · rw [if_pos ⟨rfl, hinitial⟩]
  | some row =>
      rw [Option.isSome_some, if_pos rfl, react_historyOf rfl healthy]
      dsimp only
      rw [if_pos rfl]
      rcases state with hfinal | hinitial
      · rw [hfinal]
        rfl
      · rw [hinitial]
        rfl

/-- An operation of the plan, on its address, leads to the final history or to
the next operation of the plan. -/
theorem Serves.step {update : UserUpdate} (healthy : outcome.fails = false)
    (existing : facts.existing.contains address = initial.isSome)
    (serves : Serves conf facts now address initial operation)
    (state : IsFinal conf facts now address initial
        (historyOf update.store address) ∨
      historyOf update.store address = initial) :
    IsFinal conf facts now address initial (historyOf
        (UserUpdate.react env conf outcome operation update).1.store
        address) ∨
    (historyOf (UserUpdate.react env conf outcome operation update).1.store
        address = initial ∧
      ∃ issued ∈ (UserUpdate.react env conf outcome operation update).2,
        issued.address? = some address) := by
  rcases serves with ⟨hwritten, rfl⟩ | ⟨hremoved, hoperation⟩
  · rw [isFinal_written hwritten] at state ⊢
    exact .inl (step_writeHistory healthy existing state)
  · obtain ⟨uid, _, _, _, hid⟩ := id hremoved
    have hnamed := named_of_toMatrixId hid
    rw [isFinal_removed hremoved] at state ⊢
    rcases hoperation with rfl | ⟨rfl, rfl⟩ | ⟨rfl, hsome⟩
    · rw [react_historyOf rfl healthy, react_getActive healthy hnamed]
      dsimp only
      rcases state with hfinal | hinitial
      · exact .inl hfinal
      · rw [hinitial]
        cases initial with
        | none => exact .inr ⟨rfl, _, List.mem_singleton_self _, rfl⟩
        | some row =>
            dsimp only
            by_cases hactive : row.active = 0
            · left
              rw [Option.some.injEq, deactivated, ← hactive]
            · rw [if_pos hactive]
              exact .inr ⟨rfl, _, List.mem_singleton_self _, rfl⟩
    · rw [react_historyOf rfl healthy]
      dsimp only
      left
      rcases state with hfinal | hinitial
      · rw [hfinal, if_neg (by simp)]
      · rw [if_pos ⟨rfl, hinitial⟩]
        rfl
    · rw [react_historyOf rfl healthy]
      dsimp only
      rw [if_pos rfl]
      left
      obtain ⟨row, rfl⟩ := Option.ne_none_iff_exists'.mp hsome
      rcases state with hfinal | hinitial
      · rw [hfinal]
        rfl
      · rw [hinitial]
        rfl

theorem Serves.issued {update : UserUpdate} (healthy : outcome.fails = false)
    (late : operation.isRead = false)
    (state : IsFinal conf facts now address initial
        (historyOf update.store address) ∨
      historyOf update.store address = initial)
    (serves : operation.address? = some address →
      Serves conf facts now address initial operation)
    {issued : UserOperation}
    (h : issued ∈ (UserUpdate.react env conf outcome operation update).2)
    (on : issued.address? = some address) :
    Serves conf facts now address initial issued := by
  obtain ⟨selected, timestamp, rfl, hissued⟩ := react_issued late healthy h
    (by rw [on]; exact Option.some_ne_none address)
  have hselected : selected = address := by
    rcases hissued with ⟨rfl, _⟩ | ⟨rfl, _⟩
    · exact Option.some.inj on
    · exact Option.some.inj on
  subst hselected
  rcases serves rfl with ⟨_, hwrite⟩ | ⟨hremoved, hlook⟩
  · unfold Facts.writeHistory at hwrite
    split at hwrite
    · cases hwrite
    · cases hwrite
  · have htime : timestamp = now := by
      rcases hlook with hlook | ⟨hlook, _⟩ | ⟨hlook, _⟩
      · cases hlook
        rfl
      · cases hlook
      · cases hlook
    subst htime
    obtain ⟨uid, _, _, _, hid⟩ := id hremoved
    have hnamed := named_of_toMatrixId hid
    rw [isFinal_removed hremoved] at state
    refine .inr ⟨hremoved, .inr ?_⟩
    rcases hissued with ⟨rfl, hnone⟩ | ⟨rfl, hrow⟩
    · refine .inl ⟨rfl, ?_⟩
      rw [hnone hnamed] at state
      rcases state with hfinal | hinitial
      · cases hfinal
      · exact hinitial.symm
    · obtain ⟨row, hrow, hactive⟩ := hrow hnamed
      refine .inr ⟨rfl, ?_⟩
      rw [hrow] at state
      rcases state with hfinal | hinitial
      · cases initial with
        | none =>
            rw [Option.some.injEq] at hfinal
            rw [hfinal] at hactive
            exact absurd rfl hactive
        | some _ => simp
      · rw [← hinitial]
        simp

theorem Tracks.react (tracks : Tracks conf facts now address initial
      before.vars.store before.pending)
    (completes : Loop.Completes (UserUpdate.react env conf) before outcome
      operation rest after)
    (late : operation.isRead = false) (healthy : outcome.fails = false)
    (existing : facts.existing.contains address = initial.isSome) :
    Tracks conf facts now address initial after.vars.store after.pending := by
  have hserves : operation.address? = some address →
      Serves conf facts now address initial operation :=
    tracks.serves operation completes.mem_pending
  have hstate := tracks.state.imp_right And.left
  refine ⟨?_, ?_⟩
  · intro other hother hon
    rcases completes.mem_after hother with ⟨_, hbefore⟩ | hissued
    · exact tracks.serves other hbefore hon
    · exact Serves.issued healthy late hstate hserves hissued hon
  · rw [completes.vars]
    by_cases hon : operation.address? = some address
    · rcases Serves.step healthy existing (hserves hon) hstate with
        hfinal | ⟨hinitial, issued, hissued, hissuedOn⟩
      · exact .inl hfinal
      · refine .inr ⟨hinitial, issued, ?_, hissuedOn⟩
        rw [completes.issued]
        exact List.mem_append_right _ hissued
    · have hsame : historyOf (UserUpdate.react env conf outcome operation
          before.vars).1.store address =
          historyOf before.vars.store address :=
        react_historyOf_other late healthy hon
      rw [hsame]
      refine tracks.state.imp_right ?_
      rintro ⟨hinitial, other, hother, hotherOn⟩
      refine ⟨hinitial, other, ?_, hotherOn⟩
      rcases completes.mem_before hother with rfl | hafter
      · exact absurd hotherOn hon
      · exact hafter

end Keeping

end TwakeKickstart.IdentityServer
