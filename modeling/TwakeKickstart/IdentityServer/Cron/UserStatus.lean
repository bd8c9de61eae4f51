import Mathlib.Algebra.GroupWithZero.Nat
import TwakeKickstart.IdentityServer.Cron.UserRun
import TwakeKickstart.IdentityServer.Lookup.HashPool

namespace TwakeKickstart.IdentityServer

open Library Utils

/-! Directory, history and lookup after a run of `updateUsers`. -/

theorem Workers.react_owned (env : Environment) (fails : Bool)
    (workers : Workers) (store : Store) (operation : HashOperation) :
    (∀ args ∈ (workers.react env fails store operation).workers.waiting,
      args ∈ workers.waiting) ∧
    (∀ task ∈ (workers.react env fails store operation).issued,
      task.args = operation.args ∨ task.args ∈ workers.waiting) ∧
    ((workers.react env fails store operation).store = store ∨
      ∃ row, row.value = operation.args.matrixAddress ∧
        (workers.react env fails store operation).store =
          Function.update store .hashes (store .hashes ++ [row])) := by
  cases operation with
  | getPepper args =>
      simp only [Workers.react]
      split
      · refine ⟨fun _ h => h, ?_, .inl rfl⟩
        intro task h
        rw [List.mem_singleton.mp h]
        exact .inl rfl
      · exact ⟨fun _ h => h, fun _ h => absurd h List.not_mem_nil, .inl rfl⟩
  | insert args pepper =>
      rcases attempt_insertHash env fails (args.row env pepper) store with
        hrefused | ⟨rows, hstored⟩
      · simp only [Workers.react, hrefused]
        exact ⟨fun _ h => h, fun _ h => absurd h List.not_mem_nil,
          .inl trivial⟩
      · simp only [Workers.react, hstored, Workers.release]
        refine ⟨fun _ h => List.mem_of_mem_tail h, ?_,
          .inr ⟨args.row env pepper, rfl, rfl⟩⟩
        intro task h
        obtain ⟨next, hnext, rfl⟩ := List.mem_map.mp h
        rw [Option.mem_toList] at hnext
        rw [Workers.args_assign]
        exact .inr (List.mem_of_mem_head? hnext)

/-- The run touches the hashes of the users of the directory alone. -/
structure Untouched (conf : Config) (users : List UserRow)
    (rows : List HashRow) (loop : UserLoop) : Prop where
  waiting : ∀ args ∈ loop.vars.workers.waiting,
    Listed conf users args.matrixAddress
  tasks : ∀ task, .hash task ∈ loop.pending →
    Listed conf users task.args.matrixAddress
  activations : ∀ address, .activateHashes address ∈ loop.pending →
    Listed conf users address
  kept : ∀ row, ¬ Listed conf users row.value →
    (row ∈ loop.vars.store .hashes ↔ row ∈ rows)

section Hashes

variable {env : Environment} {conf : Config} {facts : Facts} {now : Nat}
variable {users : List UserRow} {rows : List HashRow} {start : Store}
variable {before after : UserLoop} {outcome : UserOutcome}
variable {operation : UserOperation} {rest : List UserOperation}

theorem kept_update {address : String} (listed : Listed conf users address)
    (row : HashRow) (other : ¬ Listed conf users row.value) (fails : Bool)
    (store : Store) :
    row ∈ (attempt env fails
        (.update .hashes (fun row => { row with active := some 1 }) "value"
          (.str address)) store).2 .hashes ↔ row ∈ store .hashes := by
  unfold attempt
  split
  · rfl
  · have hother : row.value ≠ address := fun h => other (h ▸ listed)
    simp only [execute, Function.update_self, updateRows, List.mem_map]
    constructor
    · rintro ⟨old, hold, hrow⟩
      split at hrow
      · rename_i hselected
        have hvalue : old.value = address := by
          simpa [equals, cell, Cell.same] using hselected
        rw [← hrow] at hother
        exact absurd hvalue hother
      · rw [← hrow]
        exact hold
    · intro hrow
      refine ⟨row, hrow, ?_⟩
      rw [if_neg]
      intro hselected
      exact hother (by simpa [equals, cell, Cell.same] using hselected)

theorem react_lookup (env : Environment) (conf : Config)
    (outcome : UserOutcome) (selected : String) (timestamp : Nat)
    (update : UserUpdate) :
    (UserUpdate.react env conf outcome (.getActive selected timestamp)
      update).1 = update ∧
    ∀ issued ∈ (UserUpdate.react env conf outcome
      (.getActive selected timestamp) update).2, issued.address? ≠ none := by
  simp only [UserUpdate.react]
  split
  · exact ⟨rfl, fun _ h => absurd h List.not_mem_nil⟩
  · refine ⟨rfl, ?_⟩
    intro issued h
    rw [List.mem_singleton.mp h]
    exact Option.some_ne_none selected
  · refine ⟨rfl, ?_⟩
    intro issued h
    split at h
    · rw [List.mem_singleton.mp h]
      exact Option.some_ne_none selected
    · cases h

/-- An operation on the history leaves the other tables and the workers
alone. -/
theorem react_history_frame (env : Environment) (conf : Config)
    (outcome : UserOutcome) (update : UserUpdate)
    (history : operation.address? ≠ none) :
    (∀ table, table ≠ .userHistory →
      (UserUpdate.react env conf outcome operation update).1.store table =
        update.store table) ∧
    (UserUpdate.react env conf outcome operation update).1.workers =
      update.workers ∧
    ∀ issued ∈ (UserUpdate.react env conf outcome operation update).2,
      issued.address? ≠ none := by
  cases operation with
  | updateHistory row =>
      refine ⟨?_, rfl, fun _ h => absurd h List.not_mem_nil⟩
      intro table htable
      simp only [UserUpdate.react, attempt, execute]
      split
      · rfl
      · exact Function.update_of_ne htable _ _
  | insertHistory row =>
      refine ⟨?_, rfl, fun _ h => absurd h List.not_mem_nil⟩
      intro table htable
      simp only [UserUpdate.react, attempt, execute]
      split
      · rfl
      · split
        · rfl
        · exact Function.update_of_ne htable _ _
  | deactivateHistory selected =>
      refine ⟨?_, rfl, fun _ h => absurd h List.not_mem_nil⟩
      intro table htable
      simp only [UserUpdate.react, attempt, execute]
      split
      · rfl
      · exact Function.update_of_ne htable _ _
  | getActive selected timestamp =>
      obtain ⟨hsame, hissued⟩ :=
        react_lookup env conf outcome selected timestamp update
      rw [hsame]
      exact ⟨fun _ _ => rfl, rfl, hissued⟩
  | _ => exact absurd rfl history

/-- An operation that issues no hash task and keeps the workers and the rows of
the addresses that are not listed. -/
theorem Untouched.keep (untouched : Untouched conf users rows before)
    (completes : Loop.Completes (UserUpdate.react env conf) before outcome
      operation rest after)
    (issues : ∀ issued ∈
      (UserUpdate.react env conf outcome operation before.vars).2,
      issued.address? ≠ none)
    (workers : after.vars.workers = before.vars.workers)
    (hashes : ∀ row, ¬ Listed conf users row.value →
      (row ∈ after.vars.store .hashes ↔ row ∈ before.vars.store .hashes)) :
    Untouched conf users rows after := by
  refine ⟨?_, ?_, ?_, ?_⟩
  · rw [workers]
    exact untouched.waiting
  · intro task htask
    rcases completes.mem_after htask with ⟨_, hbefore⟩ | hnew
    · exact untouched.tasks task hbefore
    · exact absurd rfl (issues _ hnew)
  · intro address haddress
    rcases completes.mem_after haddress with ⟨_, hbefore⟩ | hnew
    · exact untouched.activations address hbefore
    · exact absurd rfl (issues _ hnew)
  · intro row hrow
    rw [hashes row hrow]
    exact untouched.kept row hrow

theorem Untouched.history (untouched : Untouched conf users rows before)
    (completes : Loop.Completes (UserUpdate.react env conf) before outcome
      operation rest after)
    (history : operation.address? ≠ none) :
    Untouched conf users rows after := by
  obtain ⟨htables, hworkers, hissued⟩ :=
    react_history_frame env conf outcome before.vars history
  rw [← completes.vars] at htables hworkers
  refine untouched.keep completes hissued hworkers ?_
  intro row _
  rw [htables .hashes (by decide)]

theorem Untouched.hash (untouched : Untouched conf users rows before)
    {task : HashOperation}
    (completes : Loop.Completes (UserUpdate.react env conf) before outcome
      (.hash task) rest after) : Untouched conf users rows after := by
  obtain ⟨hwaiting, hissued, hstore⟩ := Workers.react_owned env
    outcome.fails before.vars.workers before.vars.store task
  have htask := untouched.tasks task completes.mem_pending
  have hvars := completes.vars
  simp only [UserUpdate.react] at hvars
  refine ⟨?_, ?_, ?_, ?_⟩
  · rw [hvars]
    exact fun args hargs => untouched.waiting args (hwaiting args hargs)
  · intro later hlater
    rcases completes.mem_after hlater with ⟨_, hbefore⟩ | hnew
    · exact untouched.tasks later hbefore
    · obtain ⟨new, hnew, hsame⟩ := List.mem_map.mp hnew
      cases hsame
      rcases hissued later hnew with hown | hnext
      · rw [hown]
        exact htask
      · exact untouched.waiting _ hnext
  · intro address haddress
    rcases completes.mem_after haddress with ⟨_, hbefore⟩ | hnew
    · exact untouched.activations address hbefore
    · obtain ⟨new, _, hsame⟩ := List.mem_map.mp hnew
      cases hsame
  · intro row hrow
    rw [hvars, ← untouched.kept row hrow]
    dsimp only
    rcases hstore with hsame | ⟨added, hvalue, hstored⟩
    · rw [hsame]
    · rw [hstored, Function.update_self, List.mem_append]
      refine or_iff_left ?_
      intro hadded
      rw [List.mem_singleton.mp hadded, hvalue] at hrow
      exact hrow htask

theorem Untouched.step (untouched : Untouched conf users rows before)
    (completes : Loop.Completes (UserUpdate.react env conf) before outcome
      operation rest after)
    (late : operation.isRead = false) :
    Untouched conf users rows after := by
  cases operation with
  | getUsers => cases late
  | getHashes => cases late
  | getHistory => cases late
  | getMatrixUsers => cases late
  | updateHistory row =>
      exact untouched.history completes (Option.some_ne_none _)
  | insertHistory row =>
      exact untouched.history completes (Option.some_ne_none _)
  | deactivateHistory selected =>
      exact untouched.history completes (Option.some_ne_none _)
  | getActive selected timestamp =>
      exact untouched.history completes (Option.some_ne_none _)
  | activateHashes address =>
      have hvars := completes.vars
      refine untouched.keep completes (fun _ h => absurd h List.not_mem_nil)
        ?_ ?_
      · rw [hvars]
        rfl
      · intro row hrow
        rw [hvars]
        exact kept_update
          (untouched.activations address completes.mem_pending) row hrow _ _
  | hash task => exact untouched.hash completes

theorem mem_pool {data : UpdatableFields} {tasks : List HashOperation}
    {workers : Workers}
    (pool : (workers, tasks) = if facts.users.any facts.isNew then
      Workers.start "" (updateParams data) else (⟨"", [], 0⟩, [])) :
    (∀ args ∈ workers.waiting, args ∈ updateParams data) ∧
    ∀ task ∈ tasks, task.args ∈ updateParams data := by
  split at pool
  · obtain ⟨hwaiting, htasks⟩ := Prod.mk.inj pool
    rw [hwaiting, htasks]
    refine ⟨fun _ h => List.mem_of_mem_drop h, ?_⟩
    intro task htask
    obtain ⟨args, hargs, rfl⟩ := List.mem_map.mp htask
    rw [Workers.args_assign]
    exact List.mem_of_mem_take hargs
  · obtain ⟨hwaiting, htasks⟩ := Prod.mk.inj pool
    rw [hwaiting, htasks]
    exact ⟨fun _ h => absurd h List.not_mem_nil,
      fun _ h => absurd h List.not_mem_nil⟩

theorem listed_of_updateParams {data : UpdatableFields}
    (reduced : usersData conf (facts.enrolled conf facts.users) = .ok data)
    {args : UpdateArgs} (hargs : args ∈ updateParams data) :
    Listed conf facts.users args.matrixAddress := by
  obtain ⟨row, hrow, hparams⟩ := (mem_updateParams reduced args).mp hargs
  obtain ⟨mxid, hmxid, hparams⟩ := mem_userArgs.mp hparams
  rw [address_of_mem hparams]
  obtain ⟨user, huser, rfl⟩ := List.mem_map.mp (mem_of_lastWith hrow).1
  exact ⟨user, (List.mem_filter.mp huser).1, hmxid⟩

theorem Started.untouched {data : UpdatableFields}
    {tasks : List HashOperation} {loop : UserLoop}
    (started : Started conf facts now start data tasks loop) :
    Untouched conf facts.users (start .hashes) loop := by
  obtain ⟨hwaiting, htasks⟩ := mem_pool started.pool
  refine ⟨?_, ?_, ?_, ?_⟩
  · exact fun args h => listed_of_updateParams started.reduced (hwaiting args h)
  · intro task htask
    rcases started.mem_pending htask with
      ⟨user, _, mxid, _, hwrites⟩ | ⟨other, hother, hsame⟩ | ⟨_, _, hgone⟩
    · rcases mem_userWrites hwrites with hsame | hwrite
      · cases hsame
      · have hnone := congrArg UserOperation.address? hwrite
        rw [address_writeHistory] at hnone
        cases hnone
    · cases hsame
      exact listed_of_updateParams started.reduced (htasks task hother)
    · cases hgone
  · intro address haddress
    rcases started.mem_pending haddress with
      ⟨user, huser, mxid, hmxid, hwrites⟩ | ⟨_, _, hsame⟩ | ⟨_, _, hgone⟩
    · rcases mem_userWrites hwrites with hsame | hwrite
      · cases hsame
        exact ⟨user, huser, hmxid⟩
      · have hnone := congrArg UserOperation.address? hwrite
        rw [address_writeHistory] at hnone
        cases hnone
    · cases hsame
    · cases hgone
  · intro row _
    rw [started.store]

end Hashes

/-! Whole runs. -/

/-- The operations of a run on a database without failures, with directories
that do not change. -/
abbrev UpdateRun (env : Environment) (conf : Config) (users : List UserRow)
    (entries : Option (List String)) : UserLoop → UserLoop → Prop :=
  Reachable (updateStep env conf)
    fun _ (event : Nat × UserOutcome) => Replies users entries event.2

/-- What is true of a run before its end. -/
inductive Phase (conf : Config) (users : List UserRow)
    (entries : Option (List String)) (start : Store) (loop : UserLoop) : Prop
  | collecting
      (collected : Collected conf users entries (· = start .hashes)
        (start .userHistory) loop.pending loop.vars)
      (under : loop.pending ≠ [])
      (store : loop.vars.store = start)
  | rejected
      (rejected : loop.vars.rejected = true)
      (late : ∀ operation ∈ loop.pending, operation.isRead = false)
  | working (now : Nat)
      (nameable : Nameable conf (Facts.gathered conf users entries
        (start .hashes) (start .userHistory)))
      (working : Working conf (Facts.gathered conf users entries
        (start .hashes) (start .userHistory)) now start loop)
      (untouched : Untouched conf users (start .hashes) loop)

section Runs

variable {env : Environment} {conf : Config} {users : List UserRow}
variable {entries : Option (List String)} {start : Store}
variable {before after final : UserLoop}

theorem phase_start (conf : Config) (users : List UserRow)
    (entries : Option (List String)) (start : Store) :
    Phase conf users entries start (startUpdate conf start) :=
  .collecting (collected_start conf users entries start _)
    (by simp [startUpdate]) rfl

theorem Phase.step (phase : Phase conf users entries start before)
    {event : Nat × UserOutcome} (replies : Replies users entries event.2)
    (stepped : updateStep env conf before event = some after) :
    Phase conf users entries start after := by
  obtain ⟨operation, _, completes⟩ := Loop.complete_cases stepped
  cases phase with
  | collecting collected under store =>
      rcases collected.step completes replies (fun _ => by rw [store]) with
        ⟨hcollected, hpending, hunder, hstore⟩ | ⟨rows, rfl, hlaunched⟩
      · exact .collecting hcollected (hpending ▸ hunder) (hstore.trans store)
      · rw [store] at hlaunched
        cases haccepted : after.vars.rejected with
        | true => exact .rejected haccepted fun _ => hlaunched.late
        | false =>
            obtain ⟨data, tasks, hstarted⟩ := hlaunched.started haccepted
            exact .working _ (hlaunched.accepted_iff.mp haccepted)
              hstarted.working hstarted.untouched
  | rejected rejected late =>
      obtain ⟨hsame, hissued⟩ := @react_late env conf operation
        (late operation completes.mem_pending) event.2 before.vars
      refine .rejected ?_ ?_
      · rw [completes.vars, hsame]
        exact rejected
      · intro other hother
        rcases completes.mem_after hother with ⟨_, hbefore⟩ | hnew
        · exact late other hbefore
        · exact hissued other hnew
  | working now nameable working untouched =>
      exact .working now nameable (working.step rfl completes replies.healthy)
        (untouched.step completes
          (working.late operation completes.mem_pending))

theorem resolved_run
    (run : UpdateRun env conf users entries (startUpdate conf start) final)
    (ended : final.pending = []) (accepted : final.vars.rejected = false) :
    Nameable conf (Facts.gathered conf users entries (start .hashes)
      (start .userHistory)) ∧
    (∃ now, ∀ address, IsFinal conf (Facts.gathered conf users entries
        (start .hashes) (start .userHistory)) now address
      (historyOf start address) (historyOf final.vars.store address)) ∧
    ∀ row, ¬ Listed conf users row.value →
      (row ∈ final.vars.store .hashes ↔ row ∈ start .hashes) := by
  have hphase : Phase conf users entries start final :=
    run.invariant _ (phase_start conf users entries start)
      fun _ _ _ phase replies stepped => phase.step replies stepped
  cases hphase with
  | collecting _ under _ => exact absurd ended under
  | rejected rejected _ =>
      rw [accepted] at rejected
      cases rejected
  | working now nameable working untouched =>
      exact ⟨nameable, ⟨now, working.ended ended⟩, untouched.kept⟩

end Runs

end TwakeKickstart.IdentityServer

namespace TwakeKickstart.IdentityServer

open Library Utils

/-! A run of `updateUsers` comes to its end. -/

/-- How many operations an operation leads to, itself included. -/
def UserOperation.weight : UserOperation → Nat
  | hash (.getPepper _) => 2
  | getActive _ _ => 2
  | _ => 1

/-- What is left to do once the synchronous part has run. -/
def work (loop : UserLoop) : Nat :=
  (loop.pending.map UserOperation.weight).sum +
    2 * loop.vars.workers.waiting.length

section Work

variable {env : Environment} {conf : Config} {outcome : UserOutcome}
variable {before after : UserLoop} {operation : UserOperation}
variable {rest : List UserOperation}

theorem weight_assign_le (pepper : String) (args : UpdateArgs) :
    (UserOperation.hash (Workers.assign pepper args)).weight ≤ 2 := by
  unfold Workers.assign
  split
  · exact Nat.le_refl 2
  · exact Nat.le_succ 1

theorem react_weight (late : operation.isRead = false)
    (outcome : UserOutcome) (update : UserUpdate) :
    ((UserUpdate.react env conf outcome operation update).2.map
        UserOperation.weight).sum +
      2 * (UserUpdate.react env conf outcome operation
        update).1.workers.waiting.length <
      operation.weight + 2 * update.workers.waiting.length := by
  cases operation with
  | getUsers => cases late
  | getHashes => cases late
  | getHistory => cases late
  | getMatrixUsers => cases late
  | updateHistory row => simp [UserUpdate.react, UserOperation.weight]
  | insertHistory row => simp [UserUpdate.react, UserOperation.weight]
  | activateHashes matrixAddress =>
      simp [UserUpdate.react, UserOperation.weight]
  | deactivateHistory selected =>
      simp [UserUpdate.react, UserOperation.weight]
  | getActive selected timestamp =>
      simp only [UserUpdate.react]
      split
      · simp [UserOperation.weight]
      · simp [UserOperation.weight]
      · dsimp only
        split
        · simp [UserOperation.weight]
        · simp [UserOperation.weight]
  | hash task =>
      simp only [UserUpdate.react]
      cases task with
      | getPepper args =>
          simp only [Workers.react]
          split
          · simp [UserOperation.weight]
          · simp [UserOperation.weight]
      | insert args pepper =>
          simp only [Workers.react]
          split
          · simp [UserOperation.weight]
          · simp only [Workers.release]
            cases update.workers.waiting with
            | nil => simp [UserOperation.weight]
            | cons head tail =>
                have hnext := weight_assign_le update.workers.pepper head
                simp only [List.head?_cons, Option.toList_some, List.map_cons,
                  List.map_nil, List.sum_cons, List.sum_nil, List.tail_cons,
                  List.length_cons]
                have hweight : (UserOperation.hash
                    (.insert args pepper)).weight = 1 := rfl
                omega

theorem work_step
    (completes : Loop.Completes (UserUpdate.react env conf) before outcome
      operation rest after)
    (late : operation.isRead = false) : work after < work before := by
  have hless := @react_weight env conf operation late outcome before.vars
  have hpending := (completes.pending.map UserOperation.weight).sum_nat
  unfold work
  rw [completes.issued, completes.vars, List.map_append, List.sum_append]
  rw [List.map_cons, List.sum_cons] at hpending
  omega

end Work

section Completion

variable {env : Environment} {conf : Config} {users : List UserRow}
variable {entries : Option (List String)} {start : Store}

def healthyOutcome (users : List UserRow) (entries : Option (List String)) :
    UserOutcome where
  fails := false
  users := users
  entries := entries

theorem replies_healthyOutcome (users : List UserRow)
    (entries : Option (List String)) :
    Replies users entries (healthyOutcome users entries) :=
  ⟨rfl, rfl, rfl⟩

theorem exists_launched {loop : UserLoop}
    (collected : Collected conf users entries (· = start .hashes)
      (start .userHistory) loop.pending loop.vars)
    (under : loop.pending ≠ []) (store : loop.vars.store = start)
    {first : UserLoop} (run : UpdateRun env conf users entries first loop) :
    ∃ launched, UpdateRun env conf users entries first launched ∧
      ∃ now, Launched conf (Facts.gathered conf users entries
        (start .hashes) (start .userHistory)) now start launched := by
  induction hlength : loop.pending.length generalizing loop with
  | zero => exact absurd (List.eq_nil_of_length_eq_zero hlength) under
  | succ length ih =>
      obtain ⟨operation, rest, hpending⟩ :=
        List.exists_cons_of_ne_nil under
      have hread := collected.reads operation (by rw [hpending]; simp)
      cases hstep : updateStep env conf loop
          (0, healthyOutcome users entries) with
      | none =>
          simp [updateStep, Loop.complete, hpending] at hstep
      | some after =>
          obtain ⟨taken, htaken, completes⟩ := Loop.complete_cases hstep
          have hrun : UpdateRun env conf users entries first after :=
            .tail run (replies_healthyOutcome users entries) hstep
          rcases collected.step completes
              (replies_healthyOutcome users entries)
              (fun _ => by rw [store]) with
            ⟨hcollected, hpending, hunder, hstore⟩ | ⟨rows, rfl, hlaunched⟩
          · refine ih hcollected (hpending ▸ hunder) (hstore.trans store)
              hrun ?_
            have htakes := completes.pending.length_eq
            rw [hlength, List.length_cons] at htakes
            rw [hpending]
            omega
          · rw [store] at hlaunched
            exact ⟨after, hrun, _, hlaunched⟩

theorem exists_resolved_run (env : Environment)
    (nameable : Nameable conf (Facts.gathered conf users entries
      (start .hashes) (start .userHistory))) :
    ∃ final, UpdateRun env conf users entries (startUpdate conf start) final ∧
      final.pending = [] ∧ final.vars.rejected = false := by
  obtain ⟨launched, hrun, now, hlaunched⟩ := exists_launched
    (collected_start conf users entries start (· = start .hashes))
    (by simp [startUpdate]) rfl
    (.refl : UpdateRun env conf users entries (startUpdate conf start)
      (startUpdate conf start))
  obtain ⟨final, hfinal, hended, hlate, haccepted⟩ := Loop.exists_finish
    (fun _ _ => replies_healthyOutcome users entries)
    (fun loop : UserLoop =>
      (∀ operation ∈ loop.pending, operation.isRead = false) ∧
        loop.vars.rejected = false)
    work
    (by
      rintro before operation rest after ⟨hlate, haccepted⟩ completes
      have hoperation := hlate operation completes.mem_pending
      obtain ⟨hsame, hissued⟩ := @react_late env conf operation hoperation
        (healthyOutcome users entries) before.vars
      refine ⟨⟨?_, ?_⟩, work_step completes hoperation⟩
      · intro other hother
        rcases completes.mem_after hother with ⟨_, hbefore⟩ | hnew
        · exact hlate other hbefore
        · exact hissued other hnew
      · rw [completes.vars]
        exact hsame.trans haccepted)
    hrun ⟨fun _ => hlaunched.late, hlaunched.accepted_iff.mpr nameable⟩
  exact ⟨final, hfinal, hended, haccepted⟩

end Completion

end TwakeKickstart.IdentityServer
