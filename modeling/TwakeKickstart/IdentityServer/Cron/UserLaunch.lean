import Mathlib.Data.List.TakeWhile
import TwakeKickstart.IdentityServer.Cron.UserStatus

namespace TwakeKickstart.IdentityServer

open Library Utils

/-! What a run of `updateUsers` launches, be it rejected or not, and what comes
of it. -/

/-- The users before the first one whose `uid` gives no Matrix ID. -/
def reached (conf : Config) (users : List UserRow) : List UserRow :=
  users.takeWhile fun user => (toMatrixId user.uid conf.serverName).isOk

/-- The look-ups of the users that have gone. -/
def Facts.lookups (conf : Config) (facts : Facts) (now : Nat) :
    List UserOperation :=
  if facts.users.all fun user => (toMatrixId user.uid conf.serverName).isOk
    then (facts.scanKnown conf now facts.known []).1
  else []

/-- The synchronous part has run, up to a `uid` that gives no Matrix ID, and
the workers have their first `tasks`. -/
structure Begun (conf : Config) (facts : Facts) (now : Nat) (store : Store)
    (tasks : List HashOperation) (loop : UserLoop) : Prop where
  store : loop.vars.store = store
  pending : loop.pending =
    (reached conf facts.users).flatMap (facts.launched conf now) ++
      tasks.map .hash ++ facts.lookups conf now
  pool : (∀ user ∈ facts.users, ValidUid conf user) →
    ∃ data, usersData conf (facts.enrolled conf facts.users) = .ok data ∧
      (loop.vars.workers, tasks) = if facts.users.any facts.isNew then
        Workers.start "" (updateParams data) else (⟨"", [], 0⟩, [])
  idle : ¬ (∀ user ∈ facts.users, ValidUid conf user) →
    loop.vars.workers = ⟨"", [], 0⟩ ∧ tasks = []

section Launches

variable {conf : Config} {facts : Facts} {now : Nat} {store : Store}
variable {loop : UserLoop} {operation : UserOperation}
variable {tasks : List HashOperation} {users : List UserRow}

theorem validUid_iff {user : UserRow} :
    (toMatrixId user.uid conf.serverName).isOk = true ↔
      ValidUid conf user := by
  unfold ValidUid
  cases toMatrixId user.uid conf.serverName with
  | error error =>
      refine iff_of_false Bool.false_ne_true ?_
      rintro ⟨mxid, hmxid⟩
      cases hmxid
  | ok mxid => exact iff_of_true rfl ⟨mxid, rfl⟩

theorem reached_subset {user : UserRow} (h : user ∈ reached conf users) :
    user ∈ users :=
  (List.takeWhile_prefix _).subset h

theorem valid_of_reached {user : UserRow} (h : user ∈ reached conf users) :
    ValidUid conf user := by
  unfold reached at h
  exact validUid_iff.mp (List.all_eq_true.mp List.all_takeWhile user h)

theorem reached_all (valid : ∀ user ∈ users, ValidUid conf user) :
    reached conf users = users :=
  List.takeWhile_eq_self_iff.mpr fun user huser =>
    validUid_iff.mpr (valid user huser)

theorem Facts.lookups_all
    (valid : ∀ user ∈ facts.users, ValidUid conf user) :
    facts.lookups conf now = (facts.scanKnown conf now facts.known []).1 := by
  unfold Facts.lookups
  rw [if_pos]
  exact List.all_eq_true.mpr fun user huser =>
    validUid_iff.mpr (valid user huser)

theorem Facts.lookups_none
    (invalid : ¬ ∀ user ∈ facts.users, ValidUid conf user) :
    facts.lookups conf now = [] := by
  unfold Facts.lookups
  rw [if_neg]
  intro hall
  exact invalid fun user huser =>
    validUid_iff.mp (List.all_eq_true.mp hall user huser)

theorem Facts.mem_lookups (h : operation ∈ facts.lookups conf now) :
    ∃ mxid, Removed conf facts mxid ∧ operation = .getActive mxid now := by
  unfold Facts.lookups at h
  split at h
  · obtain ⟨uid, mxid, hknown, habsent, hown, hmxid, rfl⟩ :=
      facts.scanKnown_sound conf now h
    exact ⟨mxid, ⟨uid, hknown, habsent, hown, hmxid⟩, rfl⟩
  · cases h

/-- The pass over the directory launches nothing for the users that it does not
reach. -/
theorem Facts.scanUsers_updates (facts : Facts) (conf : Config) (now : Nat)
    (users : List UserRow) (updates : List UserOperation)
    (usersToUpdate : UpdatableFields) (found : Bool) :
    (facts.scanUsers conf now users updates usersToUpdate found).1 =
      updates ++ (reached conf users).flatMap (facts.launched conf now) := by
  induction users generalizing updates usersToUpdate found with
  | nil => exact (List.append_nil updates).symm
  | cons user rest ih =>
      unfold Facts.scanUsers reached
      cases hmxid : toMatrixId user.uid conf.serverName with
      | error error =>
          rw [List.takeWhile_cons_of_neg (by simp [hmxid, Except.toBool])]
          exact (List.append_nil updates).symm
      | ok mxid =>
          have hlaunched : facts.launched conf now user =
              facts.userWrites conf now user mxid := by
            simp only [Facts.launched, hmxid]
          dsimp only
          rw [ih, List.takeWhile_cons_of_pos (by simp [hmxid, Except.toBool]),
            List.flatMap_cons, hlaunched, List.append_assoc]
          rfl

theorem Launched.begun (launched : Launched conf facts now store loop) :
    ∃ tasks, Begun conf facts now store tasks loop := by
  by_cases hvalid : ∀ user ∈ facts.users, ValidUid conf user
  · obtain ⟨data, tasks, hdata, hstore, hpool, hpending, _⟩ :=
      launched.shape hvalid
    refine ⟨tasks, hstore, ?_, fun _ => ⟨data, hdata, hpool⟩,
      fun hinvalid => absurd hvalid hinvalid⟩
    rw [hpending, reached_all hvalid, Facts.lookups_all hvalid]
  · obtain ⟨update, hstore, hworkers, _, hproceed⟩ := launched
    have hinvalid := hvalid
    push Not at hinvalid
    have hstops := facts.scanUsers_stops conf now hinvalid [] [] false
    have hupdates :=
      facts.scanUsers_updates conf now facts.users [] [] false
    have hvars := congrArg Prod.fst hproceed
    have hpending := congrArg Prod.snd hproceed
    simp only [UserUpdate.proceed, hstops, Bool.false_eq_true, if_false]
      at hvars hpending
    refine ⟨[], ?_, ?_, fun hall => absurd hall hvalid, fun _ => ⟨?_, rfl⟩⟩
    · rw [hvars]
      exact hstore
    · rw [hpending, hupdates, Facts.lookups_none hvalid]
      simp
    · rw [hvars]
      exact hworkers

theorem Begun.mem_pending (begun : Begun conf facts now store tasks loop)
    (h : operation ∈ loop.pending) :
    Planned conf facts now tasks operation := by
  rw [begun.pending] at h
  rcases List.mem_append.mp h with hupdates | hgone
  · rcases List.mem_append.mp hupdates with hlaunched | htask
    · obtain ⟨user, huser, hwrites⟩ := mem_launched hlaunched
      exact .inl ⟨user, reached_subset huser, hwrites⟩
    · obtain ⟨task, hmem, rfl⟩ := List.mem_map.mp htask
      exact .inr (.inl ⟨task, hmem, rfl⟩)
  · exact .inr (.inr (Facts.mem_lookups hgone))

theorem Begun.under_way (begun : Begun conf facts now store tasks loop)
    {user : UserRow} (huser : user ∈ reached conf facts.users) {mxid : String}
    (named : toMatrixId user.uid conf.serverName = .ok mxid)
    (writes : facts.userWrites conf now user mxid ≠ []) :
    ∃ operation ∈ loop.pending, operation.address? = some mxid := by
  refine ⟨facts.writeHistory ⟨mxid, 1, now⟩, ?_,
    address_writeHistory facts ⟨mxid, 1, now⟩⟩
  rw [begun.pending]
  refine List.mem_append_left _ (List.mem_append_left _ ?_)
  refine List.mem_flatMap.mpr ⟨user, huser, ?_⟩
  simp only [Facts.launched, named]
  exact writeHistory_of_writes writes

theorem Begun.tracks (begun : Begun conf facts now store tasks loop)
    {address : String}
    (under : ∃ operation ∈ loop.pending, operation.address? = some address) :
    Tracks conf facts now address (historyOf store address) loop.vars.store
      loop.pending where
  serves := fun _ h on => (begun.mem_pending h).serves _ on
  state := by
    rw [begun.store]
    exact .inr ⟨rfl, under⟩

end Launches

/-! The look-ups of two runs. -/

section Lookups

variable {conf : Config} {facts other : Facts} {now later : Nat}

theorem Facts.scanKnown_congr (users : other.users = facts.users)
    {known more : List (String × Option Int)}
    (uids : more.map Prod.fst = known.map Prod.fst) (seen : List String) :
    ∃ (addresses : List String) (passed : Bool),
      facts.scanKnown conf now known seen =
        (addresses.map fun address => .getActive address now, passed) ∧
      other.scanKnown conf later more seen =
        (addresses.map fun address => .getActive address later, passed) := by
  induction known generalizing more seen with
  | nil =>
      rw [List.map_nil, List.map_eq_nil_iff] at uids
      subst uids
      exact ⟨[], true, rfl, rfl⟩
  | cons entry rest ih =>
      obtain ⟨uid, active⟩ := entry
      obtain ⟨⟨same, found⟩, more, rfl, hsame, huids⟩ :=
        List.map_eq_cons_iff.mp uids
      dsimp only at hsame
      subst hsame
      unfold Facts.scanKnown
      rw [users]
      dsimp only
      split
      · exact ih huids seen
      · split
        · exact ih huids seen
        · cases toMatrixId (some same) conf.serverName with
          | error error => exact ⟨[], false, rfl, rfl⟩
          | ok mxid =>
              obtain ⟨addresses, passed, hfacts, hother⟩ := 
                ih huids (same :: seen)
              refine ⟨mxid :: addresses, passed, ?_, ?_⟩
              · simp only [hfacts, List.map_cons]
              · simp only [hother, List.map_cons]

theorem Facts.scanKnown_append {more : List (String × Option Int)}
    (listed : ∀ entry ∈ more, ∃ user ∈ facts.users, user.uid = some entry.1)
    (known : List (String × Option Int)) (seen : List String) :
    facts.scanKnown conf now (known ++ more) seen =
      facts.scanKnown conf now known seen := by
  induction known generalizing seen with
  | nil =>
      rw [List.nil_append]
      induction more with
      | nil => rfl
      | cons entry rest ih =>
          obtain ⟨user, huser, huid⟩ := listed entry List.mem_cons_self
          unfold Facts.scanKnown
          rw [if_pos (List.any_eq_true.mpr ⟨user, huser, by simp [huid]⟩)]
          rw [ih fun later hlater =>
            listed later (List.mem_cons_of_mem _ hlater)]
          rfl
  | cons entry rest ih =>
      rw [List.cons_append]
      unfold Facts.scanKnown
      simp only [ih]

end Lookups

/-! What one operation does to the tables that are no history. -/

section Tables

variable {env : Environment} {conf : Config} {outcome : UserOutcome}
variable {update : UserUpdate} {operation : UserOperation}

theorem react_activate_hashes (matrixAddress : String) :
    ∃ active : HashRow → Option Int,
      (UserUpdate.react env conf outcome (.activateHashes matrixAddress)
        update).1.store .hashes =
      (update.store .hashes).map fun row =>
        { row with active := active row } := by
  simp only [UserUpdate.react, attempt]
  split
  · exact ⟨(·.active), (List.map_id' _).symm⟩
  · refine ⟨fun row => if equals env.driver .hashes
      ("value", .str matrixAddress) row = true then some 1 else row.active, ?_⟩
    simp only [execute, Function.update_self, updateRows]
    apply List.map_congr_left
    intro row _
    split
    · rfl
    · rfl

/-- Rows of the hashes get another activity, or one row is added by a worker,
for the address of its task. -/
theorem react_hashes (late : operation.isRead = false) :
    (∃ active : HashRow → Option Int,
      (UserUpdate.react env conf outcome operation update).1.store .hashes =
        (update.store .hashes).map fun row =>
          { row with active := active row }) ∨
    ∃ task row, operation = .hash task ∧
      row.value = task.args.matrixAddress ∧
      (UserUpdate.react env conf outcome operation update).1.store .hashes =
        update.store .hashes ++ [row] := by
  have hkept : ∀ hashes : List HashRow, ∃ active : HashRow → Option Int,
      hashes = hashes.map fun row => { row with active := active row } :=
    fun hashes => ⟨(·.active), (List.map_id' _).symm⟩
  by_cases hhistory : operation.address? = none
  · cases operation with
    | activateHashes matrixAddress =>
        exact .inl (react_activate_hashes matrixAddress)
    | hash task =>
        simp only [UserUpdate.react]
        rcases (Workers.react_owned env outcome.fails update.workers
            update.store task).2.2 with hsame | ⟨row, hvalue, hstored⟩
        · rw [hsame]
          exact .inl (hkept _)
        · rw [hstored, Function.update_self]
          exact .inr ⟨task, row, rfl, hvalue, rfl⟩
    | getUsers => cases late
    | getHashes => cases late
    | getHistory => cases late
    | getMatrixUsers => cases late
    | _ => cases hhistory
  · left
    rw [(react_history_frame env conf outcome update hhistory).1 .hashes
      (by decide)]
    exact hkept _

theorem react_keys (late : operation.isRead = false) :
    (UserUpdate.react env conf outcome operation update).1.store .keys =
      update.store .keys := by
  by_cases hhistory : operation.address? = none
  · cases operation with
    | activateHashes matrixAddress =>
        have hother : Collections.keys ≠ .hashes := by decide
        simp only [UserUpdate.react, attempt, execute]
        split
        · rfl
        · dsimp only
          rw [Function.update_of_ne hother]
    | hash task =>
        simp only [UserUpdate.react]
        rcases @Workers.react_store env update.store update.workers
            outcome.fails task with hsame | ⟨row, hstored⟩
        · rw [hsame]
        · rw [hstored]
          exact Function.update_of_ne (by decide) _ _
    | getUsers => cases late
    | getHashes => cases late
    | getHistory => cases late
    | getMatrixUsers => cases late
    | _ => cases hhistory
  · exact (react_history_frame env conf outcome update hhistory).1 .keys
      (by decide)

/-- The tasks of the workers, waiting or under way, are for addresses of which
`Handled` holds. -/
structure Handles (Handled : String → Prop) (loop : UserLoop) : Prop where
  waiting : ∀ args ∈ loop.vars.workers.waiting, Handled args.matrixAddress
  tasks : ∀ task, .hash task ∈ loop.pending → Handled task.args.matrixAddress

theorem Handles.step {Handled : String → Prop} {before after : UserLoop}
    {rest : List UserOperation} (handles : Handles Handled before)
    (completes : Loop.Completes (UserUpdate.react env conf) before outcome
      operation rest after)
    (late : operation.isRead = false) : Handles Handled after := by
  have hkeep : (UserUpdate.react env conf outcome operation
        before.vars).1.workers = before.vars.workers →
      (∀ task, .hash task ∉
        (UserUpdate.react env conf outcome operation before.vars).2) →
      Handles Handled after := by
    intro hworkers hissued
    refine ⟨?_, ?_⟩
    · rw [completes.vars, hworkers]
      exact handles.waiting
    · intro task htask
      rcases completes.mem_after htask with ⟨_, hbefore⟩ | hnew
      · exact handles.tasks task hbefore
      · exact absurd hnew (hissued task)
  by_cases hhistory : operation.address? = none
  · cases operation with
    | activateHashes matrixAddress =>
        exact hkeep rfl fun _ => List.not_mem_nil
    | hash task =>
        obtain ⟨hwaiting, hissued, _⟩ := Workers.react_owned env outcome.fails
          before.vars.workers before.vars.store task
        refine ⟨?_, ?_⟩
        · rw [completes.vars]
          exact fun args h => handles.waiting args (hwaiting args h)
        · intro later hlater
          rcases completes.mem_after hlater with ⟨_, hbefore⟩ | hnew
          · exact handles.tasks later hbefore
          · obtain ⟨new, hnew, hsame⟩ := List.mem_map.mp hnew
            cases hsame
            rcases hissued later hnew with hown | hnext
            · rw [hown]
              exact handles.tasks task completes.mem_pending
            · exact handles.waiting _ hnext
    | getUsers => cases late
    | getHashes => cases late
    | getHistory => cases late
    | getMatrixUsers => cases late
    | _ => cases hhistory
  · obtain ⟨_, hworkers, hissued⟩ :=
      react_history_frame env conf outcome before.vars hhistory
    exact hkeep hworkers fun task h => hissued _ h rfl

end Tables

/-! From the answers to the end. -/

/-- Runs that read a clock of which `time` holds. -/
abbrev TimedRun (env : Environment) (conf : Config) (users : List UserRow)
    (entries : Option (List String)) (time : Nat → Prop) :
    UserLoop → UserLoop → Prop :=
  Reachable (updateStep env conf) fun _ (event : Nat × UserOutcome) =>
    Replies users entries event.2 ∧ time event.2.now

section Ends

variable {env : Environment} {conf : Config} {users : List UserRow}
variable {entries : Option (List String)} {time : Nat → Prop}
variable {start store : Store} {loop final : UserLoop} {facts : Facts}
variable {now : Nat} {tasks : List HashOperation}

theorem collected_or_launched
    (run : TimedRun env conf users entries time (startUpdate conf start)
      final) :
    (Collected conf users entries (· = start .hashes) (start .userHistory)
        final.pending final.vars ∧ final.pending ≠ [] ∧
      final.vars.store = start) ∨
    ∃ now loop, time now ∧ Launched conf (Facts.gathered conf users entries
        (start .hashes) (start .userHistory)) now start loop ∧
      TimedRun env conf users entries time loop final := by
  induction run with
  | refl =>
      exact .inl ⟨collected_start conf users entries start _,
        by simp [startUpdate], rfl⟩
  | tail _ permitted stepped ih =>
      rcases ih with ⟨hcollected, _, hstore⟩ | ⟨now, loop, htime, hrest⟩
      · obtain ⟨operation, _, completes⟩ := Loop.complete_cases stepped
        rcases hcollected.step completes permitted.1
            (fun _ => by rw [hstore]) with
          ⟨hkept, hpending, hunder, hsame⟩ | ⟨rows, rfl, hlaunched⟩
        · exact .inl ⟨hkept, hpending ▸ hunder, hsame.trans hstore⟩
        · rw [hstore] at hlaunched
          exact .inr ⟨_, _, permitted.2, hlaunched, .refl⟩
      · obtain ⟨hlaunched, hrun⟩ := hrest
        exact .inr ⟨now, loop, htime, hlaunched, hrun.tail permitted stepped⟩

theorem launched_of_ended
    (run : TimedRun env conf users entries time (startUpdate conf start)
      final) (ended : final.pending = []) :
    ∃ now loop, time now ∧ Launched conf (Facts.gathered conf users entries
        (start .hashes) (start .userHistory)) now start loop ∧
      TimedRun env conf users entries time loop final := by
  rcases collected_or_launched run with ⟨_, hunder, _⟩ | hlaunched
  · exact absurd ended hunder
  · exact hlaunched

theorem keeps_of_late (property : UserLoop → Prop)
    (run : TimedRun env conf users entries time loop final)
    (late : ∀ operation ∈ loop.pending, operation.isRead = false)
    (initially : property loop)
    (kept : ∀ before outcome operation rest after, property before →
      Loop.Completes (UserUpdate.react env conf) before outcome operation rest
        after →
      operation.isRead = false → outcome.fails = false → property after) :
    property final := by
  refine (run.invariant (fun loop =>
    (∀ operation ∈ loop.pending, operation.isRead = false) ∧ property loop)
    ⟨late, initially⟩ ?_).2
  rintro before event after ⟨hlate, hbefore⟩ ⟨replies, _⟩ stepped
  obtain ⟨operation, _, completes⟩ := Loop.complete_cases stepped
  have hoperation := hlate operation completes.mem_pending
  refine ⟨?_, kept _ _ _ _ _ hbefore completes hoperation replies.healthy⟩
  intro other hother
  rcases completes.mem_after hother with ⟨_, hsame⟩ | hissued
  · exact hlate other hsame
  · exact (react_late hoperation event.2 before.vars).2 other hissued

theorem Begun.history_ended (begun : Begun conf facts now store tasks loop)
    (existing : facts.existing = (store .userHistory).map HistoryRow.address)
    (run : TimedRun env conf users entries time loop final)
    (ended : final.pending = []) {address : String}
    (under : ∃ operation ∈ loop.pending, operation.address? = some address) :
    IsFinal conf facts now address (historyOf store address)
      (historyOf final.vars.store address) := by
  have htracks : Tracks conf facts now address (historyOf store address)
      final.vars.store final.pending := by
    refine keeps_of_late (fun loop => Tracks conf facts now address
      (historyOf store address) loop.vars.store loop.pending) run
      (fun _ h => (begun.mem_pending h).late) (begun.tracks under) ?_
    intro before outcome operation rest after htracks completes late healthy
    refine htracks.react completes late healthy ?_
    rw [existing, contains_existing]
  rcases htracks.state with hfinal | ⟨_, operation, hunder, _⟩
  · exact hfinal
  · rw [ended] at hunder
    cases hunder

theorem Begun.handles (begun : Begun conf facts now store tasks loop)
    {Handled : String → Prop}
    (handled : (∀ user ∈ facts.users, ValidUid conf user) → ∀ data,
      usersData conf (facts.enrolled conf facts.users) = .ok data →
      ∀ args ∈ updateParams data, Handled args.matrixAddress) :
    Handles Handled loop := by
  have hpool : (∀ args ∈ loop.vars.workers.waiting,
      Handled args.matrixAddress) ∧
      ∀ task ∈ tasks, Handled task.args.matrixAddress := by
    by_cases hvalid : ∀ user ∈ facts.users, ValidUid conf user
    · obtain ⟨data, hreduced, hpool⟩ := begun.pool hvalid
      obtain ⟨hwaiting, htasks⟩ := mem_pool hpool
      have hall := handled hvalid data hreduced
      exact ⟨fun args h => hall args (hwaiting args h),
        fun task h => hall _ (htasks task h)⟩
    · obtain ⟨hworkers, rfl⟩ := begun.idle hvalid
      rw [hworkers]
      exact ⟨fun _ h => absurd h List.not_mem_nil,
        fun _ h => absurd h List.not_mem_nil⟩
  refine ⟨hpool.1, ?_⟩
  intro task htask
  rcases begun.mem_pending htask with
    ⟨user, _, mxid, _, hwrites⟩ | ⟨other, hother, hsame⟩ | ⟨_, _, hgone⟩
  · rcases mem_userWrites hwrites with hsame | hwrite
    · cases hsame
    · have hnone := congrArg UserOperation.address? hwrite
      rw [address_writeHistory] at hnone
      cases hnone
  · cases hsame
    exact hpool.2 task hother
  · cases hgone

theorem Begun.values_ended (begun : Begun conf facts now store tasks loop)
    {Handled : String → Prop} (handles : Handles Handled loop)
    (run : TimedRun env conf users entries time loop final) :
    ∃ added, (final.vars.store .hashes).map (·.value) =
        (store .hashes).map (·.value) ++ added ∧
      ∀ value ∈ added, Handled value := by
  refine (keeps_of_late (fun loop => Handles Handled loop ∧
    ∃ added, (loop.vars.store .hashes).map (·.value) =
        (store .hashes).map (·.value) ++ added ∧
      ∀ value ∈ added, Handled value) run
    (fun _ h => (begun.mem_pending h).late) ⟨handles, [], ?_, ?_⟩ ?_).2
  · rw [begun.store, List.append_nil]
  · exact fun _ h => absurd h List.not_mem_nil
  · rintro before outcome operation rest after
      ⟨hhandles, added, hvalues, hadded⟩ completes late _
    refine ⟨hhandles.step completes late, ?_⟩
    rw [completes.vars]
    rcases @react_hashes env conf outcome before.vars operation late with
      ⟨active, hhashes⟩ | ⟨task, row, rfl, hvalue, hhashes⟩
    · refine ⟨added, ?_, hadded⟩
      rw [hhashes, List.map_map, ← hvalues]
      rfl
    · refine ⟨added ++ [row.value], ?_, ?_⟩
      · rw [hhashes, List.map_append, hvalues, List.append_assoc]
        rfl
      · intro value h
        rcases List.mem_append.mp h with hbefore | hnew
        · exact hadded value hbefore
        · rw [List.mem_singleton.mp hnew, hvalue]
          exact hhandles.tasks task completes.mem_pending

end Ends

end TwakeKickstart.IdentityServer
