import TwakeKickstart.IdentityServer.Cron.UserHistory

namespace TwakeKickstart.IdentityServer

open Library Utils

/-! A run of `updateUsers` from its first requests to its end. -/

/-- A database without failures, and what the two directories answer. -/
structure Replies (users : List UserRow) (entries : Option (List String))
    (outcome : UserOutcome) : Prop where
  healthy : outcome.fails = false
  users : outcome.users = users
  entries : outcome.entries = entries

/-- The facts that the answers amount to. -/
def Facts.gathered (conf : Config) (users : List UserRow)
    (entries : Option (List String)) (hashes : List HashRow)
    (history : List HistoryRow) : Facts where
  users := users
  known := hashes.map knownEntry
  existing := history.map HistoryRow.address
  matrixUsers :=
    if conf.isMatrixDbAvailable then some ((entries.getD []).map localPart)
    else none

/-- A request is under way, or has been answered. -/
def Answered {Found : Type} (pending : List UserOperation)
    (request : UserOperation) (found : Option Found)
    (reply : Found → Prop) : Prop :=
  (found = none ∧ request ∈ pending) ∨
    ∃ value, found = some value ∧ request ∉ pending ∧ reply value

/-- Of the first requests, those in `pending` have not been answered yet.
`seen` are the contents of the hash table that the run may have found. -/
structure Collected (conf : Config) (users : List UserRow)
    (entries : Option (List String)) (seen : List HashRow → Prop)
    (history : List HistoryRow) (pending : List UserOperation)
    (update : UserUpdate) : Prop where
  reads : ∀ operation ∈ pending, operation.isRead = true
  distinct : pending.Nodup
  matrix : .getMatrixUsers ∈ pending → conf.isMatrixDbAvailable = true
  users : Answered pending .getUsers update.users (· = users)
  known : Answered pending .getHashes update.known fun known =>
    ∃ rows, seen rows ∧ known = rows.map knownEntry
  existing : Answered pending .getHistory update.existing
    (· = history.map HistoryRow.address)
  matrixUsers : conf.isMatrixDbAvailable = true →
    Answered pending .getMatrixUsers update.matrixUsers
      (· = (entries.getD []).map localPart)
  history : update.store .userHistory = history
  workers : update.workers = ⟨"", [], 0⟩
  accepted : update.rejected = false

/-- The last answer has come, and the synchronous part has run. -/
def Launched (conf : Config) (facts : Facts) (now : Nat) (store : Store)
    (loop : UserLoop) : Prop :=
  ∃ update : UserUpdate, update.store = store ∧
    update.workers = ⟨"", [], 0⟩ ∧ update.rejected = false ∧
    (loop.vars, loop.pending) = update.proceed conf now facts

section Requests

variable {env : Environment} {conf : Config} {outcome : UserOutcome}
variable {users : List UserRow} {entries : Option (List String)}
variable {seen : List HashRow → Prop} {history : List HistoryRow}
variable {before after : UserLoop} {operation : UserOperation}
variable {pending rest : List UserOperation} {update : UserUpdate}

theorem Answered.of_other {Found : Type} {request : UserOperation}
    {found : Option Found} {reply : Found → Prop}
    (answered : Answered pending request found reply)
    (taken : pending.Perm (operation :: rest)) (other : request ≠ operation) :
    Answered rest request found reply := by
  have hmem : request ∈ pending ↔ request ∈ rest := by
    rw [taken.mem_iff, List.mem_cons]
    exact or_iff_right other
  unfold Answered at answered ⊢
  rw [hmem] at answered
  exact answered

theorem Answered.none {Found : Type} {request : UserOperation}
    {found : Option Found} {reply : Found → Prop}
    (answered : Answered pending request found reply)
    (under : request ∈ pending) : found = Option.none := by
  rcases answered with ⟨hnone, _⟩ | ⟨_, _, hgone, _⟩
  · exact hnone
  · exact absurd under hgone

theorem Answered.ended {Found : Type} {request : UserOperation}
    {found : Option Found} {reply : Found → Prop}
    (answered : Answered [] request found reply) :
    ∃ value, found = some value ∧ reply value := by
  rcases answered with ⟨_, hmem⟩ | ⟨value, hfound, _, hreply⟩
  · cases hmem
  · exact ⟨value, hfound, hreply⟩

theorem collected_start (conf : Config) (users : List UserRow)
    (entries : Option (List String)) (store : Store)
    (seen : List HashRow → Prop) :
    Collected conf users entries seen (store .userHistory)
      (startUpdate conf store).pending (startUpdate conf store).vars where
  reads := by
    intro operation h
    rcases List.mem_append.mp h with hthree | hmatrix
    · simp only [List.mem_cons, List.not_mem_nil, or_false] at hthree
      rcases hthree with rfl | rfl | rfl
      · rfl
      · rfl
      · rfl
    · split at hmatrix
      · rw [List.mem_singleton.mp hmatrix]
        rfl
      · cases hmatrix
  distinct := by
    unfold startUpdate
    dsimp only
    split
    · decide
    · decide
  matrix := by
    intro h
    by_contra hnone
    simp [startUpdate, hnone] at h
  users := .inl ⟨rfl, by simp [startUpdate]⟩
  known := .inl ⟨rfl, by simp [startUpdate]⟩
  existing := .inl ⟨rfl, by simp [startUpdate]⟩
  matrixUsers := fun available => .inl ⟨rfl, by simp [startUpdate, available]⟩
  history := rfl
  workers := rfl
  accepted := rfl

theorem Collected.facts_none
    (collected : Collected conf users entries seen history pending update)
    (under : pending ≠ []) : update.facts conf = none := by
  obtain ⟨operation, hoperation⟩ := List.exists_mem_of_ne_nil _ under
  have hread := collected.reads operation hoperation
  rw [Option.eq_none_iff_forall_not_mem]
  intro facts h
  unfold UserUpdate.facts at h
  obtain ⟨users, husers, h⟩ := Option.bind_eq_some_iff.mp h
  obtain ⟨known, hknown, h⟩ := Option.bind_eq_some_iff.mp h
  obtain ⟨existing, hexisting, h⟩ := Option.bind_eq_some_iff.mp h
  cases operation with
  | getUsers =>
      rw [collected.users.none hoperation] at husers
      cases husers
  | getHashes =>
      rw [collected.known.none hoperation] at hknown
      cases hknown
  | getHistory =>
      rw [collected.existing.none hoperation] at hexisting
      cases hexisting
  | getMatrixUsers =>
      have havailable := collected.matrix hoperation
      rw [if_pos havailable,
        (collected.matrixUsers havailable).none hoperation] at h
      cases h
  | _ => cases hread

theorem Collected.facts_some
    (collected : Collected conf users entries seen history [] update) :
    ∃ rows, seen rows ∧
      update.facts conf =
        some (Facts.gathered conf users entries rows history) := by
  obtain ⟨_, husers, rfl⟩ := collected.users.ended
  obtain ⟨_, hknown, rows, hseen, rfl⟩ := collected.known.ended
  obtain ⟨_, hexisting, rfl⟩ := collected.existing.ended
  refine ⟨rows, hseen, ?_⟩
  unfold UserUpdate.facts Facts.gathered
  rw [husers, hknown, hexisting]
  simp only [Option.bind_some]
  by_cases havailable : conf.isMatrixDbAvailable = true
  · obtain ⟨_, hmatrix, rfl⟩ := (collected.matrixUsers havailable).ended
    rw [if_pos havailable, if_pos havailable, hmatrix]
    rfl
  · rw [if_neg havailable, if_neg havailable]

theorem Collected.collect
    (collected : Collected conf users entries seen history rest update)
    (completes : Loop.Completes (UserUpdate.react env conf) before outcome
      operation rest after)
    (reaction : UserUpdate.react env conf outcome operation before.vars =
      update.collect conf outcome.now) :
    (Collected conf users entries seen history after.pending after.vars ∧
      after.pending = rest ∧ rest ≠ [] ∧
      after.vars.store = update.store) ∨
    (rest = [] ∧ ∃ rows, seen rows ∧
      Launched conf (Facts.gathered conf users entries rows history)
        outcome.now update.store after) := by
  have hvars := completes.vars
  have hissued := completes.issued
  rw [reaction] at hvars hissued
  by_cases hrest : rest = []
  · right
    subst hrest
    obtain ⟨rows, hseen, hfacts⟩ := collected.facts_some
    refine ⟨rfl, rows, hseen, update, rfl, collected.workers,
      collected.accepted, ?_⟩
    simp only [UserUpdate.collect, hfacts, List.nil_append]
      at hvars hissued
    rw [hvars, hissued]
  · left
    simp only [UserUpdate.collect, collected.facts_none hrest,
      List.append_nil] at hvars hissued
    rw [hvars, hissued]
    exact ⟨collected, rfl, hrest, rfl⟩

theorem attempt_getAll (env : Environment) (store : Store)
    (table : Collections) (fields : List String) :
    attempt env false (.get table fields []) store =
      (some (store table), store) := by
  simp only [attempt, Bool.false_eq_true, if_false, execute_get, resolve_nil,
    Option.map_some]
  congr 1
  rw [List.filter_eq_self.mpr]
  intro row _
  rfl

theorem collect_store (conf : Config) (now : Nat) (update : UserUpdate) :
    (update.collect conf now).1.store = update.store := by
  unfold UserUpdate.collect
  split
  · rfl
  · unfold UserUpdate.proceed
    dsimp only
    split
    · rfl
    · rfl

theorem react_read_store (read : operation.isRead = true) :
    (UserUpdate.react env conf outcome operation update).1.store =
      update.store := by
  cases operation with
  | getUsers =>
      simp only [UserUpdate.react]
      split
      · rfl
      · exact collect_store conf _ _
  | getHashes =>
      simp only [UserUpdate.react]
      split
      · rfl
      · exact collect_store conf _ _
  | getHistory =>
      simp only [UserUpdate.react]
      split
      · rfl
      · exact collect_store conf _ _
  | getMatrixUsers =>
      simp only [UserUpdate.react]
      split
      · rfl
      · exact collect_store conf _ _
  | _ => cases read

theorem Collected.step
    (collected : Collected conf users entries seen history before.pending
      before.vars)
    (completes : Loop.Completes (UserUpdate.react env conf) before outcome
      operation rest after)
    (replies : Replies users entries outcome)
    (found : operation = .getHashes → seen (before.vars.store .hashes)) :
    (Collected conf users entries seen history after.pending after.vars ∧
      after.pending = rest ∧ rest ≠ [] ∧
      after.vars.store = before.vars.store) ∨
    ∃ rows, seen rows ∧
      Launched conf (Facts.gathered conf users entries rows history)
        outcome.now before.vars.store after := by
  have taken := completes.pending
  have hgone : operation ∉ rest :=
    (List.nodup_cons.mp (taken.nodup_iff.mp collected.distinct)).1
  have hreads : ∀ other ∈ rest, other.isRead = true := fun other hother =>
    collected.reads other (taken.mem_iff.mpr (List.mem_cons_of_mem _ hother))
  have hdistinct : rest.Nodup :=
    (List.nodup_cons.mp (taken.nodup_iff.mp collected.distinct)).2
  have hmatrix : .getMatrixUsers ∈ rest → conf.isMatrixDbAvailable = true :=
    fun h => collected.matrix (taken.mem_iff.mpr (List.mem_cons_of_mem _ h))
  have hcollect : ∀ update : UserUpdate,
      Collected conf users entries seen history rest update →
      update.store = before.vars.store →
      UserUpdate.react env conf outcome operation before.vars =
        update.collect conf outcome.now →
      (Collected conf users entries seen history after.pending after.vars ∧
        after.pending = rest ∧ rest ≠ [] ∧
        after.vars.store = before.vars.store) ∨
      ∃ rows, seen rows ∧
        Launched conf (Facts.gathered conf users entries rows history)
          outcome.now before.vars.store after := by
    intro update hupdate hstore hreact
    rw [← hstore]
    rcases hupdate.collect completes hreact with hkept | ⟨_, hlaunched⟩
    · exact .inl hkept
    · exact .inr hlaunched
  have hread := collected.reads operation completes.mem_pending
  cases operation with
  | getUsers =>
      refine hcollect { before.vars with users := some outcome.users } ?_ rfl ?_
      · exact
          { reads := hreads
            distinct := hdistinct
            matrix := hmatrix
            users := .inr ⟨_, rfl, hgone, replies.users⟩
            known := collected.known.of_other taken (by simp)
            existing := collected.existing.of_other taken (by simp)
            matrixUsers := fun available =>
              (collected.matrixUsers available).of_other taken (by simp)
            history := collected.history
            workers := collected.workers
            accepted := collected.accepted }
      · simp only [UserUpdate.react, replies.healthy, Bool.false_eq_true,
          if_false]
  | getHashes =>
      refine hcollect { before.vars with
        known := some ((before.vars.store .hashes).map knownEntry) } ?_ rfl ?_
      · exact
          { reads := hreads
            distinct := hdistinct
            matrix := hmatrix
            users := collected.users.of_other taken (by simp)
            known := .inr ⟨_, rfl, hgone, _, found rfl, rfl⟩
            existing := collected.existing.of_other taken (by simp)
            matrixUsers := fun available =>
              (collected.matrixUsers available).of_other taken (by simp)
            history := collected.history
            workers := collected.workers
            accepted := collected.accepted }
      · simp only [UserUpdate.react, replies.healthy, attempt_getAll]
  | getHistory =>
      refine hcollect { before.vars with
        existing := some ((before.vars.store .userHistory).map
          HistoryRow.address) } ?_ rfl ?_
      · exact
          { reads := hreads
            distinct := hdistinct
            matrix := hmatrix
            users := collected.users.of_other taken (by simp)
            known := collected.known.of_other taken (by simp)
            existing := .inr ⟨_, rfl, hgone, by rw [collected.history]⟩
            matrixUsers := fun available =>
              (collected.matrixUsers available).of_other taken (by simp)
            history := collected.history
            workers := collected.workers
            accepted := collected.accepted }
      · simp only [UserUpdate.react, replies.healthy, attempt_getAll]
  | getMatrixUsers =>
      refine hcollect { before.vars with
        matrixUsers := some ((outcome.entries.getD []).map localPart) } ?_
        rfl ?_
      · exact
          { reads := hreads
            distinct := hdistinct
            matrix := hmatrix
            users := collected.users.of_other taken (by simp)
            known := collected.known.of_other taken (by simp)
            existing := collected.existing.of_other taken (by simp)
            matrixUsers := fun _ =>
              .inr ⟨_, rfl, hgone, by rw [replies.entries]⟩
            history := collected.history
            workers := collected.workers
            accepted := collected.accepted }
      · simp only [UserUpdate.react, replies.healthy, Bool.false_eq_true,
          if_false]
  | _ => cases hread

end Requests

/-! What the synchronous part has launched. -/

def Listed (conf : Config) (users : List UserRow) (address : String) : Prop :=
  ∃ user ∈ users, toMatrixId user.uid conf.serverName = .ok address

/-- Every `uid` gives a Matrix ID, those of the users that have gone
included. -/
structure Nameable (conf : Config) (facts : Facts) : Prop where
  users : ∀ user ∈ facts.users, ValidUid conf user
  known : ∀ uid ∈ facts.known.map Prod.fst,
    (∀ user ∈ facts.users, user.uid ≠ some uid) → uid ∉ inheritedMembers →
    ∃ mxid, toMatrixId (some uid) conf.serverName = .ok mxid

/-- The run has not been rejected: every user of the directory and every user
that has gone is taken care of, and the workers have their first `tasks`. -/
structure Started (conf : Config) (facts : Facts) (now : Nat) (store : Store)
    (data : UpdatableFields) (tasks : List HashOperation) (loop : UserLoop) :
    Prop where
  store : loop.vars.store = store
  accepted : loop.vars.rejected = false
  valid : ∀ user ∈ facts.users, ValidUid conf user
  reduced : usersData conf (facts.enrolled conf facts.users) = .ok data
  pool : (loop.vars.workers, tasks) =
    if facts.users.any facts.isNew then Workers.start "" (updateParams data)
    else (⟨"", [], 0⟩, [])
  pending : ∃ inactive,
    loop.pending = facts.users.flatMap (facts.launched conf now) ++
      tasks.map .hash ++ inactive ∧
    ∀ operation, operation ∈ inactive ↔ ∃ address,
      Removed conf facts address ∧ operation = .getActive address now

/-- The synchronous part launches the operation: for a user of the directory,
for one of the workers, or for a user that has gone. -/
def Planned (conf : Config) (facts : Facts) (now : Nat)
    (tasks : List HashOperation) (operation : UserOperation) : Prop :=
  (∃ user ∈ facts.users, ∃ mxid,
    toMatrixId user.uid conf.serverName = .ok mxid ∧
    operation ∈ facts.userWrites conf now user mxid) ∨
  (∃ task ∈ tasks, operation = .hash task) ∨
  ∃ mxid, Removed conf facts mxid ∧ operation = .getActive mxid now

section Starts

variable {env : Environment} {conf : Config} {facts : Facts} {now : Nat}
variable {store : Store} {loop : UserLoop} {operation : UserOperation}
variable {address : String} {data : UpdatableFields}
variable {tasks : List HashOperation}

theorem Launched.shape (launched : Launched conf facts now store loop)
    (valid : ∀ user ∈ facts.users, ValidUid conf user) :
    ∃ data tasks, usersData conf (facts.enrolled conf facts.users) = .ok data ∧
      loop.vars.store = store ∧
      (loop.vars.workers, tasks) = (if facts.users.any facts.isNew then
        Workers.start "" (updateParams data) else (⟨"", [], 0⟩, [])) ∧
      loop.pending = facts.users.flatMap (facts.launched conf now) ++
        tasks.map .hash ++ (facts.scanKnown conf now facts.known []).1 ∧
      loop.vars.rejected = !(facts.scanKnown conf now facts.known []).2 := by
  obtain ⟨update, hstore, hworkers, _, hproceed⟩ := launched
  obtain ⟨data, hdata, hscan⟩ :=
    facts.scanUsers_eq conf now valid [] [] false
  simp only [UserUpdate.proceed, hscan, Bool.false_or, List.nil_append,
    hworkers, if_true] at hproceed
  have hvars := congrArg Prod.fst hproceed
  have hpending := congrArg Prod.snd hproceed
  dsimp only at hvars hpending
  refine ⟨data, (if facts.users.any facts.isNew then
    Workers.start "" (updateParams data) else (⟨"", [], 0⟩, [])).2, hdata,
    ?_, ?_, hpending, ?_⟩
  · rw [hvars]
    exact hstore
  · rw [hvars]
  · rw [hvars]

theorem Launched.started (launched : Launched conf facts now store loop)
    (accepted : loop.vars.rejected = false) :
    ∃ data tasks, Started conf facts now store data tasks loop := by
  by_cases hvalid : ∀ user ∈ facts.users, ValidUid conf user
  · obtain ⟨data, tasks, hdata, hstore, hpool, hpending, hrejected⟩ :=
      launched.shape hvalid
    have hpassed : (facts.scanKnown conf now facts.known []).2 = true := by
      rw [hrejected] at accepted
      simpa using accepted
    refine ⟨data, tasks, hstore, accepted, hvalid, hdata, hpool, _, hpending,
      ?_⟩
    intro operation
    rw [facts.scanKnown_spec conf now hpassed]
    constructor
    · rintro ⟨uid, mxid, hknown, habsent, hown, _, hid, hoperation⟩
      exact ⟨mxid, ⟨uid, hknown, habsent, hown, hid⟩, hoperation⟩
    · rintro ⟨mxid, ⟨uid, hknown, habsent, hown, hid⟩, hoperation⟩
      exact ⟨uid, mxid, hknown, habsent, hown, List.not_mem_nil, hid,
        hoperation⟩
  · push Not at hvalid
    obtain ⟨update, _, _, _, hproceed⟩ := launched
    have hstops := facts.scanUsers_stops conf now hvalid [] [] false
    have hvars := congrArg Prod.fst hproceed
    simp only [UserUpdate.proceed, hstops, Bool.false_eq_true, if_false]
      at hvars
    rw [hvars] at accepted
    cases accepted

theorem Launched.accepted_iff (launched : Launched conf facts now store loop) :
    loop.vars.rejected = false ↔ Nameable conf facts := by
  constructor
  · intro accepted
    obtain ⟨data, tasks, hstarted⟩ := launched.started accepted
    obtain ⟨_, _, _, _, _, _, hrejected⟩ := launched.shape hstarted.valid
    rw [hrejected] at accepted
    have hpassed := (facts.scanKnown_passed_iff conf now).mp
      (by simpa using accepted)
    refine ⟨hstarted.valid, ?_⟩
    intro uid hknown habsent hown
    exact hpassed uid hknown habsent hown List.not_mem_nil
  · intro nameable
    obtain ⟨_, _, _, _, _, _, hrejected⟩ := launched.shape nameable.users
    have hpassed : (facts.scanKnown conf now facts.known []).2 = true :=
      (facts.scanKnown_passed_iff conf now).mpr
        fun uid hknown habsent hown _ =>
          nameable.known uid hknown habsent hown
    rw [hrejected, hpassed]
    rfl

theorem react_late (late : operation.isRead = false)
    (outcome : UserOutcome) (update : UserUpdate) :
    (UserUpdate.react env conf outcome operation update).1.rejected =
      update.rejected ∧
    ∀ issued ∈ (UserUpdate.react env conf outcome operation update).2,
      issued.isRead = false := by
  cases operation with
  | getUsers => cases late
  | getHashes => cases late
  | getHistory => cases late
  | getMatrixUsers => cases late
  | updateHistory row => exact ⟨rfl, fun _ h => absurd h List.not_mem_nil⟩
  | insertHistory row => exact ⟨rfl, fun _ h => absurd h List.not_mem_nil⟩
  | activateHashes matrixAddress =>
      exact ⟨rfl, fun _ h => absurd h List.not_mem_nil⟩
  | deactivateHistory selected =>
      exact ⟨rfl, fun _ h => absurd h List.not_mem_nil⟩
  | hash task =>
      refine ⟨rfl, ?_⟩
      intro issued h
      obtain ⟨later, _, rfl⟩ := List.mem_map.mp h
      rfl
  | getActive selected timestamp =>
      simp only [UserUpdate.react]
      split
      · exact ⟨rfl, fun _ h => absurd h List.not_mem_nil⟩
      · refine ⟨rfl, ?_⟩
        intro issued h
        rw [List.mem_singleton.mp h]
        rfl
      · refine ⟨rfl, ?_⟩
        intro issued h
        split at h
        · rw [List.mem_singleton.mp h]
          rfl
        · cases h

theorem mem_launched {users : List UserRow}
    (h : operation ∈ users.flatMap (facts.launched conf now)) :
    ∃ user ∈ users, ∃ mxid, toMatrixId user.uid conf.serverName = .ok mxid ∧
      operation ∈ facts.userWrites conf now user mxid := by
  obtain ⟨user, huser, hlaunched⟩ := List.mem_flatMap.mp h
  unfold Facts.launched at hlaunched
  split at hlaunched
  · cases hlaunched
  · rename_i mxid hmxid
    exact ⟨user, huser, mxid, hmxid, hlaunched⟩

theorem late_userWrites {user : UserRow}
    (h : operation ∈ facts.userWrites conf now user address) :
    operation.isRead = false := by
  rcases mem_userWrites h with rfl | rfl
  · rfl
  · unfold Facts.writeHistory
    split
    · rfl
    · rfl

theorem Planned.late (planned : Planned conf facts now tasks operation) :
    operation.isRead = false := by
  rcases planned with ⟨_, _, _, _, hwrites⟩ | ⟨task, _, rfl⟩ | ⟨_, _, rfl⟩
  · exact late_userWrites hwrites
  · rfl
  · rfl

theorem Planned.serves (planned : Planned conf facts now tasks operation)
    (initial : Option HistoryRow) (on : operation.address? = some address) :
    Serves conf facts now address initial operation := by
  rcases planned with
    ⟨user, huser, mxid, hmxid, hwrites⟩ | ⟨task, _, rfl⟩ | ⟨mxid, hgone, rfl⟩
  · have hwrite := writes_of_user hwrites (by simp [on])
    rw [hwrite, address_writeHistory, Option.some.injEq] at on
    dsimp only at on
    subst on
    exact .inl ⟨⟨user, huser, hmxid, List.ne_nil_of_mem hwrites⟩, hwrite⟩
  · cases on
  · cases on
    exact .inr ⟨hgone, .inl rfl⟩

theorem Started.mem_pending
    (started : Started conf facts now store data tasks loop)
    (h : operation ∈ loop.pending) :
    Planned conf facts now tasks operation := by
  obtain ⟨inactive, hpending, hinactive⟩ := started.pending
  rw [hpending] at h
  rcases List.mem_append.mp h with hupdates | hgone
  · rcases List.mem_append.mp hupdates with hlaunched | htask
    · exact .inl (mem_launched hlaunched)
    · obtain ⟨task, hmem, rfl⟩ := List.mem_map.mp htask
      exact .inr (.inl ⟨task, hmem, rfl⟩)
  · exact .inr (.inr ((hinactive operation).mp hgone))

theorem Started.late
    (started : Started conf facts now store data tasks loop)
    (h : operation ∈ loop.pending) : operation.isRead = false :=
  (started.mem_pending h).late

theorem Started.tracks
    (started : Started conf facts now store data tasks loop)
    (address : String) :
    Tracks conf facts now address (historyOf store address) loop.vars.store
      loop.pending where
  serves := fun _ h on => (started.mem_pending h).serves _ on
  state := by
    obtain ⟨inactive, hpending, hinactive⟩ := started.pending
    rw [started.store]
    by_cases hwritten : Written conf facts now address
    · right
      obtain ⟨user, huser, hmxid, hwrites⟩ := hwritten
      refine ⟨rfl, _, ?_, address_writeHistory facts ⟨address, 1, now⟩⟩
      rw [hpending]
      refine List.mem_append_left _ (List.mem_append_left _ ?_)
      refine List.mem_flatMap.mpr ⟨user, huser, ?_⟩
      simp only [Facts.launched, hmxid]
      exact writeHistory_of_writes hwrites
    · by_cases hgone : Removed conf facts address
      · right
        refine ⟨rfl, .getActive address now, ?_, rfl⟩
        rw [hpending]
        exact List.mem_append_right _
          ((hinactive _).mpr ⟨address, hgone, rfl⟩)
      · exact .inl (.inr (.inr ⟨hwritten, hgone, rfl⟩))

theorem late_scanUsers {users : List UserRow} {updates : List UserOperation}
    {usersToUpdate : UpdatableFields} {found : Bool}
    (late : ∀ operation ∈ updates, operation.isRead = false) :
    ∀ operation ∈ (facts.scanUsers conf now users updates usersToUpdate
      found).1, operation.isRead = false := by
  induction users generalizing updates usersToUpdate found with
  | nil => exact late
  | cons user rest ih =>
      unfold Facts.scanUsers
      split
      · exact late
      · apply ih
        intro operation h
        rcases List.mem_append.mp h with hbefore | hwrites
        · exact late operation hbefore
        · exact late_userWrites hwrites

theorem Launched.late (launched : Launched conf facts now store loop)
    (h : operation ∈ loop.pending) : operation.isRead = false := by
  obtain ⟨update, _, _, _, hproceed⟩ := launched
  have hpending := congrArg Prod.snd hproceed
  dsimp only [UserUpdate.proceed] at hpending
  have hupdates := @late_scanUsers conf facts now facts.users [] [] false
    (fun _ h => absurd h List.not_mem_nil)
  split at hpending
  · rw [hpending] at h
    rcases List.mem_append.mp h with hscan | hgone
    · rcases List.mem_append.mp hscan with hlaunched | htask
      · exact hupdates operation hlaunched
      · obtain ⟨task, _, rfl⟩ := List.mem_map.mp htask
        rfl
    · obtain ⟨_, mxid, _, _, _, _, rfl⟩ := facts.scanKnown_sound conf now hgone
      rfl
  · rw [hpending] at h
    exact hupdates operation h

end Starts

/-- The synchronous part has run, and its plan is carried out. -/
structure Working (conf : Config) (facts : Facts) (now : Nat) (start : Store)
    (loop : UserLoop) : Prop where
  late : ∀ operation ∈ loop.pending, operation.isRead = false
  tracks : ∀ address, Tracks conf facts now address (historyOf start address)
    loop.vars.store loop.pending

section Work

variable {env : Environment} {conf : Config} {facts : Facts} {now : Nat}
variable {start : Store} {before after : UserLoop} {outcome : UserOutcome}
variable {operation : UserOperation} {rest : List UserOperation}

theorem contains_existing (store : Store) (address : String) :
    ((store .userHistory).map HistoryRow.address).contains address =
      (historyOf store address).isSome := by
  rw [Bool.eq_iff_iff, historyOf, List.find?_isSome]
  simp

theorem Started.working {data : UpdatableFields} {tasks : List HashOperation}
    {loop : UserLoop}
    (started : Started conf facts now start data tasks loop) :
    Working conf facts now start loop :=
  ⟨fun _ => started.late, started.tracks⟩

theorem Working.step (working : Working conf facts now start before)
    (existing : facts.existing = (start .userHistory).map HistoryRow.address)
    (completes : Loop.Completes (UserUpdate.react env conf) before outcome
      operation rest after)
    (healthy : outcome.fails = false) :
    Working conf facts now start after where
  late := by
    have hlate := working.late operation completes.mem_pending
    intro other hother
    rcases completes.mem_after hother with ⟨_, hbefore⟩ | hissued
    · exact working.late other hbefore
    · exact (react_late hlate outcome before.vars).2 other hissued
  tracks := by
    intro address
    refine (working.tracks address).react completes
      (working.late operation completes.mem_pending) healthy ?_
    rw [existing, contains_existing]

theorem Working.ended {loop : UserLoop}
    (working : Working conf facts now start loop) (ended : loop.pending = [])
    (address : String) :
    IsFinal conf facts now address (historyOf start address)
      (historyOf loop.vars.store address) := by
  rcases (working.tracks address).state with hfinal | ⟨_, other, hother, _⟩
  · exact hfinal
  · rw [ended] at hother
    cases hother

end Work

end TwakeKickstart.IdentityServer
