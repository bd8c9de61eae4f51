import TwakeKickstart.TomServer.Lookup.Diff

namespace TwakeKickstart.TomServer

open Library Utils IdentityServer

/-! A client that polls `POST /lookup/diff` while `updateUsers` runs. -/

/-- A poll in progress: the time it took, and the rows once the history has
been asked. -/
structure Poll where
  data : DiffQueryBody
  timestamp : Nat
  rows : Option (List HistoryRow) := none

/-- The runs of `updateUsers`, one after the other, with the database; the
client, with the timestamp of its last reply. -/
structure Polling where
  loop : UserLoop
  since : Nat
  poll : Option Poll := none

inductive PollingEvent where
  | updateUsers
  | complete (index : Nat) (outcome : UserOutcome)
  -- the authenticated request, at the time that its handler reads
  | poll (timestamp : Nat) (fields : Option (List String))
      (limit offset : Option Int)
  | history (fails : Bool)
  | users (userRows : Option (List UserRow))

namespace Polling

/-- The poll ends with a reply, whose timestamp the client keeps. -/
def answer (polling : Polling) (reply : DiffReply) : Polling :=
  { polling with
    poll := none
    since :=
      match reply with
      | .failed => polling.since
      | .body _ _ timestamp => timestamp }

def step (env : Environment) (conf : Config) (polling : Polling) :
    PollingEvent → Option (Polling × Option DiffReply)
  | .updateUsers =>
      if polling.loop.pending.isEmpty then
        some ({ polling with
          loop := startUpdate conf polling.loop.vars.store }, none)
      else none
  | .complete index outcome =>
      (updateStep env conf polling.loop (index, outcome)).map fun loop =>
        ({ polling with loop }, none)
  | .poll timestamp fields limit offset =>
      match polling.poll with
      | some _ => none
      | none =>
          let data := { since := polling.since, fields, limit, offset }
          some ({ polling with poll := some { data, timestamp } }, none)
  | .history fails =>
      match polling.poll with
      | some { data, timestamp, rows := none } =>
          match changedRows fails data.since polling.loop.vars.store with
          | none => some (polling.answer .failed, some .failed)
          | some rows =>
              some ({ polling with
                poll := some { data, timestamp, rows := some rows } }, none)
      | _ => none
  | .users userRows =>
      match polling.poll with
      | some { data, timestamp, rows := some rows } =>
          let reply :=
            match userRows with
            | none => .failed
            | some userRows => diffReply data timestamp rows userRows
          some (polling.answer reply, some reply)
      | _ => none

end Polling

/-! The changes that the polls have to report. -/

/-- `changes` are those of the run in progress and `due` those of the runs that
have ended since the last poll started; `owed` are those that the poll in
progress has to report, unless `previous`, the reply before, did. -/
structure Watch where
  polling : Polling
  changes : List String := []
  due : List String := []
  owed : List String := []
  previous : DiffReply := .failed
  missed : List String := []

/-- The address whose history an operation has changed. -/
def changedBy (before after : Store) (operation : UserOperation) :
    List String :=
  operation.address?.toList.filter fun address =>
    historyOf before address != historyOf after address

namespace Watch

/-- The reply that has just been sent is compared with what was owed. -/
def settle (watch : Watch) : Option DiffReply → Watch
  | none => watch
  | some reply =>
      let missed := watch.owed.filter fun address =>
        !(watch.previous.reports address || reply.reports address)
      { watch with
        owed := [], previous := reply, missed := watch.missed ++ missed }

def observe (watch : Watch) (after : Polling) : PollingEvent → Watch
  | .complete index _ =>
      let changed := (watch.polling.loop.pending[index]?).elim []
        (changedBy watch.polling.loop.vars.store after.loop.vars.store)
      let changes := watch.changes ++ changed
      if after.loop.pending.isEmpty then
        { watch with
          polling := after, changes := [], due := watch.due ++ changes }
      else { watch with polling := after, changes }
  | .poll _ _ _ _ =>
      { watch with polling := after, owed := watch.due, due := [] }
  | _ => { watch with polling := after }

def step (env : Environment) (conf : Config) (watch : Watch)
    (event : PollingEvent) : Option Watch :=
  (watch.polling.step env conf event).map fun (after, reply) =>
    (watch.observe after event).settle reply

def start (store : Store) (since : Nat) : Watch where
  polling := { loop := { vars := { store }, pending := [] }, since }

end Watch

/-! When no change is missed. -/

/-- The `since` of the next look at the history. -/
def Polling.horizon (polling : Polling) : Int :=
  match polling.poll with
  | none => polling.since
  | some poll =>
      match poll.rows with
      | none => poll.data.since
      | some _ => poll.timestamp

/-- The row that an operation is about to write, if it changes the history. -/
def rewritten (store : Store) : UserOperation → Option HistoryRow
  | .updateHistory row =>
      if (historyOf store row.address).any (· != row) then some row else none
  | .insertHistory row =>
      if historyOf store row.address = none then some row else none
  | .deactivateHistory address =>
      (historyOf store address).bind fun row =>
        if row.active ≠ 0 then some { row with active := 0 } else none
  | _ => none

/-- The history of the address shows a change after `since`. -/
def Shows (store : Store) (since : Int) (address : String) : Prop :=
  ∃ row, historyOf store address = some row ∧ since < row.timestamp

/-- No poll fails, and none exceeds its limits. -/
def Polite (watch : Watch) : PollingEvent → Prop
  | .history fails => fails = false
  | .users userRows => userRows ≠ none ∧ ∀ poll rows,
      watch.polling.poll = some poll → poll.rows = some rows →
      WithinLimits poll.data rows
  | _ => True

/-- What is written is newer than the `since` of the next look at it, and the
user database has the users that are reported as active. -/
def Timely (watch : Watch) : PollingEvent → Prop
  | .complete index outcome => ∀ operation row,
      watch.polling.loop.pending[index]? = some operation →
      outcome.fails = false →
      rewritten watch.polling.loop.vars.store operation = some row →
      watch.polling.horizon < row.timestamp
  | .poll _ _ _ _ => ∀ address ∈ watch.changes,
      Shows watch.polling.loop.vars.store watch.polling.since address
  | .users userRows => ∀ poll rows found, watch.polling.poll = some poll →
      poll.rows = some rows → userRows = some found →
      ∀ row ∈ rows, row.active ≠ 0 →
        ∃ user ∈ found, user.uid = some (localPart row.address)
  | _ => True

section History

variable {env : Environment} {conf : Config} {outcome : UserOutcome}
variable {operation : UserOperation} {update : UserUpdate} {address : String}

theorem react_failed (late : operation.isRead = false)
    (fails : outcome.fails = true) (address : String) :
    historyOf (UserUpdate.react env conf outcome operation update).1.store
      address = historyOf update.store address := by
  cases operation with
  | getUsers => cases late
  | getHashes => cases late
  | getHistory => cases late
  | getMatrixUsers => cases late
  | updateHistory row => simp only [UserUpdate.react, fails, attempt, if_true]
  | insertHistory row => simp only [UserUpdate.react, fails, attempt, if_true]
  | activateHashes matrixAddress =>
      unfold historyOf
      rw [react_activate_history]
  | hash task =>
      unfold historyOf
      rw [react_hash_history]
  | getActive selected timestamp =>
      simp only [UserUpdate.react]
      split
      · rfl
      · rfl
      · rfl
  | deactivateHistory selected =>
      simp only [UserUpdate.react, fails, attempt, if_true]

/-- An operation keeps the history of an address or writes the row that it is
about to write. -/
theorem react_history_cases (env : Environment) (conf : Config)
    (outcome : UserOutcome) (operation : UserOperation) (update : UserUpdate)
    (address : String) :
    historyOf (UserUpdate.react env conf outcome operation update).1.store
        address = historyOf update.store address ∨
    (operation.address? = some address ∧ outcome.fails = false ∧
      ∃ row, rewritten update.store operation = some row ∧
        historyOf (UserUpdate.react env conf outcome operation
          update).1.store address = some row) := by
  cases hread : operation.isRead with
  | true =>
      rw [react_read_store hread]
      exact .inl rfl
  | false =>
      cases hfails : outcome.fails with
      | true => exact .inl (react_failed hread hfails address)
      | false =>
          by_cases hon : operation.address? = some address
          · rw [react_historyOf hread hfails]
            cases operation with
            | updateHistory row =>
                cases hon
                dsimp only
                rw [if_pos rfl]
                cases hrow : historyOf update.store row.address with
                | none => exact .inl rfl
                | some old =>
                    by_cases hsame : old = row
                    · subst hsame
                      exact .inl rfl
                    · refine .inr ⟨rfl, rfl, row, ?_, rfl⟩
                      simp [rewritten, hrow, hsame]
            | insertHistory row =>
                cases hon
                dsimp only
                by_cases hnone : historyOf update.store row.address = none
                · rw [if_pos ⟨rfl, hnone⟩]
                  exact .inr ⟨rfl, rfl, row, if_pos hnone, rfl⟩
                · rw [if_neg fun h => hnone h.2]
                  exact .inl rfl
            | deactivateHistory selected =>
                cases hon
                dsimp only
                rw [if_pos rfl]
                cases hrow : historyOf update.store address with
                | none => exact .inl rfl
                | some old =>
                    by_cases hactive : old.active = 0
                    · left
                      rw [Option.map_some, ← hactive]
                    · refine .inr ⟨rfl, rfl, _, ?_, rfl⟩
                      simp only [rewritten, hrow, Option.bind_some]
                      exact if_pos hactive
            | _ => exact .inl rfl
          · exact .inl (react_historyOf_other hread hfails hon)

end History

/-! No change is missed. -/

/-- The poll that started last has found the address, or has reported it. -/
def Found (watch : Watch) (address : String) : Prop :=
  match watch.polling.poll with
  | none => watch.previous.reports address = true
  | some poll => ∃ rows, poll.rows = some rows ∧
      ∃ row ∈ rows, row.address = address

/-- The poll in progress reports the address, if the one before did not. -/
def Covered (watch : Watch) (poll : Poll) (address : String) : Prop :=
  watch.previous.reports address = true ∨
    match poll.rows with
    | none => Shows watch.polling.loop.vars.store poll.data.since address
    | some rows => ∃ row ∈ rows, row.address = address

structure Lossless (watch : Watch) : Prop where
  later : ∀ address, address ∈ watch.changes ∨ address ∈ watch.due →
    Shows watch.polling.loop.vars.store watch.polling.horizon address ∨
      Found watch address
  owed : ∀ poll, watch.polling.poll = some poll → ∀ address ∈ watch.owed,
    Covered watch poll address
  idle : watch.polling.poll = none → watch.owed = []
  missed : watch.missed = []

section Polls

variable {env : Environment} {conf : Config} {watch after : Watch}
variable {store : Store} {since : Nat}

theorem lossless_start (store : Store) (since : Nat) :
    Lossless (.start store since) where
  later := by
    rintro address (h | h)
    · cases h
    · cases h
  owed := by
    intro poll h
    cases h
  idle := fun _ => rfl
  missed := rfl

theorem Shows.frame {before : Store} {since : Int} {address : String}
    (shows_ : Shows before since address)
    (same : historyOf store address = historyOf before address ∨
      ∃ row, historyOf store address = some row ∧ since < row.timestamp) :
    Shows store since address := by
  rcases same with hsame | hwritten
  · obtain ⟨row, hrow, hlater⟩ := shows_
    exact ⟨row, hsame.trans hrow, hlater⟩
  · exact hwritten

theorem Lossless.updateUsers (lossless : Lossless watch)
    (stepped : watch.step env conf .updateUsers = some after) :
    Lossless after := by
  obtain ⟨⟨polling, reply⟩, hstep, rfl⟩ := Option.map_eq_some_iff.mp stepped
  simp only [Polling.step] at hstep
  split at hstep
  · cases hstep
    exact
      { later := lossless.later
        owed := lossless.owed
        idle := lossless.idle
        missed := lossless.missed }
  · cases hstep

theorem Lossless.complete (lossless : Lossless watch) {index : Nat}
    {outcome : UserOutcome} (timely : Timely watch (.complete index outcome))
    (stepped : watch.step env conf (.complete index outcome) = some after) :
    Lossless after := by
  obtain ⟨⟨polling, reply⟩, hstep, rfl⟩ := Option.map_eq_some_iff.mp stepped
  obtain ⟨loop, hloop, hpolling⟩ := Option.map_eq_some_iff.mp hstep
  cases hpolling
  obtain ⟨operation, hoperation, completes⟩ := Loop.complete_cases hloop
  have hframe : ∀ address,
      historyOf loop.vars.store address =
        historyOf watch.polling.loop.vars.store address ∨
      ∃ row, historyOf loop.vars.store address = some row ∧
        watch.polling.horizon < row.timestamp := by
    intro address
    rw [completes.vars]
    rcases react_history_cases env conf outcome operation
        watch.polling.loop.vars address with
      hsame | ⟨_, hhealthy, row, hrewritten, hrow⟩
    · exact .inl hsame
    · exact .inr ⟨row, hrow,
        timely operation row hoperation hhealthy hrewritten⟩
  -- an address that has just been changed shows the change
  have hchanged : ∀ address ∈ changedBy watch.polling.loop.vars.store
      loop.vars.store operation,
      Shows loop.vars.store watch.polling.horizon address := by
    intro address haddress
    obtain ⟨_, hdiffers⟩ := List.mem_filter.mp haddress
    rcases hframe address with hsame | hwritten
    · rw [hsame] at hdiffers
      simp at hdiffers
    · exact hwritten
  have hlater : ∀ address,
      address ∈ watch.changes ++ changedBy watch.polling.loop.vars.store
        loop.vars.store operation ∨ address ∈ watch.due →
      Shows loop.vars.store watch.polling.horizon address ∨
        Found watch address := by
    intro address h
    have hbefore : address ∈ watch.changes ∨ address ∈ watch.due →
        Shows loop.vars.store watch.polling.horizon address ∨
          Found watch address := by
      intro hmem
      exact (lossless.later address hmem).imp_left fun h =>
        h.frame (hframe address)
    rcases h with hchanges | hdue
    · rcases List.mem_append.mp hchanges with hold | hnew
      · exact hbefore (.inl hold)
      · exact .inl (hchanged address hnew)
    · exact hbefore (.inr hdue)
  have howed : ∀ poll, watch.polling.poll = some poll →
      ∀ address ∈ watch.owed, watch.previous.reports address = true ∨
        match poll.rows with
        | none => Shows loop.vars.store poll.data.since address
        | some rows => ∃ row ∈ rows, row.address = address := by
    intro poll hpoll address haddress
    refine (lossless.owed poll hpoll address haddress).imp_right ?_
    cases hrows : poll.rows with
    | none =>
        intro h
        refine h.frame ?_
        have hhorizon : watch.polling.horizon = poll.data.since := by
          simp only [Polling.horizon, hpoll, hrows]
        rw [← hhorizon]
        exact hframe address
    | some rows => exact fun h => h
  simp only [Watch.observe, Watch.settle, hoperation, Option.elim_some]
  split
  · refine ⟨?_, howed, lossless.idle, lossless.missed⟩
    intro address h
    refine hlater address ?_
    rcases h with hnone | hdue
    · cases hnone
    · exact (List.mem_append.mp hdue).symm
  · exact ⟨hlater, howed, lossless.idle, lossless.missed⟩

theorem Lossless.poll (lossless : Lossless watch) {timestamp : Nat}
    {fields : Option (List String)} {limit offset : Option Int}
    (timely : Timely watch (.poll timestamp fields limit offset))
    (stepped : watch.step env conf (.poll timestamp fields limit offset) =
      some after) : Lossless after := by
  obtain ⟨⟨polling, reply⟩, hstep, rfl⟩ := Option.map_eq_some_iff.mp stepped
  simp only [Polling.step] at hstep
  split at hstep
  · cases hstep
  · rename_i hidle
    cases hstep
    refine ⟨?_, ?_, fun h => absurd h (Option.some_ne_none _),
      lossless.missed⟩
    · rintro address (hchanges | hdue)
      · exact .inl (timely address hchanges)
      · cases hdue
    · intro poll hpoll address haddress
      cases hpoll
      have hhorizon : watch.polling.horizon = watch.polling.since := by
        simp only [Polling.horizon, hidle]
      rcases lossless.later address (.inr haddress) with hshows | hfound
      · rw [hhorizon] at hshows
        exact .inr hshows
      · simp only [Found, hidle] at hfound
        exact .inl hfound

theorem Lossless.history (lossless : Lossless watch)
    (stepped : watch.step env conf (.history false) = some after) :
    Lossless after := by
  obtain ⟨⟨polling, reply⟩, hstep, rfl⟩ := Option.map_eq_some_iff.mp stepped
  simp only [Polling.step] at hstep
  split at hstep
  · rename_i data timestamp hpoll
    have hhorizon : watch.polling.horizon = data.since := by
      simp only [Polling.horizon, hpoll]
    split at hstep
    · rename_i hnone
      rw [changedRows_healthy] at hnone
      cases hnone
    · rename_i rows hrows
      cases hstep
      have hmem : ∀ address,
          Shows watch.polling.loop.vars.store data.since address →
          ∃ row ∈ rows, row.address = address := by
        rintro address ⟨row, hrow, hlater⟩
        refine ⟨row, (mem_changedRows hrows).mpr
          ⟨List.mem_of_find?_eq_some hrow, hlater⟩, ?_⟩
        simpa using List.find?_some hrow
      refine ⟨?_, ?_, fun h => absurd h (Option.some_ne_none _),
        lossless.missed⟩
      · intro address h
        rcases lossless.later address h with hshows | hfound
        · rw [hhorizon] at hshows
          exact .inr ⟨rows, rfl, hmem address hshows⟩
        · simp only [Found, hpoll] at hfound
          obtain ⟨_, hnone, _⟩ := hfound
          cases hnone
      · intro poll hsome address haddress
        cases hsome
        exact (lossless.owed _ hpoll address haddress).imp_right
          (hmem address)
  · cases hstep

theorem Lossless.users (lossless : Lossless watch)
    {userRows : Option (List UserRow)} (polite : Polite watch (.users userRows))
    (timely : Timely watch (.users userRows))
    (stepped : watch.step env conf (.users userRows) = some after) :
    Lossless after := by
  obtain ⟨⟨polling, reply⟩, hstep, rfl⟩ := Option.map_eq_some_iff.mp stepped
  simp only [Polling.step] at hstep
  split at hstep
  · rename_i data timestamp rows hpoll
    obtain ⟨found, rfl⟩ := Option.ne_none_iff_exists'.mp polite.1
    obtain ⟨⟨new, deleted, hreply⟩, hreports⟩ := reports_diffReply timestamp
      (polite.2 _ rows hpoll rfl)
      (timely _ rows found hpoll rfl rfl)
    dsimp only at hstep
    cases hstep
    have hall : ∀ address, (∃ row ∈ rows, row.address = address) →
        (diffReply data timestamp rows found).reports address = true := by
      rintro address ⟨row, hrow, rfl⟩
      exact hreports row hrow
    have hhorizon : watch.polling.horizon = timestamp := by
      simp only [Polling.horizon, hpoll]
    refine ⟨?_, fun _ h => absurd h.symm (Option.some_ne_none _),
      fun _ => rfl, ?_⟩
    · intro address h
      rcases lossless.later address h with hshows | hfound
      · left
        rw [hhorizon] at hshows
        simp only [Watch.settle, Watch.observe, Polling.answer,
          Polling.horizon, hreply]
        exact hshows
      · right
        simp only [Found, hpoll] at hfound
        obtain ⟨_, hrows, hmem⟩ := hfound
        cases hrows
        exact hall address hmem
    · simp only [Watch.settle, Watch.observe]
      rw [lossless.missed, List.nil_append, List.filter_eq_nil_iff]
      intro address haddress
      rcases lossless.owed _ hpoll address haddress with hbefore | hmem
      · simp [hbefore]
      · simp [hall address hmem]
  · cases hstep

theorem Lossless.step (lossless : Lossless watch) {event : PollingEvent}
    (polite : Polite watch event) (timely : Timely watch event)
    (stepped : watch.step env conf event = some after) : Lossless after := by
  cases event with
  | updateUsers => exact lossless.updateUsers stepped
  | complete index outcome => exact lossless.complete timely stepped
  | poll timestamp fields limit offset => exact lossless.poll timely stepped
  | history fails =>
      cases polite
      exact lossless.history stepped
  | users userRows => exact lossless.users polite timely stepped

/-- When everything is written in time, no poll misses a change. -/
theorem polls_miss_nothing
    (reached : Reachable (Watch.step env conf)
      (fun watch event => Polite watch event ∧ Timely watch event)
      (.start store since) watch) : watch.missed = [] := by
  have hlossless : Lossless watch :=
    reached.invariant Lossless (lossless_start store since)
      fun _ _ _ lossless permitted stepped =>
        lossless.step permitted.1 permitted.2 stepped
  exact hlossless.missed

end Polls

/-! Polls of a directory with one user. -/

def politely (watch : Watch) : PollingEvent → Bool
  | .history fails => !fails
  | .users none => false
  | .users (some _) =>
      match watch.polling.poll with
      | some { data, timestamp := _, rows := some rows } =>
          data.offset.getD 0 == 0 &&
            decide (((rows.filter (·.active != 0)).length : Int) ≤
              data.limit.getD 30) &&
            decide (((rows.filter (·.active == 0)).length : Int) ≤
              data.limit.getD 30)
      | _ => true
  | _ => true

def inTime (watch : Watch) : PollingEvent → Bool
  | .complete index outcome =>
      outcome.fails || (watch.polling.loop.pending[index]?).all fun operation =>
        (rewritten watch.polling.loop.vars.store operation).all fun row =>
          decide (watch.polling.horizon < row.timestamp)
  | .poll _ _ _ _ =>
      watch.changes.all fun address =>
        (historyOf watch.polling.loop.vars.store address).any fun row =>
          decide ((watch.polling.since : Int) < row.timestamp)
  | .users (some found) =>
      match watch.polling.poll with
      | some { data := _, timestamp := _, rows := some rows } =>
          rows.all fun row => row.active == 0 ||
            found.any (·.uid == some (localPart row.address))
      | _ => true
  | _ => true

theorem polite_of_politely {watch : Watch} {event : PollingEvent}
    (h : politely watch event = true) : Polite watch event := by
  cases event with
  | history fails => simpa [politely, Polite] using h
  | users userRows =>
      cases userRows with
      | none => cases h
      | some found =>
          refine ⟨Option.some_ne_none found, ?_⟩
          rintro ⟨data, timestamp, _⟩ rows hpoll rfl
          simp only [politely, hpoll, Bool.and_eq_true, beq_iff_eq,
            decide_eq_true_eq] at h
          exact ⟨h.1.1, h.1.2, h.2⟩
  | _ => trivial

theorem timely_of_inTime {watch : Watch} {event : PollingEvent}
    (h : inTime watch event = true) : Timely watch event := by
  cases event with
  | complete index outcome =>
      intro operation row hoperation hhealthy hrewritten
      simpa [inTime, hhealthy, hoperation, hrewritten] using h
  | poll timestamp fields limit offset =>
      intro address haddress
      obtain ⟨row, hrow, hlater⟩ := (Option.any_eq_true _ _).mp
        (List.all_eq_true.mp h address haddress)
      exact ⟨row, hrow, of_decide_eq_true hlater⟩
  | users userRows =>
      rintro ⟨data, timestamp, _⟩ rows found hpoll rfl rfl row hrow hactive
      simp only [inTime, hpoll] at h
      have hrow := List.all_eq_true.mp h row hrow
      simp only [Bool.or_eq_true, beq_iff_eq, List.any_eq_true] at hrow
      exact hrow.resolve_left hactive
  | _ => trivial

namespace Watch

/-- A step, with the selection from the history carried out. -/
def evaluate (env : Environment) (conf : Config) (watch : Watch) :
    PollingEvent → Option Watch
  | .history false =>
      match watch.polling.poll with
      | some { data, timestamp, rows := none } =>
          let rows := ((watch.polling.loop.vars.store .userHistory).filter
            fun row => decide (data.since < row.timestamp)).insertionSort
              fun row other => row.address ≤ other.address
          let polling :=
            { watch.polling with poll := some { data, timestamp, rows } }
          some { watch with polling }
      | _ => none
  | event => watch.step env conf event

theorem evaluate_eq (env : Environment) (conf : Config) :
    evaluate env conf = step env conf := by
  funext watch event
  cases event with
  | history fails =>
      cases fails with
      | true => rfl
      | false =>
          unfold evaluate step Polling.step
          dsimp only
          split
          · rename_i data timestamp hpoll
            simp only [changedRows_healthy, Option.map_some]
            rfl
          · rfl
  | _ => rfl

end Watch

/-- `updateUsers` from its start to its end, at one time. -/
def updateAt (now : Nat) (users : List UserRow) (operations : Nat) :
    List PollingEvent :=
  .updateUsers ::
    List.replicate operations (.complete 0 { users, now })

/-- A poll from its start to its end, at one time. -/
def pollAt (timestamp : Nat) (userRows : List UserRow) : List PollingEvent :=
  [.poll timestamp none none none, .history false, .users (some userRows)]

def watchEvents (permits : Watch → PollingEvent → Bool) (store : Store)
    (since : Nat) (events : List PollingEvent) : Option Watch :=
  runEvents (Watch.evaluate (.offline id) .sample) permits events
    (.start store since)

def storeBefore : Store :=
  Function.update emptyStore .keys (keyRows "matrixrocks" "")

/-- What is stored when alice has been active since a time. -/
def storeSince (timestamp : Nat) : Store :=
  let hash :=
    { hash := "alice@example.org email matrixrocks", pepper := "matrixrocks",
      type := "email", value := "@alice:example.org", active := some 1 }
  Function.update (Function.update storeBefore .hashes [hash]) .userHistory
    [⟨"@alice:example.org", 1, timestamp⟩]

def aliceInDirectory : UserRow where
  uid := some "alice"
  mail := some "alice@example.org"
  mobile := none

theorem polls_miss_nothing_alice :
    ∃ watch, Reachable (Watch.step (.offline id) .sample)
        (fun watch event => Polite watch event ∧ Timely watch event)
        (.start storeBefore 0) watch ∧
      watch.previous.reports "@alice:example.org" = true ∧ watch.missed = [] := by
  have hrun : (watchEvents (fun watch event => politely watch event &&
        inTime watch event) storeBefore 0
      (updateAt 10 [aliceInDirectory] 6 ++ pollAt 20 [aliceInDirectory])).map
        (fun watch => watch.previous.reports "@alice:example.org") =
      some true := by
    decide
  obtain ⟨watch, hwatch, hreports⟩ := Option.map_eq_some_iff.mp hrun
  rw [watchEvents, Watch.evaluate_eq] at hwatch
  have hreached : Reachable (Watch.step (.offline id) .sample)
      (fun watch event => Polite watch event ∧ Timely watch event)
      (.start storeBefore 0) watch := by
    apply reachable_of_runEvents _ hwatch
    intro watch event h
    obtain ⟨hpolite, htimely⟩ := Bool.and_eq_true_iff.mp h
    exact ⟨polite_of_politely hpolite, timely_of_inTime htimely⟩
  exact ⟨watch, hreached, hreports, polls_miss_nothing hreached⟩

/-- A deactivation that leaves the timestamp alone is never reported. -/
theorem poll_misses_deactivation :
    ¬ ∀ (env : Environment) (conf : Config) (store : Store) (since : Nat)
        (watch : Watch),
      Reachable (Watch.step env conf) Polite (.start store since) watch →
      watch.missed = [] := by
  intro complete
  have hrun : (watchEvents politely (storeSince 10) 20
      (updateAt 30 [] 5 ++ pollAt 40 [])).map Watch.missed =
      some ["@alice:example.org"] := by
    decide
  obtain ⟨watch, hwatch, hmissed⟩ := Option.map_eq_some_iff.mp hrun
  rw [watchEvents, Watch.evaluate_eq] at hwatch
  have hreached := reachable_of_runEvents
    (fun _ _ => polite_of_politely) hwatch
  rw [complete _ _ _ _ watch hreached] at hmissed
  cases hmissed

end TwakeKickstart.TomServer
