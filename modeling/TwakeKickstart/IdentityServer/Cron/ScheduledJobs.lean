import TwakeKickstart.IdentityServer.Cron.DirectoryAgreement
import TwakeKickstart.IdentityServer.Cron.HealthyRotation
import TwakeKickstart.IdentityServer.Cron.PepperRotation

namespace TwakeKickstart.IdentityServer

open Library Utils

/-! `_addUpdateHashesJob` schedules `updateHashes` and `updateUsers`, by default
for the same time: both are in progress on one database. -/

structure Jobs where
  rotation : RotationLoop
  update : UserLoop

inductive JobsEvent where
  | rotation (index : Nat) (outcome : Outcome)
  | update (index : Nat) (outcome : UserOutcome)

def UserLoop.withStore (loop : UserLoop) (store : Store) : UserLoop :=
  { loop with vars := { loop.vars with store } }

/-- Both jobs start when the cron line that they share is due. -/
def startJobs (conf : Config) (store : Store) (newPepper : String) : Jobs where
  rotation := startRotation store newPepper
  update := startUpdate conf store

/-- One operation of one job completes; what it writes, the other job sees. -/
def jobsStep (env : Environment) (conf : Config) (jobs : Jobs) :
    JobsEvent → Option Jobs
  | .rotation index outcome =>
      (jobs.rotation.complete (Rotation.react env conf) index outcome).map
        fun rotation =>
          { rotation, update := jobs.update.withStore rotation.vars.store }
  | .update index outcome =>
      (jobs.update.complete (UserUpdate.react env conf) index outcome).map
        fun update =>
          { rotation := jobs.rotation.withStore update.vars.store, update }

/-! What the two jobs work on. -/

structure CleanDirectory (conf : Config) (users : List UserRow) : Prop where
  valid : ∀ user ∈ users, ValidUid conf user
  uids : (users.map (·.uid)).Nodup
  addresses : ∀ user ∈ users, ∀ other ∈ users, ∀ field value same,
    user.Has field value → other.Has field same →
    field.format value = field.format same → user = other

/-- The hashes of the directory under the new pepper are not those under the
published one. -/
structure NewHashes (plan : RotationPlan) (start : Store) : Prop extends
    plan.FreshHashes start where
  current : ∀ user ∈ plan.rows, ∀ field value, user.Has field value →
    ∀ other ∈ plan.rows, ∀ kind same, other.Has kind same →
    plan.env.sha256 (addressText plan.pepper field value) ≠
      plan.env.sha256 (addressText plan.newPepper kind same)

/-- Neither the hashes nor the history know the user. -/
def IsNew (conf : Config) (start : Store) (user : UserRow) : Prop :=
  (∀ row ∈ start .hashes, some (localPart row.value) ≠ user.uid) ∧
  ∀ mxid, toMatrixId user.uid conf.serverName = .ok mxid →
    historyOf start mxid = none

/-- Every address is found under the published pepper, and every new user has
one row in the history. -/
structure JobsAgree (env : Environment) (conf : Config)
    (users : List UserRow) (start : Store) (after : Store) : Prop where
  hashed : ∃ pepper previous, after .keys = keyRows pepper previous ∧
    ∀ user ∈ users, ∀ mxid, toMatrixId user.uid conf.serverName = .ok mxid →
      ∀ field value, user.Has field value →
        addressRow env pepper mxid (some 1) field value ∈ after .hashes
  recorded : ∀ user ∈ users, IsNew conf start user → ∀ mxid,
    toMatrixId user.uid conf.serverName = .ok mxid →
    ((after .userHistory).filter (·.address == mxid)).length = 1

/-- No database failure, and a directory that does not change. -/
def Undisturbed (users : List UserRow) : JobsEvent → Prop
  | .rotation _ outcome =>
      outcome.fails = false ∧ outcome.users = users ∧ outcome.entries = none
  | .update _ outcome => Replies users none outcome

/-- No row has a new user. -/
def Unseen (conf : Config) (users : List UserRow) (start : Store)
    (rows : List HashRow) : Prop :=
  ∀ user ∈ users, IsNew conf start user →
    ∀ row ∈ rows, some (localPart row.value) ≠ user.uid

/-- `updateUsers` reads the hashes before those of a new user are stored. -/
def ReadsInTime (conf : Config) (users : List UserRow) (start : Store)
    (jobs : Jobs) : JobsEvent → Prop
  | .rotation _ _ => True
  | .update index _ =>
      jobs.update.pending[index]? = some .getHashes →
        Unseen conf users start (jobs.update.vars.store .hashes)

/-! `updateUsers` beside a rotation: whatever it hashes is in the directory, and
under one of the two peppers. -/

section Guests

/-- An insertion for an address of the directory. -/
def Inserts (plan : RotationPlan) (args : UpdateArgs) : Prop :=
  ∃ user ∈ plan.users, args ∈ userArgs plan.conf user

/-- The peppers that are or were published. -/
def Offers (plan : RotationPlan) (published : Bool) (value : String) : Prop :=
  value = plan.pepper ∨ value = plan.newPepper ∧ published = true

structure Guest (plan : RotationPlan) (published : Bool) (loop : UserLoop) :
    Prop where
  waiting : ∀ args ∈ loop.vars.workers.waiting, Inserts plan args
  tasks : ∀ task, .hash task ∈ loop.pending → Inserts plan task.args
  given : loop.vars.workers.pepper = "" ∨
    Offers plan published loop.vars.workers.pepper
  inserts : ∀ args value, .hash (.insert args value) ∈ loop.pending →
    Offers plan published value
  activations : ∀ address, .activateHashes address ∉ loop.pending

/-- What the rotation has done so far, as far as `updateUsers` can see. -/
structure Host (plan : RotationPlan) (published : Bool) (store : Store) :
    Prop where
  keys : ∃ previous, store .keys =
    keyRows (if published then plan.newPepper else plan.pepper) previous
  rows : published = true → ∀ args, Inserts plan args →
    args.row plan.env plan.newPepper ∈ store .hashes
  old : ∀ args, Inserts plan args →
    plan.Old (args.row plan.env plan.pepper)

/-- All that `updateUsers` does to the two tables of the rotation. -/
def Adds (plan : RotationPlan) (before after : Store) : Prop :=
  after .keys = before .keys ∧ (after .hashes = before .hashes ∨
    ∃ row, plan.Old row ∧ after .hashes = before .hashes ++ [row])

variable {plan : RotationPlan} {published : Bool}
variable {before after : UserLoop} {outcome : UserOutcome}
variable {operation : UserOperation} {rest : List UserOperation}
variable {task : HashOperation}

theorem adds_same (store : Store) : Adds plan store store := ⟨rfl, .inl rfl⟩

theorem Guest.work (guest : Guest plan published before)
    (host : Host plan published before.vars.store)
    (inserts : Inserts plan task.args)
    (offers : ∀ args value, task = .insert args value →
      Offers plan published value) :
    Adds plan before.vars.store (before.vars.workers.react plan.env false
      before.vars.store task).store ∧
    ((before.vars.workers.react plan.env false before.vars.store
        task).workers.pepper = "" ∨
      Offers plan published (before.vars.workers.react plan.env false
        before.vars.store task).workers.pepper) ∧
    ∀ args value, .insert args value ∈ (before.vars.workers.react plan.env
      false before.vars.store task).issued → Offers plan published value := by
  cases task with
  | getPepper args =>
      obtain ⟨previous, hkeys⟩ := host.keys
      have hoffers : Offers plan published
          (if published then plan.newPepper else plan.pepper) := by
        cases published with
        | true => exact .inr ⟨rfl, rfl⟩
        | false => exact .inl rfl
      simp only [Workers.react, attempt_pepper false hkeys,
        Bool.false_eq_true, if_false]
      refine ⟨adds_same _, .inr hoffers, ?_⟩
      intro other value h
      cases List.mem_singleton.mp h
      exact hoffers
  | insert args value =>
      obtain ⟨hpepper, hnext, _⟩ := Workers.react_insert plan.env false
        before.vars.workers before.vars.store args value
      refine ⟨?_, ?_, ?_⟩
      · rcases attempt_insertHash_healthy plan.env (args.row plan.env value)
          before.vars.store with ⟨_, hrefused⟩ | ⟨hfree, rows, hstored⟩
        · simp only [Workers.react, hrefused]
          exact adds_same _
        · simp only [Workers.react, hstored, Workers.release]
          refine ⟨Function.update_of_ne (by decide) _ _, .inr
            ⟨args.row plan.env value, ?_, Function.update_self _ _ _⟩⟩
          rcases offers args value rfl with rfl | ⟨rfl, hpublished⟩
          · exact host.old args inserts
          · exact absurd rfl (hfree _ (host.rows hpublished args inserts))
      · rw [hpepper]
        exact guest.given
      · intro other later h
        obtain ⟨next, _, hassign⟩ := hnext _ h
        unfold Workers.assign at hassign
        split at hassign
        · cases hassign
        · rename_i hnamed
          cases hassign
          exact guest.given.resolve_left hnamed

theorem Guest.hash (guest : Guest plan published before)
    (host : Host plan published before.vars.store)
    (completes : Loop.Completes (UserUpdate.react plan.env plan.conf) before
      outcome (.hash task) rest after)
    (healthy : outcome.fails = false) :
    Adds plan before.vars.store after.vars.store ∧
      Guest plan published after := by
  have hmem := completes.mem_pending
  have hinserts := guest.tasks task hmem
  obtain ⟨hadds, hgiven, hoffers⟩ := guest.work host hinserts (by
    intro args value htask
    exact guest.inserts args value (htask ▸ hmem))
  obtain ⟨hwaiting, hissued, _⟩ := Workers.react_owned plan.env false
    before.vars.workers before.vars.store task
  have hvars := completes.vars
  simp only [UserUpdate.react, healthy] at hvars
  have hpending : ∀ other ∈ after.pending, other ∈ before.pending ∨
      ∃ later ∈ (before.vars.workers.react plan.env false before.vars.store
        task).issued, other = .hash later := by
    intro other h
    rcases completes.mem_after h with ⟨_, hbefore⟩ | hnew
    · exact .inl hbefore
    · simp only [UserUpdate.react, healthy] at hnew
      obtain ⟨later, hlater, rfl⟩ := List.mem_map.mp hnew
      exact .inr ⟨later, hlater, rfl⟩
  rw [hvars]
  refine ⟨hadds, ?_, ?_, ?_, ?_, ?_⟩
  · rw [hvars]
    exact fun args hargs => guest.waiting args (hwaiting args hargs)
  · intro later h
    rcases hpending _ h with hbefore | ⟨new, hnew, hsame⟩
    · exact guest.tasks later hbefore
    · cases hsame
      rcases hissued later hnew with hown | hnext
      · rw [hown]
        exact hinserts
      · exact guest.waiting _ hnext
  · rw [hvars]
    exact hgiven
  · intro args value h
    rcases hpending _ h with hbefore | ⟨new, hnew, hsame⟩
    · exact guest.inserts args value hbefore
    · cases hsame
      exact hoffers args value hnew
  · intro address h
    rcases hpending _ h with hbefore | ⟨_, _, hsame⟩
    · exact guest.activations address hbefore
    · cases hsame

theorem Guest.history (guest : Guest plan published before)
    (completes : Loop.Completes (UserUpdate.react plan.env plan.conf) before
      outcome operation rest after)
    (history : operation.address? ≠ none) :
    Adds plan before.vars.store after.vars.store ∧
      Guest plan published after := by
  obtain ⟨htables, hworkers, hissued⟩ := react_history_frame plan.env plan.conf
    outcome before.vars history
  rw [← completes.vars] at htables hworkers
  have hpending : ∀ other ∈ after.pending, other.address? = none →
      other ∈ before.pending := by
    intro other h hnone
    rcases completes.mem_after h with ⟨_, hbefore⟩ | hnew
    · exact hbefore
    · exact absurd hnone (hissued other hnew)
  refine ⟨⟨htables _ (by decide), .inl (htables _ (by decide))⟩, ?_, ?_, ?_,
    ?_, ?_⟩
  · rw [hworkers]
    exact guest.waiting
  · exact fun later h => guest.tasks later (hpending _ h rfl)
  · rw [hworkers]
    exact guest.given
  · exact fun args value h => guest.inserts args value (hpending _ h rfl)
  · exact fun address h => guest.activations address (hpending _ h rfl)

theorem Collected.guest {seen : List HashRow → Prop}
    {history : List HistoryRow}
    (collected : Collected plan.conf plan.users none seen history
      before.pending before.vars) : Guest plan published before where
  waiting := by
    rw [collected.workers]
    exact fun _ h => absurd h List.not_mem_nil
  tasks := fun _ h => absurd (collected.reads _ h) Bool.false_ne_true
  given := by
    rw [collected.workers]
    exact .inl rfl
  inserts := fun _ _ h => absurd (collected.reads _ h) Bool.false_ne_true
  activations := fun _ h => absurd (collected.reads _ h) Bool.false_ne_true

theorem userArgs_hashedRow {conf : Config} {facts : Facts} {user : UserRow}
    (unavailable : conf.isMatrixDbAvailable = false) :
    userArgs conf (facts.hashedRow conf user) = userArgs conf user := by
  have hfields : userFields conf (facts.hashedRow conf user) =
      userFields conf user := by
    simp [userFields, Facts.hashedRow, unavailable]
  unfold userArgs
  rw [hfields]
  rfl

theorem userWrites_unavailable {conf : Config} {users : List UserRow}
    {entries : Option (List String)} {rows : List HashRow}
    {history : List HistoryRow} {now : Nat} {user : UserRow} {address : String}
    (unavailable : conf.isMatrixDbAvailable = false) :
    (Facts.gathered conf users entries rows history).userWrites conf now user
        address =
      if firstRow rows user.uid = none then
        [(Facts.gathered conf users entries rows history).writeHistory
          ⟨address, 1, now⟩]
      else [] := by
  unfold Facts.userWrites
  rw [position_gathered, isMatrixUser_gathered, activity_gathered]
  unfold isMatrixUid
  rw [unavailable]
  cases firstRow rows user.uid with
  | none => rfl
  | some row => rfl

theorem Launched.guest {rows : List HashRow} {history : List HistoryRow}
    {now : Nat} {store : Store}
    (launched : Launched plan.conf
      (Facts.gathered plan.conf plan.users none rows history) now store after)
    (valid : ∀ user ∈ plan.users, ValidUid plan.conf user)
    (unavailable : plan.conf.isMatrixDbAvailable = false) :
    Guest plan published after := by
  obtain ⟨data, tasks, hdata, _, hpool, hpending, _⟩ := launched.shape valid
  have hparams : ∀ args ∈ updateParams data, Inserts plan args := by
    intro args hargs
    obtain ⟨row, hrow, hargs⟩ := (mem_updateParams hdata args).mp hargs
    obtain ⟨user, huser, rfl⟩ := List.mem_map.mp (mem_of_lastWith hrow).1
    rw [userArgs_hashedRow unavailable] at hargs
    exact ⟨user, (List.mem_filter.mp huser).1, hargs⟩
  have hworkers : after.vars.workers.pepper = "" ∧
      (∀ args ∈ after.vars.workers.waiting, Inserts plan args) ∧
      ∀ task ∈ tasks, Inserts plan task.args ∧
        ∀ args value, task ≠ .insert args value := by
    split at hpool
    · obtain ⟨hworkers, htasks⟩ := Prod.mk.inj hpool
      rw [hworkers, htasks]
      refine ⟨rfl, ?_, ?_⟩
      · exact fun args h => hparams args (List.mem_of_mem_drop h)
      · intro task htask
        obtain ⟨args, hargs, rfl⟩ := List.mem_map.mp htask
        refine ⟨?_, ?_⟩
        · rw [Workers.args_assign]
          exact hparams args (List.mem_of_mem_take hargs)
        · intro other value h
          cases h
    · obtain ⟨hworkers, htasks⟩ := Prod.mk.inj hpool
      rw [hworkers, htasks]
      exact ⟨rfl, fun _ h => absurd h List.not_mem_nil,
        fun _ h => absurd h List.not_mem_nil⟩
  obtain ⟨hpepper, hwaiting, htasks⟩ := hworkers
  have hcases : ∀ operation ∈ after.pending,
      (∃ task ∈ tasks, operation = .hash task) ∨ operation.address? ≠ none := by
    intro operation h
    rw [hpending] at h
    rcases List.mem_append.mp h with hupdates | hgone
    · rcases List.mem_append.mp hupdates with hlaunched | htask
      · obtain ⟨user, _, mxid, _, hwrites⟩ := mem_launched hlaunched
        rw [userWrites_unavailable unavailable] at hwrites
        split at hwrites
        · rw [List.mem_singleton.mp hwrites, address_writeHistory]
          exact .inr (Option.some_ne_none mxid)
        · cases hwrites
      · obtain ⟨task, hmem, rfl⟩ := List.mem_map.mp htask
        exact .inl ⟨task, hmem, rfl⟩
    · obtain ⟨_, mxid, _, _, _, _, rfl⟩ :=
        Facts.scanKnown_sound plan.conf _ now hgone
      exact .inr (Option.some_ne_none mxid)
  refine ⟨hwaiting, ?_, .inl hpepper, ?_, ?_⟩
  · intro task h
    rcases hcases _ h with ⟨other, hother, hsame⟩ | hhistory
    · cases hsame
      exact (htasks task hother).1
    · exact absurd rfl hhistory
  · intro args value h
    rcases hcases _ h with ⟨other, hother, hsame⟩ | hhistory
    · cases hsame
      exact absurd rfl ((htasks _ hother).2 args value)
    · exact absurd rfl hhistory
  · intro address h
    rcases hcases _ h with ⟨other, hother, hsame⟩ | hhistory
    · cases hsame
    · exact absurd rfl hhistory

end Guests

/-! The history of the new users. -/

section Records

/-- The history of a new user is written, or about to be. -/
def Noted (conf : Config) (users : List UserRow) (start : Store)
    (loop : UserLoop) : Prop :=
  ∀ user ∈ users, IsNew conf start user → ∀ mxid,
    toMatrixId user.uid conf.serverName = .ok mxid →
    (historyOf loop.vars.store mxid).isSome = true ∨
      ∃ row, .insertHistory row ∈ loop.pending ∧ row.address = mxid

/-- How far `updateUsers` is. -/
inductive Enrolling (conf : Config) (users : List UserRow) (start : Store)
    (loop : UserLoop) : Prop
  | collecting
      (collected : Collected conf users none (Unseen conf users start)
        (start .userHistory) loop.pending loop.vars)
      (under : loop.pending ≠ [])
  | recording
      (late : ∀ operation ∈ loop.pending, operation.isRead = false)
      (recorded : Noted conf users start loop)

variable {env : Environment} {conf : Config} {users : List UserRow}
variable {start store : Store} {before after loop : UserLoop}
variable {outcome : UserOutcome} {operation : UserOperation}
variable {rest : List UserOperation} {rows : List HashRow} {now : Nat}

theorem Launched.recorded
    (launched : Launched conf
      (Facts.gathered conf users none rows (start .userHistory)) now store
      loop)
    (valid : ∀ user ∈ users, ValidUid conf user)
    (unavailable : conf.isMatrixDbAvailable = false)
    (unseen : Unseen conf users start rows) :
    Noted conf users start loop := by
  intro user huser hnew mxid hmxid
  obtain ⟨_, _, _, _, _, hpending, _⟩ := launched.shape valid
  have hunknown : firstRow rows user.uid = none := by
    rw [firstRow, List.find?_eq_none]
    intro row hrow
    simpa using unseen user huser hnew row hrow
  have hwrite : (Facts.gathered conf users none rows
      (start .userHistory)).writeHistory ⟨mxid, 1, now⟩ =
      .insertHistory ⟨mxid, 1, now⟩ := by
    have hcontains := contains_existing start mxid
    rw [hnew.2 mxid hmxid] at hcontains
    exact if_neg (by simpa [Facts.gathered] using hcontains)
  refine .inr ⟨⟨mxid, 1, now⟩, ?_, rfl⟩
  rw [hpending]
  refine List.mem_append_left _ (List.mem_append_left _ ?_)
  refine List.mem_flatMap.mpr ⟨user, huser, ?_⟩
  simp only [Facts.launched, hmxid]
  rw [userWrites_unavailable unavailable, if_pos hunknown, hwrite]
  exact List.mem_singleton_self _

theorem react_recorded (late : operation.isRead = false)
    (healthy : outcome.fails = false) {update : UserUpdate} {address : String}
    (recorded : (historyOf update.store address).isSome = true) :
    (historyOf (UserUpdate.react env conf outcome operation update).1.store
      address).isSome = true := by
  rw [react_historyOf late healthy]
  cases operation with
  | updateHistory row =>
      dsimp only
      split
      · rw [Option.isSome_map]
        exact recorded
      · exact recorded
  | insertHistory row =>
      dsimp only
      split
      · rfl
      · exact recorded
  | deactivateHistory selected =>
      dsimp only
      split
      · rw [Option.isSome_map]
        exact recorded
      · exact recorded
  | _ => exact recorded

theorem Noted.step (recorded : Noted conf users start before)
    (completes : Loop.Completes (UserUpdate.react env conf) before outcome
      operation rest after)
    (late : operation.isRead = false) (healthy : outcome.fails = false) :
    Noted conf users start after := by
  intro user huser hnew mxid hmxid
  rw [completes.vars]
  rcases recorded user huser hnew mxid hmxid with hsome | ⟨row, hrow, hsame⟩
  · exact .inl (react_recorded late healthy hsome)
  · rcases completes.mem_before hrow with htaken | hafter
    · left
      subst htaken hsame
      rw [react_historyOf late healthy]
      dsimp only
      split
      · rfl
      · rename_i hstored
        rw [Option.isSome_iff_ne_none]
        exact fun hnone => hstored ⟨rfl, hnone⟩
    · exact .inr ⟨row, hafter, hsame⟩

theorem Enrolling.step (enrolling : Enrolling conf users start before)
    (valid : ∀ user ∈ users, ValidUid conf user)
    (unavailable : conf.isMatrixDbAvailable = false)
    (completes : Loop.Completes (UserUpdate.react env conf) before outcome
      operation rest after)
    (replies : Replies users none outcome)
    (inTime : operation = .getHashes →
      Unseen conf users start (before.vars.store .hashes)) :
    Enrolling conf users start after := by
  cases enrolling with
  | collecting collected under =>
      rcases collected.step completes replies inTime with
        ⟨hcollected, hpending, hunder, _⟩ | ⟨rows, hunseen, hlaunched⟩
      · exact .collecting hcollected (hpending ▸ hunder)
      · exact .recording (fun _ => hlaunched.late)
          (hlaunched.recorded valid unavailable hunseen)
  | recording late recorded =>
      have hlate := late operation completes.mem_pending
      refine .recording ?_ (recorded.step completes hlate replies.healthy)
      intro other hother
      rcases completes.mem_after hother with ⟨_, hbefore⟩ | hnew
      · exact late other hbefore
      · exact (@react_late env conf operation hlate outcome before.vars).2
          other hnew

theorem Enrolling.frame (enrolling : Enrolling conf users start loop)
    (history : store .userHistory = loop.vars.store .userHistory) :
    Enrolling conf users start (UserLoop.withStore loop store) := by
  cases enrolling with
  | collecting collected under =>
      refine .collecting ?_ under
      exact { collected with history := history.trans collected.history }
  | recording late recorded =>
      refine .recording late ?_
      intro user huser hnew mxid hmxid
      have hsame : historyOf store mxid = historyOf loop.vars.store mxid := by
        unfold historyOf
        rw [history]
      change (historyOf store mxid).isSome = true ∨ _
      rw [hsame]
      exact recorded user huser hnew mxid hmxid

/-! Each address has one row. -/

def OneRowEach (rows : List HistoryRow) : Prop :=
  (rows.map (·.address)).Nodup

theorem oneRowEach_update {values : HistoryRow → HistoryRow}
    {selected : String} (env : Environment)
    (kept : ∀ row, row.address = selected → (values row).address = selected)
    (each : OneRowEach (store .userHistory)) :
    OneRowEach ((attempt env false
      (.update .userHistory values "address" (.str selected)) store).2
      .userHistory) := by
  have haddress : ∀ row : HistoryRow, ((fun row : HistoryRow => row.address) ∘
      fun row => if equals env.driver .userHistory ("address", .str selected)
        row = true then values row else row) row = row.address := by
    intro row
    dsimp only [Function.comp]
    split
    · rename_i hselected
      have hsame : row.address = selected := by
        simpa [equals, cell, Cell.same] using hselected
      rw [kept row hsame, hsame]
    · rfl
  unfold OneRowEach
  simp only [attempt, Bool.false_eq_true, if_false, execute,
    Function.update_self, updateRows, List.map_map]
  rw [List.map_congr_left fun row _ => haddress row]
  exact each

theorem oneRowEach_insert (env : Environment) (row : HistoryRow)
    (each : OneRowEach (store .userHistory)) :
    OneRowEach ((attempt env false (.insert .userHistory row) store).2
      .userHistory) := by
  have hconflicts : conflicts .userHistory (store .userHistory) row =
      (store .userHistory).any fun other => other.address == row.address := by
    simp only [conflicts, primaryKey, Option.any_some, cell, Cell.same]
  simp only [attempt, Bool.false_eq_true, if_false, execute, hconflicts]
  split
  · exact each
  · rename_i hfree
    unfold OneRowEach
    dsimp only
    rw [Function.update_self, List.map_append]
    refine List.Nodup.append each (List.nodup_singleton _) ?_
    intro address hold hlast
    obtain ⟨other, hother, rfl⟩ := List.mem_map.mp hold
    refine hfree (List.any_eq_true.mpr ⟨other, hother, ?_⟩)
    simpa using hlast

theorem react_oneRowEach (healthy : outcome.fails = false)
    {update : UserUpdate} (each : OneRowEach (update.store .userHistory)) :
    OneRowEach ((UserUpdate.react env conf outcome operation update).1.store
      .userHistory) := by
  cases operation with
  | updateHistory row =>
      simp only [UserUpdate.react, healthy]
      exact oneRowEach_update env (fun _ _ => rfl) each
  | insertHistory row =>
      simp only [UserUpdate.react, healthy]
      exact oneRowEach_insert env row each
  | deactivateHistory selected =>
      simp only [UserUpdate.react, healthy]
      exact oneRowEach_update env (fun _ h => h) each
  | activateHashes matrixAddress =>
      rw [react_activate_history]
      exact each
  | hash task =>
      rw [react_hash_history]
      exact each
  | getActive selected timestamp =>
      rw [(react_lookup env conf outcome selected timestamp update).1]
      exact each
  | _ =>
      rw [react_read_store rfl]
      exact each

theorem one_row_of_isSome (each : OneRowEach (store .userHistory))
    {address : String} (recorded : (historyOf store address).isSome = true) :
    ((store .userHistory).filter (·.address == address)).length = 1 := by
  have hcount : ((store .userHistory).filter
      (·.address == address)).length =
      ((store .userHistory).map (·.address)).count address := by
    rw [List.count, List.countP_map, List.countP_eq_length_filter]
    rfl
  rw [hcount]
  refine List.count_eq_one_of_mem each ?_
  obtain ⟨row, hrow⟩ := Option.isSome_iff_exists.mp recorded
  have hsame := List.find?_some hrow
  rw [beq_iff_eq] at hsame
  exact hsame ▸ List.mem_map_of_mem (List.mem_of_find?_eq_some hrow)

end Records

/-! Both jobs. -/

section Joint

variable {plan : RotationPlan} {start store : Store} {jobs : Jobs}
variable {before after : UserLoop} {outcome : UserOutcome}
variable {operation : UserOperation} {rest : List UserOperation}
variable {published : Bool} {args : UpdateArgs}

theorem survives_of_nodup {users : List UserRow} {user : UserRow}
    (distinct : (users.map (·.uid)).Nodup) (h : user ∈ users) :
    Survives users user := by
  obtain ⟨last, hlast, huid⟩ := exists_lastWith h
  have hmem := (mem_of_lastWith hlast).1
  have hsame : last = user :=
    List.inj_on_of_nodup_map distinct hmem h huid
  rw [Survives, hlast, hsame]

theorem mem_updateParams_iff {data : UpdatableFields}
    (clean : CleanDirectory plan.conf plan.users)
    (reduced : usersData plan.conf plan.users = .ok data) :
    args ∈ updateParams data ↔ Inserts plan args := by
  rw [mem_updateParams reduced]
  constructor
  · rintro ⟨row, hrow, hargs⟩
    exact ⟨row, (mem_of_lastWith hrow).1, hargs⟩
  · rintro ⟨user, huser, hargs⟩
    exact ⟨user, survives_of_nodup clean.uids huser, hargs⟩

theorem RotationPlan.rows_unavailable
    (unavailable : plan.conf.isMatrixDbAvailable = false) :
    plan.rows = plan.users := by
  simp [RotationPlan.rows, unavailable]

theorem Driven.host (driven : Driven plan plan.Old jobs.rotation)
    (clean : CleanDirectory plan.conf plan.users)
    (unavailable : plan.conf.isMatrixDbAvailable = false)
    (new : NewHashes plan start) :
    Host plan jobs.rotation.vars.published jobs.rotation.vars.store where
  keys := by
    obtain ⟨previous, hkeys, _⟩ := driven.keys
    exact ⟨previous, hkeys⟩
  rows := by
    intro hpublished args hargs
    obtain ⟨data, hdata, hstored, _, _⟩ :=
      driven.hashed (driven.publishes (.inr hpublished))
    rw [RotationPlan.rows_unavailable unavailable] at hdata
    exact hstored args ((mem_updateParams_iff clean hdata).mpr hargs)
  old := by
    rintro args ⟨user, huser, hargs⟩ other hother kind same hsame
    obtain ⟨_, field, value, _, hhas, rfl⟩ := mem_userArgs_iff.mp hargs
    rw [← RotationPlan.rows_unavailable unavailable] at huser
    exact new.current user huser field value hhas other hother kind same hsame

theorem Guest.step (guest : Guest plan published before)
    (host : Host plan published before.vars.store)
    (enrolling : Enrolling plan.conf plan.users start before)
    (valid : ∀ user ∈ plan.users, ValidUid plan.conf user)
    (unavailable : plan.conf.isMatrixDbAvailable = false)
    (completes : Loop.Completes (UserUpdate.react plan.env plan.conf) before
      outcome operation rest after)
    (replies : Replies plan.users none outcome)
    (inTime : operation = .getHashes →
      Unseen plan.conf plan.users start (before.vars.store .hashes)) :
    Adds plan before.vars.store after.vars.store ∧
      Guest plan published after := by
  have hread : operation.isRead = true →
      Adds plan before.vars.store after.vars.store ∧
        Guest plan published after := by
    intro hread
    have hstore : after.vars.store = before.vars.store := by
      rw [completes.vars, react_read_store hread]
    rw [hstore]
    refine ⟨adds_same _, ?_⟩
    cases enrolling with
    | collecting collected under =>
        rcases collected.step completes replies inTime with
          ⟨hcollected, _⟩ | ⟨rows, _, hlaunched⟩
        · exact hcollected.guest
        · exact hlaunched.guest valid unavailable
    | recording late _ =>
        have hlate := late operation completes.mem_pending
        rw [hread] at hlate
        cases hlate
  cases operation with
  | getUsers => exact hread rfl
  | getHashes => exact hread rfl
  | getHistory => exact hread rfl
  | getMatrixUsers => exact hread rfl
  | hash task => exact guest.hash host completes replies.healthy
  | activateHashes address =>
      exact absurd completes.mem_pending (guest.activations address)
  | updateHistory row =>
      exact guest.history completes (Option.some_ne_none _)
  | insertHistory row =>
      exact guest.history completes (Option.some_ne_none _)
  | getActive address timestamp =>
      exact guest.history completes (Option.some_ne_none _)
  | deactivateHistory address =>
      exact guest.history completes (Option.some_ne_none _)

/-- What holds of both jobs in every state of a run. -/
structure Together (plan : RotationPlan) (start : Store) (jobs : Jobs) :
    Prop where
  shared : jobs.rotation.vars.store = jobs.update.vars.store
  driven : Driven plan plan.Old jobs.rotation
  guest : Guest plan jobs.rotation.vars.published jobs.update
  enrolling : Enrolling plan.conf plan.users start jobs.update
  each : OneRowEach (jobs.update.vars.store .userHistory)

theorem together_start (new : NewHashes plan start)
    (keys : start .keys = keyRows plan.pepper plan.previous)
    (each : OneRowEach (start .userHistory)) :
    Together plan start (startJobs plan.conf start plan.newPepper) where
  shared := rfl
  driven := driven_start keys new.stored
  guest := (collected_start plan.conf plan.users none start
    (Unseen plan.conf plan.users start)).guest
  enrolling := .collecting (collected_start plan.conf plan.users none start _)
    (by simp [startJobs, startUpdate])
  each := each

theorem Together.rotation (together : Together plan start jobs)
    (draws : plan.Draws) {outcome : Outcome} {operation : RotationOperation}
    {rest : List RotationOperation} {next : RotationLoop}
    (completes : Loop.Completes (Rotation.react plan.env plan.conf)
      jobs.rotation outcome operation rest next)
    (replies : plan.Replies outcome) :
    Together plan start
      { rotation := next,
        update := jobs.update.withStore next.vars.store } := by
  obtain ⟨hhistory, hpublished⟩ := Rotation.react_frame plan.env plan.conf
    outcome operation jobs.rotation.vars
  rw [← completes.vars] at hhistory hpublished
  rw [together.shared] at hhistory
  have hguest := together.guest
  have hoffers : ∀ value, Offers plan jobs.rotation.vars.published value →
      Offers plan next.vars.published value := by
    rintro value (hold | ⟨hnew, hdone⟩)
    · exact .inl hold
    · exact .inr ⟨hnew, hpublished hdone⟩
  refine ⟨rfl, together.driven.step draws replies completes, ?_,
    together.enrolling.frame hhistory, ?_⟩
  · exact
      { waiting := hguest.waiting
        tasks := hguest.tasks
        given := hguest.given.imp_right (hoffers _)
        inserts := fun args value h => hoffers _ (hguest.inserts args value h)
        activations := hguest.activations }
  · change OneRowEach (next.vars.store .userHistory)
    rw [hhistory]
    exact together.each

theorem Together.update (together : Together plan start jobs)
    (clean : CleanDirectory plan.conf plan.users)
    (unavailable : plan.conf.isMatrixDbAvailable = false)
    (new : NewHashes plan start) {next : UserLoop}
    (completes : Loop.Completes (UserUpdate.react plan.env plan.conf)
      jobs.update outcome operation rest next)
    (replies : Replies plan.users none outcome)
    (inTime : operation = .getHashes →
      Unseen plan.conf plan.users start (jobs.update.vars.store .hashes)) :
    Together plan start
      { rotation := jobs.rotation.withStore next.vars.store,
        update := next } := by
  have hhost := together.driven.host clean unavailable new
  rw [together.shared] at hhost
  obtain ⟨⟨hkeys, hrows⟩, hguest⟩ := together.guest.step hhost
    together.enrolling clean.valid unavailable completes replies inTime
  rw [← together.shared] at hkeys hrows
  refine ⟨rfl, together.driven.frame new.draws hkeys ?_ ?_, hguest,
    together.enrolling.step clean.valid unavailable completes replies inTime,
    ?_⟩
  · intro row hrow _
    rcases hrows with hsame | ⟨added, _, hadded⟩
    · rw [hsame]
      exact hrow
    · rw [hadded]
      exact List.mem_append_left _ hrow
  · intro row hrow
    rcases hrows with hsame | ⟨added, hold, hadded⟩
    · exact .inl (hsame ▸ hrow)
    · rw [hadded] at hrow
      rcases List.mem_append.mp hrow with hbefore | hnew
      · exact .inl hbefore
      · rw [List.mem_singleton.mp hnew]
        exact .inr hold
  · rw [completes.vars]
    exact react_oneRowEach replies.healthy together.each

theorem Together.step (together : Together plan start jobs)
    (clean : CleanDirectory plan.conf plan.users)
    (entries : plan.entries = none)
    (unavailable : plan.conf.isMatrixDbAvailable = false)
    (new : NewHashes plan start) {event : JobsEvent} {next : Jobs}
    (undisturbed : Undisturbed plan.users event)
    (inTime : ReadsInTime plan.conf plan.users start jobs event)
    (stepped : jobsStep plan.env plan.conf jobs event = some next) :
    Together plan start next := by
  cases event with
  | rotation index outcome =>
      obtain ⟨loop, hloop, rfl⟩ := Option.map_eq_some_iff.mp stepped
      obtain ⟨operation, _, completes⟩ := Loop.complete_cases hloop
      obtain ⟨hhealthy, husers, hentries⟩ := undisturbed
      exact together.rotation new.draws completes
        ⟨hhealthy, husers, hentries.trans entries.symm⟩
  | update index outcome =>
      obtain ⟨loop, hloop, rfl⟩ := Option.map_eq_some_iff.mp stepped
      obtain ⟨operation, hoperation, completes⟩ := Loop.complete_cases hloop
      refine together.update clean unavailable new completes undisturbed ?_
      rintro rfl
      exact inTime hoperation

theorem Together.publishes (together : Together plan start jobs)
    (clean : CleanDirectory plan.conf plan.users)
    (unavailable : plan.conf.isMatrixDbAvailable = false)
    (new : NewHashes plan start) (ended : jobs.rotation.pending = []) :
    jobs.rotation.vars.published = true := by
  have hrows := RotationPlan.rows_unavailable unavailable
  rw [← Bool.not_eq_false]
  intro hnone
  rcases together.driven.ended ended hnone with
    ⟨row, hrow, hinvalid⟩ | ⟨data, hdata, hconflict⟩
  · rw [hrows] at hrow
    exact hinvalid (clean.valid row hrow)
  · rcases hconflict with ⟨args, hargs, row, hold, hsame⟩ | htwice
    · exact hold.ne_digest hdata hargs hsame
    · refine htwice ((new.nodup_iff hdata).mpr ?_)
      rw [hrows]
      intro user other huser hother
      exact clean.addresses user (mem_of_lastWith huser).1 other
        (mem_of_lastWith hother).1

theorem Together.hashed (together : Together plan start jobs)
    (clean : CleanDirectory plan.conf plan.users)
    (unavailable : plan.conf.isMatrixDbAvailable = false)
    (new : NewHashes plan start) (ended : jobs.rotation.pending = []) :
    ∃ previous,
      jobs.update.vars.store .keys = keyRows plan.newPepper previous ∧
      ∀ user ∈ plan.users, ∀ mxid,
        toMatrixId user.uid plan.conf.serverName = .ok mxid →
        ∀ field value, user.Has field value →
          addressRow plan.env plan.newPepper mxid (some 1) field value ∈
            jobs.update.vars.store .hashes := by
  have hhost := together.driven.host clean unavailable new
  rw [together.shared, together.publishes clean unavailable new ended]
    at hhost
  obtain ⟨previous, hkeys⟩ := hhost.keys
  refine ⟨previous, hkeys, ?_⟩
  intro user huser mxid hmxid field value hhas
  have hactive : (userFields plan.conf user).active = some 1 := by
    unfold userFields
    rw [unavailable]
    rfl
  have hargs : addressArgs mxid (some 1) field value ∈
      userArgs plan.conf user := by
    rw [mem_userArgs_iff, hactive]
    exact ⟨mxid, field, value, hmxid, hhas, rfl⟩
  have hrow := hhost.rows rfl _ ⟨user, huser, hargs⟩
  rw [row_addressArgs] at hrow
  exact hrow

theorem Together.recorded (together : Together plan start jobs)
    (ended : jobs.update.pending = []) {user : UserRow}
    (huser : user ∈ plan.users) (new : IsNew plan.conf start user)
    {mxid : String}
    (named : toMatrixId user.uid plan.conf.serverName = .ok mxid) :
    ((jobs.update.vars.store .userHistory).filter
      (·.address == mxid)).length = 1 := by
  cases together.enrolling with
  | collecting _ under => exact absurd ended under
  | recording _ recorded =>
      refine one_row_of_isSome together.each ?_
      rcases recorded user huser new mxid named with hsome | ⟨row, hrow, _⟩
      · exact hsome
      · rw [ended] at hrow
        cases hrow

end Joint

/-- Where `updateUsers` reads the hashes before those of a new user are stored,
the two jobs can be interleaved in any way. -/
theorem jobs_agree {plan : RotationPlan} {start : Store} {jobs : Jobs}
    (clean : CleanDirectory plan.conf plan.users)
    (entries : plan.entries = none)
    (unavailable : plan.conf.isMatrixDbAvailable = false)
    (keys : start .keys = keyRows plan.pepper plan.previous)
    (each : OneRowEach (start .userHistory)) (new : NewHashes plan start)
    (reached : Reachable (jobsStep plan.env plan.conf)
      (fun jobs event => Undisturbed plan.users event ∧
        ReadsInTime plan.conf plan.users start jobs event)
      (startJobs plan.conf start plan.newPepper) jobs)
    (ended : jobs.rotation.pending = [] ∧ jobs.update.pending = []) :
    JobsAgree plan.env plan.conf plan.users start
      jobs.update.vars.store := by
  have htogether : Together plan start jobs := by
    refine reached.invariant (Together plan start)
      (together_start new keys each) ?_
    rintro before event after htogether ⟨hundisturbed, hinTime⟩ hstep
    exact htogether.step clean entries unavailable new hundisturbed hinTime
      hstep
  refine ⟨?_, fun user huser hnew mxid hmxid =>
    htogether.recorded ended.2 huser hnew hmxid⟩
  obtain ⟨previous, hkeys, hrows⟩ :=
    htogether.hashed clean unavailable new ended.1
  exact ⟨plan.newPepper, previous, hkeys, hrows⟩

/-! A directory with one new user. -/

def alicePlan : RotationPlan where
  env := .offline id
  conf := .sample
  users := [directoryUser]
  entries := none
  pepper := pepperA
  previous := ""
  newPepper := pepperB

/-- What the first rotation leaves, of a directory that was empty. -/
def rotatedStore : Store :=
  Function.update emptyStore .keys (keyRows pepperA "")

theorem has_directoryUser {field : Field} {value : String}
    (h : directoryUser.Has field value) :
    field = .email ∧ value = "alice@example.org" := by
  cases field with
  | phone => cases h.1
  | email =>
      cases h.1
      exact ⟨rfl, rfl⟩

theorem toMatrixId_directoryUser :
    toMatrixId directoryUser.uid Config.sample.serverName =
      .ok "@alice:example.org" := by
  decide

theorem clean_alicePlan : CleanDirectory alicePlan.conf alicePlan.users where
  valid := by
    intro user huser
    rw [List.mem_singleton.mp huser]
    exact ⟨_, toMatrixId_directoryUser⟩
  uids := List.nodup_singleton _
  addresses := by
    intro user huser other hother _ _ _ _ _ _
    rw [List.mem_singleton.mp huser, List.mem_singleton.mp hother]

theorem newHashes_alicePlan : NewHashes alicePlan rotatedStore where
  draws := ⟨by decide, by decide, by decide⟩
  stored := fun _ h => absurd h List.not_mem_nil
  current := by
    intro user huser field value hhas other hother kind same hsame
    rw [List.mem_singleton.mp huser] at hhas
    rw [List.mem_singleton.mp hother] at hsame
    obtain ⟨rfl, rfl⟩ := has_directoryUser hhas
    obtain ⟨rfl, rfl⟩ := has_directoryUser hsame
    decide
  distinct := by
    intro user huser field value hhas other hother kind same hsame _
    rw [List.mem_singleton.mp huser] at hhas
    rw [List.mem_singleton.mp hother] at hsame
    obtain ⟨rfl, rfl⟩ := has_directoryUser hhas
    obtain ⟨rfl, rfl⟩ := has_directoryUser hsame
    rfl

/-- An operation of either job that succeeds. -/
def succeeds (ofUpdate : Bool) : JobsEvent :=
  if ofUpdate then .update 0 (healthyOutcome [directoryUser] none)
  else .rotation 0 { users := [directoryUser] }

def undisturbed : JobsEvent → Bool
  | .rotation _ outcome => !outcome.fails &&
      outcome.users == [directoryUser] && outcome.entries == none
  | .update _ outcome => !outcome.fails &&
      outcome.users == [directoryUser] && outcome.entries == none

theorem undisturbed_iff {event : JobsEvent} (h : undisturbed event = true) :
    Undisturbed [directoryUser] event := by
  cases event with
  | rotation index outcome =>
      simp only [undisturbed, Bool.and_eq_true, Bool.not_eq_true',
        beq_iff_eq] at h
      exact ⟨h.1.1, h.1.2, h.2⟩
  | update index outcome =>
      simp only [undisturbed, Bool.and_eq_true, Bool.not_eq_true',
        beq_iff_eq] at h
      exact ⟨h.1.1, h.1.2, h.2⟩

def readsInTime (jobs : Jobs) : JobsEvent → Bool
  | .rotation _ _ => true
  | .update index _ => jobs.update.pending[index]? != some .getHashes ||
      (jobs.update.vars.store .hashes).isEmpty

structure JobsSummary where
  ended : Bool
  hashes : List String
  history : List HistoryRow
  deriving DecidableEq

def jobsSummary (jobs : Jobs) : JobsSummary where
  ended := jobs.rotation.pending.isEmpty && jobs.update.pending.isEmpty
  hashes := (jobs.update.vars.store .hashes).map (·.hash)
  history := jobs.update.vars.store .userHistory

def runJobs (permits : Jobs → JobsEvent → Bool) (turns : List Bool) :
    Option Jobs :=
  runEvents (jobsStep (.offline id) .sample) permits (turns.map succeeds)
    (startJobs .sample rotatedStore pepperB)

theorem jobs_agree_alice :
    ∃ jobs, Reachable (jobsStep alicePlan.env alicePlan.conf)
        (fun jobs event => Undisturbed alicePlan.users event ∧
          ReadsInTime alicePlan.conf alicePlan.users rotatedStore jobs event)
        (startJobs alicePlan.conf rotatedStore alicePlan.newPepper) jobs ∧
      jobsSummary jobs =
        ⟨true, ["alice@example.org email " ++ pepperA,
          "alice@example.org email " ++ pepperB],
          [⟨"@alice:example.org", 1, 0⟩]⟩ ∧
      JobsAgree alicePlan.env alicePlan.conf alicePlan.users rotatedStore
        jobs.update.vars.store := by
  have hrun : (runJobs (fun jobs event => undisturbed event &&
      readsInTime jobs event) [true, true, false, false, false, false, true,
        true, true, true, false, false]).map jobsSummary =
      some ⟨true, ["alice@example.org email " ++ pepperA,
          "alice@example.org email " ++ pepperB],
          [⟨"@alice:example.org", 1, 0⟩]⟩ := by
    decide
  obtain ⟨jobs, hjobs, hsummary⟩ := Option.map_eq_some_iff.mp hrun
  have hended : jobs.rotation.pending = [] ∧ jobs.update.pending = [] := by
    simp only [jobsSummary, JobsSummary.mk.injEq, Bool.and_eq_true,
      List.isEmpty_iff] at hsummary
    exact hsummary.1
  have hreached : Reachable (jobsStep alicePlan.env alicePlan.conf)
      (fun jobs event => Undisturbed alicePlan.users event ∧
        ReadsInTime alicePlan.conf alicePlan.users rotatedStore jobs event)
      (startJobs alicePlan.conf rotatedStore alicePlan.newPepper) jobs := by
    refine reachable_of_runEvents ?_ hjobs
    intro state event hpermits
    rw [Bool.and_eq_true] at hpermits
    refine ⟨undisturbed_iff hpermits.1, ?_⟩
    cases event with
    | rotation index outcome => trivial
    | update index outcome =>
        intro hreads user _ _ row hrow
        have hpermits := hpermits.2
        simp only [readsInTime, hreads, bne_self_eq_false, Bool.false_or,
          List.isEmpty_iff] at hpermits
        rw [hpermits] at hrow
        cases hrow
  exact ⟨jobs, hreached, hsummary, jobs_agree clean_alicePlan rfl rfl rfl
    List.nodup_nil newHashes_alicePlan hreached hended⟩

/-- When the rotation stores the hashes of a new user first, `updateUsers` takes
her for known: she has no history. -/
theorem new_user_unrecorded :
    ¬ ∀ (plan : RotationPlan) (start : Store) (jobs : Jobs),
      CleanDirectory plan.conf plan.users → plan.entries = none →
      plan.conf.isMatrixDbAvailable = false →
      plan.conf.isFederatedIdentityServiceSet = false →
      start .keys = keyRows plan.pepper plan.previous →
      OneRowEach (start .userHistory) → NewHashes plan start →
      Reachable (jobsStep plan.env plan.conf)
        (fun _ event => Undisturbed plan.users event)
        (startJobs plan.conf start plan.newPepper) jobs →
      jobs.rotation.pending = [] ∧ jobs.update.pending = [] →
      JobsAgree plan.env plan.conf plan.users start
        jobs.update.vars.store := by
  intro agree
  have hrun : (runJobs (fun _ event => undisturbed event) [false, false,
      false, false, false, false, true, true, true]).map jobsSummary =
      some ⟨true, ["alice@example.org email " ++ pepperB], []⟩ := by
    decide
  obtain ⟨jobs, hjobs, hsummary⟩ := Option.map_eq_some_iff.mp hrun
  simp only [jobsSummary, JobsSummary.mk.injEq, Bool.and_eq_true,
    List.isEmpty_iff] at hsummary
  obtain ⟨hended, _, hhistory⟩ := hsummary
  have hreached : Reachable (jobsStep alicePlan.env alicePlan.conf)
      (fun _ event => Undisturbed alicePlan.users event)
      (startJobs alicePlan.conf rotatedStore alicePlan.newPepper) jobs := by
    refine reachable_of_runEvents ?_ hjobs
    exact fun _ _ hpermits => undisturbed_iff hpermits
  have hagree := agree alicePlan rotatedStore jobs clean_alicePlan rfl rfl rfl
    rfl List.nodup_nil newHashes_alicePlan hreached hended
  have hnew : IsNew alicePlan.conf rotatedStore directoryUser :=
    ⟨fun _ h => absurd h List.not_mem_nil, fun _ _ => rfl⟩
  have hone := hagree.recorded directoryUser (List.mem_singleton_self _) hnew
    "@alice:example.org" toMatrixId_directoryUser
  rw [hhistory] at hone
  cases hone

end TwakeKickstart.IdentityServer
