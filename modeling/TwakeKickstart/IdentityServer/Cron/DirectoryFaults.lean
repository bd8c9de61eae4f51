import TwakeKickstart.IdentityServer.Cron.ScheduledJobs

namespace TwakeKickstart.IdentityServer

open Library Utils

/-! Whether an entry of the directory that cannot be hashed keeps the other
entries from being hashed. -/

/-- No other entry has one of the addresses. -/
def UniqueAddresses (rows : List UserRow) (row : UserRow) : Prop :=
  ∀ other ∈ rows.erase row, ∀ field value, row.Has field value →
    ¬ other.Has field value

/-- Every address of the entry is found under the pepper. -/
def Hashed (env : Environment) (conf : Config) (pepper : String)
    (store : Store) (row : UserRow) : Prop :=
  ∀ mxid, toMatrixId row.uid conf.serverName = .ok mxid →
    ∀ field value, row.Has field value → ∃ stored ∈ store .hashes,
      stored.hash = env.sha256 (addressText pepper field value) ∧
      stored.pepper = pepper ∧ stored.value = mxid

/-! `updateHashes` -/

namespace RotationPlan

variable (plan : RotationPlan)

/-- The entry is among those that are hashed. -/
def Hashes (user : UserRow) : Prop :=
  ∃ row ∈ plan.rows, row.uid = user.uid ∧
    ∀ field, row.address field = user.address field

/-- The new pepper is published, and the entries that are hashed have their
hashes under it. -/
structure Serves (store : Store) : Prop where
  published : ∃ previous, store .keys = keyRows plan.newPepper previous
  hashed : ∀ user ∈ plan.users, plan.Hashes user → ValidUid plan.conf user →
    UniqueAddresses plan.users user →
    Hashed plan.env plan.conf plan.newPepper store user

/-- Every `uid` is valid, the last rows of the users share no address, and
those are the addresses of all entries with unique addresses. -/
structure Tolerates : Prop where
  valid : ∀ row ∈ plan.rows, ValidUid plan.conf row
  alone : ∀ user other, Survives plan.rows user → Survives plan.rows other →
    ∀ field value same, user.Has field value → other.Has field same →
    field.format value = field.format same → user = other
  last : ∀ user ∈ plan.users, plan.Hashes user →
    UniqueAddresses plan.users user → ∀ field value, user.Has field value →
    ∃ last same, lastWith plan.rows user.uid = some last ∧
      last.Has field same ∧ field.format same = field.format value

end RotationPlan

section Rotations

variable {plan : RotationPlan} {start : Store} {final : RotationLoop}

/-- A rotation publishes exactly when it meets no invalid `uid` and no address
twice. -/
theorem rotation_published_iff
    (run : HealthyRun plan (startRotation start plan.newPepper) final)
    (ended : final.pending = [])
    (keys : start .keys = keyRows plan.pepper plan.previous)
    (fresh : plan.FreshHashes start) :
    final.vars.published = true ↔
      (∀ row ∈ plan.rows, ValidUid plan.conf row) ∧
      ∀ user other, Survives plan.rows user → Survives plan.rows other →
        ∀ field value same, user.Has field value → other.Has field same →
        field.format value = field.format same → user = other := by
  have hdriven := run.driven fresh.draws keys fresh.stored
  constructor
  · intro hpublished
    obtain ⟨data, hdata, _, _, hnodup⟩ :=
      hdriven.hashed (hdriven.publishes (.inr hpublished))
    exact ⟨(usersData_ok_iff plan.conf plan.rows).mp ⟨data, hdata⟩,
      (fresh.nodup_iff hdata).mp hnodup⟩
  · intro htolerated
    rw [← Bool.not_eq_false]
    intro hnone
    rcases hdriven.ended ended hnone with
      ⟨row, hrow, hinvalid⟩ | ⟨data, hdata, ⟨args, hargs, row, hold, hsame⟩ |
        htwice⟩
    · exact hinvalid (htolerated.1 row hrow)
    · exact hold.ne_digest hdata hargs hsame
    · exact htwice ((fresh.nodup_iff hdata).mpr htolerated.2)

theorem rotation_serves_iff
    (run : HealthyRun plan (startRotation start plan.newPepper) final)
    (ended : final.pending = [])
    (keys : start .keys = keyRows plan.pepper plan.previous)
    (fresh : plan.FreshHashes start) :
    plan.Serves final.vars.store ↔ plan.Tolerates := by
  have hdriven := run.driven fresh.draws keys fresh.stored
  have hiff := rotation_published_iff run ended keys fresh
  obtain ⟨previous, hkeys, _⟩ := hdriven.keys
  constructor
  · intro serves
    have hpublished : final.vars.published = true := by
      obtain ⟨other, hother⟩ := serves.published
      rw [← Bool.not_eq_false]
      intro hnone
      rw [hnone, hother] at hkeys
      have hnew : plan.newPepper = plan.pepper := by
        simpa [keyRows] using (List.cons_eq_cons.mp hkeys).1
      exact fresh.draws.pepper hnew.symm
    obtain ⟨hvalid, halone⟩ := hiff.mp hpublished
    refine ⟨hvalid, halone, ?_⟩
    intro user huser hhashes hunique field value hhas
    obtain ⟨row, hrow, huid, haddress⟩ := hhashes
    obtain ⟨data, hdata, _, horigin, _⟩ :=
      hdriven.hashed (hdriven.publishes (.inr hpublished))
    have huserValid : ValidUid plan.conf user := by
      unfold ValidUid
      rw [← huid]
      exact hvalid row hrow
    have hrowHas : row.Has field value :=
      ⟨(haddress field).trans hhas.1, hhas.2⟩
    obtain ⟨mxid, hmxid⟩ := id huserValid
    obtain ⟨stored, hstored, hhash, _, hvalue⟩ :=
      serves.hashed user huser ⟨row, hrow, huid, haddress⟩ huserValid hunique
        mxid hmxid field value hhas
    rcases horigin stored hstored with hold | ⟨args, hargs, rfl⟩
    · exact absurd hhash (hold row hrow field value hrowHas)
    · obtain ⟨last, name, kind, same, hlast, hname, hsame, rfl⟩ :=
        (mem_updateParams_rows hdata).mp hargs
      have htext := fresh.distinct last (mem_of_lastWith hlast).1 kind same
        hsame row hrow field value hrowHas hhash
      obtain ⟨rfl, hformat⟩ := addressText_injective htext
      change name = mxid at hvalue
      have hlastUid := toMatrixId_injective (hvalue ▸ hname) hmxid
      rw [Survives, hlastUid] at hlast
      exact ⟨last, same, hlast, hsame, hformat⟩
  · intro tolerates
    have hpublished := hiff.mpr ⟨tolerates.valid, tolerates.alone⟩
    rw [hpublished] at hkeys
    refine ⟨⟨previous, hkeys⟩, ?_⟩
    intro user huser hhashes _ hunique mxid hmxid field value hhas
    obtain ⟨data, hdata, hstored, _, _⟩ :=
      hdriven.hashed (hdriven.publishes (.inr hpublished))
    obtain ⟨last, same, hfound, hsame, hformat⟩ :=
      tolerates.last user huser hhashes hunique field value hhas
    have huid := (mem_of_lastWith hfound).2
    have hargs := hstored _ ((mem_updateParams_rows hdata).mpr
      ⟨last, mxid, field, same, survives_of_lastWith hfound, huid ▸ hmxid,
        hsame, rfl⟩)
    refine ⟨_, hargs, ?_, rfl, rfl⟩
    rw [row_addressArgs]
    simp only [addressRow, addressText, hformat]

end Rotations

/-! `updateUsers` -/

def UserOperation.task? : UserOperation → Option HashOperation
  | hash task => some task
  | _ => none

def userTasks (pending : List UserOperation) : List HashOperation :=
  pending.filterMap UserOperation.task?

/-- What `updateUsers` finds before it writes anything. -/
def Facts.initial (conf : Config) (users : List UserRow)
    (entries : Option (List String)) (start : Store) : Facts :=
  Facts.gathered conf users entries (start .hashes) (start .userHistory)

/-- The entry is hashed as that of a new user. -/
def Enrols (conf : Config) (users : List UserRow)
    (entries : Option (List String)) (start : Store) (user : UserRow) : Prop :=
  (Facts.initial conf users entries start).enrols conf user = true

/-- The insertions for the new users, in their order. -/
def newParams (conf : Config) (users : List UserRow)
    (entries : Option (List String)) (start : Store) : List UpdateArgs :=
  match usersData conf
      ((Facts.initial conf users entries start).enrolled conf users) with
  | .error _ => []
  | .ok data => updateParams data

def UpdateServes (env : Environment) (conf : Config) (users : List UserRow)
    (entries : Option (List String)) (pepper : String)
    (start after : Store) : Prop :=
  ∀ user ∈ users, ValidUid conf user → Enrols conf users entries start user →
    UniqueAddresses users user → Hashed env conf pepper after user

/-- The insertion is the only one of its hash, and is reached while a worker is
left. -/
structure Reached (env : Environment) (pepper : String)
    (params : List UpdateArgs) (stored : List String) (args : UpdateArgs) :
    Prop where
  listed : args ∈ params
  free : args.digest env pepper ∉ stored
  alone : ∀ other ∈ params,
    other.digest env pepper = args.digest env pepper → other = args
  early : ∀ front back, params = front ++ args :: back →
    refusals stored (front.map (·.digest env pepper)) < jobs

/-- Where a new user with unique addresses is to be served, every `uid` is
valid, and each address is among the insertions that are reached. -/
def UpdateTolerates (env : Environment) (conf : Config) (users : List UserRow)
    (entries : Option (List String)) (pepper : String) (start : Store) :
    Prop :=
  ∀ user ∈ users, Enrols conf users entries start user →
    UniqueAddresses users user → ∀ mxid,
    toMatrixId user.uid conf.serverName = .ok mxid →
    ∀ field value, user.Has field value →
    (∀ other ∈ users, ValidUid conf other) ∧ ∃ args,
      Reached env pepper (newParams conf users entries start)
        ((start .hashes).map (·.hash)) args ∧
      args.matrixAddress = mxid ∧
      args.digest env pepper = env.sha256 (addressText pepper field value)

section Updates

variable {env : Environment} {conf : Config} {users : List UserRow}
variable {entries : Option (List String)} {pepper previous : String}
variable {start : Store} {before after final : UserLoop}
variable {outcome : UserOutcome} {operation : UserOperation}
variable {rest : List UserOperation} {params : List UpdateArgs}

/-- The row has a hash that was stored before the run. -/
def Stored (start : Store) (row : HashRow) : Prop :=
  ∃ old ∈ start .hashes, old.hash = row.hash

/-- The synchronous part has run, and the workers are at their tasks. -/
structure Pooled (env : Environment) (pepper : String)
    (params : List UpdateArgs) (start : Store) (loop : UserLoop) : Prop where
  late : ∀ operation ∈ loop.pending, operation.isRead = false
  account : ∃ done failed, Account env pepper params (Stored start)
    loop.vars.workers loop.vars.store (userTasks loop.pending) done failed
  keys : ∃ previous, loop.vars.store .keys = keyRows pepper previous
  activations : ∀ address, .activateHashes address ∈ loop.pending →
    ∀ args ∈ params, args.matrixAddress ≠ address

theorem userTasks_append (first second : List UserOperation) :
    userTasks (first ++ second) = userTasks first ++ userTasks second :=
  List.filterMap_append

theorem userTasks_hashes (tasks : List HashOperation) :
    userTasks (tasks.map .hash) = tasks := by
  unfold userTasks
  rw [List.filterMap_map]
  exact List.filterMap_some

theorem userTasks_none {pending : List UserOperation}
    (others : ∀ operation ∈ pending, operation.task? = none) :
    userTasks pending = [] :=
  List.filterMap_eq_nil_iff.mpr others

theorem userTasks_cons {task : Option HashOperation}
    (h : operation.task? = task) (pending : List UserOperation) :
    userTasks (operation :: pending) = task.toList ++ userTasks pending := by
  unfold userTasks
  rw [List.filterMap_cons, h]
  cases task with
  | none => rfl
  | some task => rfl

theorem task_userWrites {facts : Facts} {now : Nat} {user : UserRow}
    {address : String}
    (h : operation ∈ facts.userWrites conf now user address) :
    operation.task? = none := by
  rcases mem_userWrites h with rfl | rfl
  · rfl
  · unfold Facts.writeHistory
    split
    · rfl
    · rfl

theorem position_of_activates {facts : Facts} {now : Nat} {user : UserRow}
    {address mxid : String}
    (h : .activateHashes address ∈ facts.userWrites conf now user mxid) :
    address = mxid ∧ facts.position user.uid ≠ none := by
  unfold Facts.userWrites at h
  split at h
  · split at h
    · have hsame := List.mem_singleton.mp h
      have hnone := congrArg UserOperation.address? hsame
      rw [address_writeHistory] at hnone
      cases hnone
    · cases h
  · rename_i active hactive
    rw [hactive]
    split at h
    · rcases List.mem_cons.mp h with hsame | hlast
      · cases hsame
        exact ⟨rfl, Option.some_ne_none active⟩
      · have hnone := congrArg UserOperation.address?
          (List.mem_singleton.mp hlast)
        rw [address_writeHistory] at hnone
        cases hnone
    · cases h

theorem mem_newParams {args : UpdateArgs}
    (h : args ∈ newParams conf users entries start) :
    ∃ user ∈ users, Enrols conf users entries start user ∧
      toMatrixId user.uid conf.serverName = .ok args.matrixAddress := by
  unfold newParams at h
  split at h
  · cases h
  · rename_i data hdata
    obtain ⟨row, hrow, hargs⟩ := (mem_updateParams hdata args).mp h
    obtain ⟨user, huser, rfl⟩ := List.mem_map.mp (mem_of_lastWith hrow).1
    obtain ⟨hmem, henrols⟩ := List.mem_filter.mp huser
    obtain ⟨mxid, hmxid, hparams⟩ := mem_userArgs.mp hargs
    refine ⟨user, hmem, henrols, ?_⟩
    rw [address_of_mem hparams]
    exact hmxid

theorem Launched.pooled {now : Nat}
    (launched : Launched conf (Facts.initial conf users entries start) now
      start after)
    (valid : ∀ user ∈ users, ValidUid conf user)
    (keys : start .keys = keyRows pepper previous) :
    Pooled env pepper (newParams conf users entries start) start after := by
  obtain ⟨data, tasks, hdata, hstore, hpool, hpending, _⟩ :=
    launched.shape valid
  have hparams : newParams conf users entries start = updateParams data := by
    have hreduced : usersData conf ((Facts.initial conf users entries
        start).enrolled conf users) = .ok data := hdata
    simp only [newParams, hreduced]
  have htasks : userTasks after.pending = tasks := by
    rw [hpending, userTasks_append, userTasks_append, userTasks_hashes]
    have hlaunched : userTasks (users.flatMap ((Facts.initial conf users
        entries start).launched conf now)) = [] := by
      refine userTasks_none fun operation h => ?_
      obtain ⟨_, _, _, _, hwrites⟩ := mem_launched h
      exact task_userWrites hwrites
    have hgone : userTasks ((Facts.initial conf users entries
        start).scanKnown conf now (Facts.initial conf users entries
          start).known []).1 = [] := by
      refine userTasks_none fun operation h => ?_
      obtain ⟨_, _, _, _, _, _, rfl⟩ := Facts.scanKnown_sound conf _ now h
      rfl
    rw [hgone, List.append_nil]
    change userTasks (users.flatMap _) ++ tasks = tasks
    rw [hlaunched, List.nil_append]
  have hinitial : ∀ row ∈ start .hashes, Stored start row :=
    fun row hrow => ⟨row, hrow, rfl⟩
  refine ⟨fun _ => launched.late, ⟨[], [], ?_⟩, ⟨previous, hstore ▸ keys⟩, ?_⟩
  · rw [hparams, htasks, hstore]
    split at hpool
    · obtain ⟨hworkers, hnext⟩ := Prod.mk.inj hpool
      rw [hworkers, hnext]
      exact Account.start (updateParams data) (Stored start) "" (.inr rfl)
        (fun _ => ⟨previous, keys⟩) hinitial
    · rename_i hnone
      obtain ⟨hworkers, hnext⟩ := Prod.mk.inj hpool
      have henrolled : (Facts.initial conf users entries start).enrolled conf
          users = [] := by
        refine List.map_eq_nil_iff.mpr (List.filter_eq_nil_iff.mpr ?_)
        intro user huser henrols
        refine hnone (List.any_eq_true.mpr ⟨user, huser, ?_⟩)
        rw [Facts.enrols, Bool.and_eq_true] at henrols
        exact henrols.1
      have hempty : data = [] := by
        have hreduced : usersData conf ((Facts.initial conf users entries
          start).enrolled conf users) = .ok data := hdata
        rw [henrolled] at hreduced
        cases hreduced
        rfl
      rw [hworkers, hnext, hempty]
      exact Account.none env pepper hinitial ⟨rfl, rfl⟩ (.inr rfl)
  · intro address h args hargs hsame
    obtain ⟨user, huser, henrols, hmxid⟩ := mem_newParams hargs
    rw [hpending] at h
    have hknown : ∃ (other : UserRow) (mxid : String),
        toMatrixId other.uid conf.serverName = .ok mxid ∧ address = mxid ∧
        (Facts.initial conf users entries start).position other.uid ≠
          none := by
      rcases List.mem_append.mp h with hupdates | hgone
      · rcases List.mem_append.mp hupdates with hlaunched | htask
        · obtain ⟨other, _, mxid, hother, hwrites⟩ := mem_launched hlaunched
          obtain ⟨hsame, hposition⟩ := position_of_activates hwrites
          exact ⟨other, mxid, hother, hsame, hposition⟩
        · obtain ⟨_, _, hcase⟩ := List.mem_map.mp htask
          cases hcase
      · obtain ⟨_, _, _, _, _, _, hcase⟩ :=
          Facts.scanKnown_sound conf _ now hgone
        cases hcase
    obtain ⟨other, mxid, hother, rfl, hposition⟩ := hknown
    rw [hsame] at hmxid
    have huid := toMatrixId_injective hother hmxid
    rw [Enrols, Facts.enrols, Bool.and_eq_true, Facts.isNew] at henrols
    rw [huid] at hposition
    exact hposition (Option.isNone_iff_eq_none.mp henrols.1)

theorem Pooled.aside (pooled : Pooled env pepper params start before)
    (completes : Loop.Completes (UserUpdate.react env conf) before outcome
      operation rest after)
    (task : operation.task? = none)
    (issues : ∀ issued ∈ (UserUpdate.react env conf outcome operation
      before.vars).2, issued.address? ≠ none)
    (workers : after.vars.workers = before.vars.workers)
    (keys : after.vars.store .keys = before.vars.store .keys)
    (kept : ∀ args ∈ params, ∀ row ∈ before.vars.store .hashes,
      row.value = args.matrixAddress → row ∈ after.vars.store .hashes)
    (origin : ∀ row ∈ after.vars.store .hashes,
      row ∈ before.vars.store .hashes ∨
        ∃ old ∈ before.vars.store .hashes, old.hash = row.hash ∧
          ∀ args ∈ params, args.matrixAddress ≠ old.value) :
    Pooled env pepper params start after := by
  have hlate := pooled.late operation completes.mem_pending
  have hnone : ∀ issued : UserOperation, issued.address? ≠ none →
      issued.task? = none := by
    intro issued h
    cases issued with
    | hash task => exact absurd rfl h
    | _ => rfl
  have htasks : (userTasks before.pending).Perm (userTasks after.pending) := by
    rw [completes.issued, userTasks_append,
      userTasks_none fun issued h => hnone issued (issues issued h),
      List.append_nil]
    have htaken := completes.pending.filterMap UserOperation.task?
    change (userTasks before.pending).Perm (userTasks (operation :: rest))
      at htaken
    rw [userTasks_cons task] at htaken
    exact htaken
  obtain ⟨done, failed, account⟩ := pooled.account
  obtain ⟨previous, hkeys⟩ := pooled.keys
  have hparams : ∀ args ∈ done, args ∈ params := by
    intro args hargs
    refine account.split.mem_iff.mpr ?_
    simp [hargs]
  refine ⟨?_, ⟨done, failed, ?_⟩, ⟨previous, keys.trans hkeys⟩, ?_⟩
  · intro other h
    rcases completes.mem_after h with ⟨_, hbefore⟩ | hissued
    · exact pooled.late other hbefore
    · exact (@react_late env conf operation hlate outcome before.vars).2
        other hissued
  · rw [workers]
    refine Account.perm (account.frame ?_ ?_ ?_) htasks
    · intro args hargs
      exact kept args (hparams args hargs) _ (account.stored args hargs) rfl
    · intro row hrow
      rcases origin row hrow with hold | ⟨old, hold, hhash, hother⟩
      · exact .inl hold
      · rcases account.origin old hold with ⟨first, hfirst, hsame⟩ |
          ⟨args, hargs, rfl⟩
        · exact .inr ⟨first, hfirst, hsame.trans hhash⟩
        · exact absurd rfl (hother args (hparams args hargs))
    · exact fun _ => ⟨previous, keys.trans hkeys⟩
  · intro address h
    rcases completes.mem_after h with ⟨_, hbefore⟩ | hissued
    · exact pooled.activations address hbefore
    · exact absurd rfl (issues _ hissued)

theorem Pooled.activate (pooled : Pooled env pepper params start before)
    {address : String}
    (completes : Loop.Completes (UserUpdate.react env conf) before outcome
      (.activateHashes address) rest after)
    (healthy : outcome.fails = false) :
    Pooled env pepper params start after := by
  have hother := pooled.activations address completes.mem_pending
  have hstore : after.vars.store = Function.update before.vars.store .hashes
      ((before.vars.store .hashes).map fun row =>
        if row.value == address then { row with active := some 1 }
        else row) := by
    rw [completes.vars]
    simp only [UserUpdate.react, healthy, attempt, Bool.false_eq_true,
      if_false, execute, updateRows]
    congr 1
  refine pooled.aside completes rfl (fun _ h => absurd h List.not_mem_nil)
    (by rw [completes.vars]; rfl) ?_ ?_ ?_
  · rw [hstore]
    exact Function.update_of_ne (by decide) _ _
  · intro args hargs row hrow hvalue
    rw [hstore, Function.update_self]
    refine List.mem_map.mpr ⟨row, hrow, if_neg ?_⟩
    rw [hvalue]
    simpa using hother args hargs
  · intro row hrow
    rw [hstore, Function.update_self] at hrow
    obtain ⟨old, hold, hsame⟩ := List.mem_map.mp hrow
    split at hsame
    · rename_i hselected
      rw [beq_iff_eq] at hselected
      refine .inr ⟨old, hold, by rw [← hsame], ?_⟩
      rw [hselected]
      exact hother
    · exact .inl (hsame ▸ hold)

theorem Pooled.hash (pooled : Pooled env pepper params start before)
    {task : HashOperation}
    (completes : Loop.Completes (UserUpdate.react env conf) before outcome
      (.hash task) rest after)
    (healthy : outcome.fails = false) :
    Pooled env pepper params start after := by
  obtain ⟨done, failed, account⟩ := pooled.account
  obtain ⟨previous, hkeys⟩ := pooled.keys
  have htaken : (userTasks before.pending).Perm (task :: userTasks rest) :=
    completes.pending.filterMap UserOperation.task?
  obtain ⟨done', failed', haccount, _, _⟩ := account.react htaken
  have hvars := completes.vars
  have hissued := completes.issued
  simp only [UserUpdate.react, healthy] at hvars hissued
  refine ⟨?_, ⟨done', failed', ?_⟩, ⟨previous, ?_⟩, ?_⟩
  · intro other h
    rcases completes.mem_after h with ⟨_, hbefore⟩ | hnew
    · exact pooled.late other hbefore
    · exact (@react_late env conf (.hash task) rfl outcome before.vars).2
        other hnew
  · rw [hissued, hvars, userTasks_append, userTasks_hashes]
    exact haccount
  · rw [hvars, ← hkeys]
    dsimp only
    rcases @Workers.react_store env before.vars.store before.vars.workers
      false task with hsame | ⟨row, hsame⟩
    · rw [hsame]
    · rw [hsame]
      exact Function.update_of_ne (by decide) _ _
  · intro address h
    rw [hissued] at h
    rcases List.mem_append.mp h with hrest | hnew
    · exact pooled.activations address (completes.pending.mem_iff.mpr
        (List.mem_cons_of_mem _ hrest))
    · obtain ⟨_, _, hcase⟩ := List.mem_map.mp hnew
      cases hcase

theorem Pooled.step (pooled : Pooled env pepper params start before)
    (completes : Loop.Completes (UserUpdate.react env conf) before outcome
      operation rest after)
    (healthy : outcome.fails = false) :
    Pooled env pepper params start after := by
  have hlate := pooled.late operation completes.mem_pending
  have hhistory : operation.address? ≠ none → operation.task? = none →
      Pooled env pepper params start after := by
    intro hhistory htask
    obtain ⟨htables, hworkers, hissued⟩ :=
      react_history_frame env conf outcome before.vars hhistory
    rw [← completes.vars] at htables hworkers
    have hhashes := htables .hashes (by decide)
    refine pooled.aside completes htask hissued hworkers
      (htables .keys (by decide)) ?_ ?_
    · intro args _ row hrow _
      rw [hhashes]
      exact hrow
    · intro row hrow
      rw [hhashes] at hrow
      exact .inl hrow
  cases operation with
  | getUsers => cases hlate
  | getHashes => cases hlate
  | getHistory => cases hlate
  | getMatrixUsers => cases hlate
  | hash task => exact pooled.hash completes healthy
  | activateHashes address => exact pooled.activate completes healthy
  | updateHistory row => exact hhistory (Option.some_ne_none _) rfl
  | insertHistory row => exact hhistory (Option.some_ne_none _) rfl
  | getActive address timestamp =>
      exact hhistory (Option.some_ne_none _) rfl
  | deactivateHistory address => exact hhistory (Option.some_ne_none _) rfl

/-- How far a run is. -/
inductive Pooling (env : Environment) (conf : Config) (users : List UserRow)
    (entries : Option (List String)) (pepper : String) (start : Store)
    (loop : UserLoop) : Prop
  | collecting
      (collected : Collected conf users entries (· = start .hashes)
        (start .userHistory) loop.pending loop.vars)
      (under : loop.pending ≠ [])
      (store : loop.vars.store = start)
  | pooled (pooled : Pooled env pepper (newParams conf users entries start)
      start loop)

theorem pooling_of_run
    (run : UpdateRun env conf users entries (startUpdate conf start) final)
    (valid : ∀ user ∈ users, ValidUid conf user)
    (keys : start .keys = keyRows pepper previous) :
    Pooling env conf users entries pepper start final := by
  refine run.invariant (Pooling env conf users entries pepper start)
    (.collecting (collected_start conf users entries start _)
      (by simp [startUpdate]) rfl) ?_
  intro before event after hpooling replies stepped
  obtain ⟨operation, _, completes⟩ := Loop.complete_cases stepped
  cases hpooling with
  | collecting collected under store =>
      rcases collected.step completes replies (fun _ => by rw [store]) with
        ⟨hcollected, hpending, hunder, hstore⟩ | ⟨rows, rfl, hlaunched⟩
      · exact .collecting hcollected (hpending ▸ hunder) (hstore.trans store)
      · rw [store] at hlaunched
        exact .pooled (Launched.pooled hlaunched valid keys)
  | pooled pooled => exact .pooled (pooled.step completes replies.healthy)

theorem update_serves
    (run : UpdateRun env conf users entries (startUpdate conf start) final)
    (ended : final.pending = [])
    (keys : start .keys = keyRows pepper previous)
    (tolerates : UpdateTolerates env conf users entries pepper start) :
    UpdateServes env conf users entries pepper start final.vars.store := by
  intro user huser _ henrols hunique mxid hmxid field value hhas
  obtain ⟨hvalid, args, hreached, haddress, hdigest⟩ :=
    tolerates user huser henrols hunique mxid hmxid field value hhas
  cases pooling_of_run run hvalid keys with
  | collecting _ under _ => exact absurd ended under
  | pooled pooled =>
      obtain ⟨done, failed, account⟩ := pooled.account
      rw [ended] at account
      have hinitial : ∀ row, Stored start row →
          row.hash ∈ (start .hashes).map (·.hash) := by
        intro row h
        obtain ⟨old, hold, hsame⟩ := h
        exact hsame ▸ List.mem_map_of_mem hold
      have hdone : args ∈ done := by
        rcases account.ended hinitial hreached.listed hreached.early with
          hdone | hfailed
        · exact hdone
        · rcases account.conflicts args hfailed with ⟨row, hrow, hsame⟩ |
            ⟨other, hother, hsame⟩
          · exact absurd (hsame ▸ hinitial row hrow) hreached.free
          · have hlisted : other ∈ newParams conf users entries start := by
              refine account.split.mem_iff.mpr ?_
              simp [hother]
            exact hreached.alone other hlisted hsame ▸ hother
      exact ⟨_, account.stored args hdone, hdigest, rfl, haddress⟩

end Updates

/-- Under the conditions above an entry that cannot be hashed keeps no other
one from being hashed. -/
theorem directoryFaults_local (plan : RotationPlan) (start : Store)
    (keys : start .keys = keyRows plan.pepper plan.previous) :
    (∀ final, HealthyRun plan (startRotation start plan.newPepper) final →
      final.pending = [] → plan.FreshHashes start →
      (plan.Serves final.vars.store ↔ plan.Tolerates)) ∧
    ∀ final, UpdateRun plan.env plan.conf plan.users plan.entries
        (startUpdate plan.conf start) final → final.pending = [] →
      UpdateTolerates plan.env plan.conf plan.users plan.entries plan.pepper
        start →
      UpdateServes plan.env plan.conf plan.users plan.entries plan.pepper
        start final.vars.store := by
  constructor
  · intro final run ended fresh
    exact rotation_serves_iff run ended keys fresh
  · intro final run ended tolerates
    exact update_serves run ended keys tolerates

/-! A rotation and an update over a directory of which nothing fails. -/

def rotateOnce (users : List UserRow) (operations : Nat) (store : Store) :
    Option RotationLoop :=
  runEvents (rotationStep (.offline id) .sample)
    (fun _ event =>
      match event with
      | .start _ => false
      | .complete _ outcome => !outcome.fails && outcome.users == users &&
          outcome.entries == none)
    (List.replicate operations (.complete 0 { users }))
    (startRotation store pepperB)

theorem healthyRun_of_rotateOnce {users : List UserRow} {operations : Nat}
    {store : Store} {loop : RotationLoop}
    (run : rotateOnce users operations store = some loop) :
    HealthyRun { alicePlan with users } (startRotation store pepperB) loop := by
  refine reachable_of_runEvents ?_ run
  intro state event permitted
  cases event with
  | start newPepper => cases permitted
  | complete index outcome =>
      simp only [Bool.and_eq_true, Bool.not_eq_true', beq_iff_eq] at permitted
      exact ⟨permitted.1.1, permitted.1.2, permitted.2⟩

theorem tolerates_alicePlan : alicePlan.Tolerates where
  valid := clean_alicePlan.valid
  alone := by
    intro user other huser hother field value same hhas hsame hformat
    exact clean_alicePlan.addresses user (mem_of_lastWith huser).1 other
      (mem_of_lastWith hother).1 field value same hhas hsame hformat
  last := by
    intro user huser _ _ field value hhas
    rw [List.mem_singleton.mp huser] at hhas ⊢
    exact ⟨directoryUser, value, rfl, hhas, rfl⟩

def aliceArgs : UpdateArgs where
  matrixAddress := "@alice:example.org"
  method := .sha256
  field := .email
  value := "alice@example.org"
  active := some 1

/-! Two entries of one mail, before that of Alice. -/

def bobUser : UserRow where
  uid := some "bob"
  mail := some "bob@example.org"
  mobile := none

def robertUser : UserRow where
  uid := some "robert"
  mail := some "bob@example.org"
  mobile := none

def sharingUsers : List UserRow := [bobUser, robertUser, directoryUser]

def bobArgs (matrixAddress : String) : UpdateArgs where
  matrixAddress := matrixAddress
  method := .sha256
  field := .email
  value := "bob@example.org"
  active := some 1

theorem reached_sharingUsers :
    Reached (.offline id) pepperA
      (newParams .sample sharingUsers none rotatedStore) [] aliceArgs := by
  have hparams : newParams .sample sharingUsers none rotatedStore =
      [bobArgs "@bob:example.org", bobArgs "@robert:example.org",
        aliceArgs] := by decide
  rw [hparams]
  refine ⟨by decide, List.not_mem_nil, by decide, ?_⟩
  intro front back hsplit
  have hle := refusals_append_le []
    (front.map (·.digest (.offline id) pepperA))
    ((aliceArgs :: back).map (·.digest (.offline id) pepperA))
  rw [← List.map_append, ← hsplit] at hle
  exact Nat.lt_of_le_of_lt hle (by decide)

theorem updateTolerates_sharingUsers :
    UpdateTolerates (.offline id) .sample sharingUsers none pepperA
      rotatedStore := by
  intro user huser _ hunique mxid hmxid field value hhas
  have hshared : ∀ other ∈ sharingUsers.erase user,
      ¬ (user.mail = other.mail ∧ user.mail = some "bob@example.org") := by
    rintro other hother ⟨hsame, hmail⟩
    have hbob : ("bob@example.org" : String) ≠ "" := by decide
    exact hunique other hother .email _ ⟨hmail, hbob⟩
      ⟨hsame.symm.trans hmail, hbob⟩
  have hvalid : ∀ other ∈ sharingUsers, ValidUid .sample other := by
    intro other hother
    simp only [sharingUsers, List.mem_cons, List.not_mem_nil, or_false]
      at hother
    rcases hother with rfl | rfl | rfl
    · exact ⟨"@bob:example.org", by decide⟩
    · exact ⟨"@robert:example.org", by decide⟩
    · exact ⟨_, toMatrixId_directoryUser⟩
  simp only [sharingUsers, List.mem_cons, List.not_mem_nil, or_false] at huser
  rcases huser with rfl | rfl | rfl
  · exact absurd ⟨rfl, rfl⟩ (hshared robertUser (by decide))
  · exact absurd ⟨rfl, rfl⟩ (hshared bobUser (by decide))
  · obtain ⟨rfl, rfl⟩ := has_directoryUser hhas
    refine ⟨hvalid, aliceArgs, reached_sharingUsers, ?_, by decide⟩
    exact Except.ok.inj (toMatrixId_directoryUser.symm.trans hmxid)

/-- The second insertion of the shared mail is refused, and Alice is hashed
all the same. -/
theorem directoryFaults_local_alice :
    (∃ final, HealthyRun alicePlan (startRotation rotatedStore pepperB)
        final ∧ final.pending = [] ∧ alicePlan.Serves final.vars.store) ∧
      ∃ final, UpdateRun (.offline id) .sample sharingUsers none
          (startUpdate .sample rotatedStore) final ∧ final.pending = [] ∧
        UpdateServes (.offline id) .sample sharingUsers none pepperA
          rotatedStore final.vars.store := by
  constructor
  · have hrun : (rotateOnce [directoryUser] 6 rotatedStore).map
        (·.pending) = some [] := by decide
    obtain ⟨final, hfinal, hended⟩ := Option.map_eq_some_iff.mp hrun
    have hhealthy := healthyRun_of_rotateOnce hfinal
    have hserves := (directoryFaults_local alicePlan rotatedStore rfl).1
    exact ⟨final, hhealthy, hended, (hserves final hhealthy hended
      newHashes_alicePlan.toFreshHashes).mpr tolerates_alicePlan⟩
  · have hrun : (updateOnce sharingUsers 12 rotatedStore).map
        (·.pending) = some [] := by decide
    obtain ⟨final, hfinal, hended⟩ := Option.map_eq_some_iff.mp hrun
    have hupdate := updateRun_of_updateOnce hfinal
    have hserves := (directoryFaults_local
      { alicePlan with users := sharingUsers } rotatedStore rfl).2
    exact ⟨final, hupdate, hended,
      hserves final hupdate hended updateTolerates_sharingUsers⟩

/-! An entry whose `uid` gives no Matrix ID, before the other one. -/

def strayUser : UserRow where
  uid := some "bob smith"
  mail := some "bob@example.org"
  mobile := none

theorem unique_directoryUser :
    UniqueAddresses [strayUser, directoryUser] directoryUser := by
  intro other hother field value hhas hsame
  rw [show [strayUser, directoryUser].erase directoryUser = [strayUser] from
    rfl] at hother
  rw [List.mem_singleton.mp hother] at hsame
  obtain ⟨rfl, rfl⟩ := has_directoryUser hhas
  exact absurd hsame.1 (by decide)

theorem strayUser_stops_both :
    (∃ final, HealthyRun { alicePlan with users := [strayUser, directoryUser] }
        (startRotation rotatedStore pepperB) final ∧ final.pending = [] ∧
        ¬ RotationPlan.Serves
          { alicePlan with users := [strayUser, directoryUser] }
          final.vars.store) ∧
      ∃ final, UpdateRun (.offline id) .sample [strayUser, directoryUser] none
          (startUpdate .sample rotatedStore) final ∧ final.pending = [] ∧
        ¬ UpdateServes (.offline id) .sample [strayUser, directoryUser] none
          pepperA rotatedStore final.vars.store := by
  constructor
  · have hrun : (rotateOnce [strayUser, directoryUser] 4 rotatedStore).map
        (fun loop => (loop.pending, loop.vars.store .keys)) =
        some ([], keyRows pepperA pepperA) := by decide
    obtain ⟨final, hfinal, hends⟩ := Option.map_eq_some_iff.mp hrun
    obtain ⟨hended, hkeys⟩ := Prod.mk.inj hends
    refine ⟨final, healthyRun_of_rotateOnce hfinal, hended, ?_⟩
    intro hserves
    obtain ⟨previous, hpublished⟩ := hserves.published
    rw [hkeys] at hpublished
    have hpepper := congrArg KeyRow.data (List.cons_eq_cons.mp hpublished).1
    exact absurd hpepper (by decide)
  · have hrun : (updateOnce [strayUser, directoryUser] 3 rotatedStore).map
        (fun loop => (loop.pending, loop.vars.store .hashes)) =
        some ([], []) := by decide
    obtain ⟨final, hfinal, hends⟩ := Option.map_eq_some_iff.mp hrun
    obtain ⟨hended, hhashes⟩ := Prod.mk.inj hends
    refine ⟨final, updateRun_of_updateOnce hfinal, hended, ?_⟩
    intro hserves
    obtain ⟨row, hrow, _⟩ := hserves directoryUser (by simp)
      ⟨_, toMatrixId_directoryUser⟩ (by unfold Enrols; decide)
      unique_directoryUser _ toMatrixId_directoryUser .email
      "alice@example.org" ⟨rfl, by decide⟩
    rw [hhashes] at hrow
    cases hrow

end TwakeKickstart.IdentityServer
