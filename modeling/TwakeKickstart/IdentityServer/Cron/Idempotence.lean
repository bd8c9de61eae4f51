import TwakeKickstart.IdentityServer.Cron.DirectoryAgreement
import TwakeKickstart.IdentityServer.Cron.UserLaunch

namespace TwakeKickstart.IdentityServer

open Library Utils

/-! A second run of `updateUsers`, on what the first one left. -/

def pepperRow (store : Store) : Option KeyRow :=
  (store .keys).find? (·.name == "pepper")

/-- Every time that the history has is past. -/
def Later (store : Store) (now : Nat) : Prop :=
  ∀ row ∈ store .userHistory, row.timestamp < now

/-- The users of the Matrix database that a run reaches are known and active,
and what its workers would insert first is stored. -/
structure Settled (env : Environment) (conf : Config) (users : List UserRow)
    (entries : Option (List String)) (store : Store) : Prop where
  recorded : ∀ user ∈ reached conf users,
    isMatrixUid conf entries user.uid = true →
    noticed conf (store .hashes) user.uid = false
  hashed : (∀ user ∈ users, ValidUid conf user) →
    ∀ key, pepperRow store = some key →
    ∀ data, usersData conf ((Facts.gathered conf users entries (store .hashes)
      (store .userHistory)).enrolled conf users) = .ok data →
    ∀ args ∈ (updateParams data).take jobs,
      ∃ row ∈ store .hashes, row.hash = args.digest env key.data

/-! A settled run. -/

/-- The operation writes nothing, nor does what it leads to. -/
inductive WritesNothing (env : Environment) (store : Store) :
    UserOperation → Prop
  | getActive {address : String} {now : Nat} {row : HistoryRow}
      (named : address ≠ "") (found : historyOf store address = some row)
      (inactive : row.active = 0) :
      WritesNothing env store (.getActive address now)
  | getPepper {args : UpdateArgs}
      (stored : ∀ key, pepperRow store = some key →
        ∃ row ∈ store .hashes, row.hash = args.digest env key.data) :
      WritesNothing env store (.hash (.getPepper args))
  | insert {args : UpdateArgs} {pepper : String}
      (stored : ∃ row ∈ store .hashes, row.hash = args.digest env pepper) :
      WritesNothing env store (.hash (.insert args pepper))

section Settles

variable {env : Environment} {conf : Config} {users : List UserRow}
variable {entries : Option (List String)} {time : Nat → Prop}
variable {outcome : UserOutcome} {update : UserUpdate} {store start : Store}
variable {operation : UserOperation} {loop final : UserLoop} {now later : Nat}
variable {tasks : List HashOperation}

theorem react_getPepper (healthy : outcome.fails = false) (args : UpdateArgs) :
    (UserUpdate.react env conf outcome (.hash (.getPepper args))
      update).1.store = update.store ∧
    (UserUpdate.react env conf outcome (.hash (.getPepper args)) update).2 =
      (pepperRow update.store).toList.map fun key =>
        .hash (.insert args key.data) := by
  have hkeys := attempt_key env update.store (by decide : "pepper" ≠ "")
  unfold pepperRow
  rw [← List.head?_filter]
  simp only [UserUpdate.react, Workers.react, healthy, hkeys]
  cases (update.store .keys).filter (·.name == "pepper") with
  | nil => exact ⟨rfl, rfl⟩
  | cons key rest => exact ⟨rfl, rfl⟩

theorem WritesNothing.react (harmless : WritesNothing env store operation)
    (same : update.store = store) (healthy : outcome.fails = false) :
    (UserUpdate.react env conf outcome operation update).1.store = store ∧
    ∀ issued ∈ (UserUpdate.react env conf outcome operation update).2,
      WritesNothing env store issued := by
  cases harmless with
  | @getActive address now row named found inactive =>
      refine ⟨?_, ?_⟩
      · rw [(react_lookup env conf outcome address now update).1, same]
      · rw [react_getActive healthy named, same, found]
        dsimp only
        rw [if_neg (not_not.mpr inactive)]
        exact fun _ h => absurd h List.not_mem_nil
  | @getPepper args stored =>
      obtain ⟨hstore, hissued⟩ :=
        @react_getPepper env conf outcome update healthy args
      refine ⟨hstore.trans same, ?_⟩
      rw [hissued, same]
      intro issued h
      obtain ⟨key, hkey, rfl⟩ := List.mem_map.mp h
      exact .insert (stored key (Option.mem_toList.mp hkey))
  | @insert args pepper stored =>
      obtain ⟨row, hrow, hhash⟩ := stored
      rcases attempt_insertHash_healthy env (args.row env pepper) store with
        ⟨_, hrefused⟩ | ⟨hfree, _⟩
      · simp only [UserUpdate.react, Workers.react, healthy, same, hrefused]
        exact ⟨trivial, fun _ h => absurd h List.not_mem_nil⟩
      · exact absurd hhash (hfree row hrow)

theorem Begun.looked_up {facts : Facts}
    (begun : Begun conf facts now store tasks loop)
    (existing : facts.existing = (store .userHistory).map HistoryRow.address)
    (run : TimedRun env conf users entries time loop final)
    (ended : final.pending = []) {address : String}
    (looked : .getActive address now ∈ facts.lookups conf now) :
    address ≠ "" ∧ ∃ row, historyOf final.vars.store address = some row ∧
      row.active = 0 := by
  obtain ⟨mxid, hremoved, hsame⟩ := Facts.mem_lookups looked
  cases hsame
  have hfinal := begun.history_ended existing run ended
    ⟨.getActive address now, by simp [begun.pending, looked], rfl⟩
  rw [isFinal_removed hremoved] at hfinal
  obtain ⟨_, _, _, _, hmxid⟩ := hremoved
  refine ⟨named_of_toMatrixId hmxid, _, hfinal, ?_⟩
  cases historyOf store address with
  | none => rfl
  | some row => rfl

theorem looked_up_before (added : List String) {after : Store}
    (values : (after .hashes).map (·.value) =
      (start .hashes).map (·.value) ++ added)
    (listed : ∀ value ∈ added, Listed conf users value)
    (looked : operation ∈ (Facts.gathered conf users entries (after .hashes)
      (after .userHistory)).lookups conf later) :
    ∃ address, operation = .getActive address later ∧
      .getActive address now ∈ (Facts.gathered conf users entries
        (start .hashes) (start .userHistory)).lookups conf now := by
  by_cases hvalid : ∀ user ∈ users, ValidUid conf user
  · have hstart : (Facts.gathered conf users entries (start .hashes)
        (start .userHistory)).lookups conf now =
        ((Facts.gathered conf users entries (start .hashes)
          (start .userHistory)).scanKnown conf now
          ((start .hashes).map knownEntry) []).1 :=
      Facts.lookups_all hvalid
    have hafter : (Facts.gathered conf users entries (after .hashes)
        (after .userHistory)).lookups conf later =
        ((Facts.gathered conf users entries (after .hashes)
          (after .userHistory)).scanKnown conf later
          ((after .hashes).map knownEntry) []).1 :=
      Facts.lookups_all hvalid
    have huids : ((after .hashes).map knownEntry).map Prod.fst =
        ((start .hashes).map knownEntry ++ added.map fun value =>
          (localPart value, none)).map Prod.fst := by
      have hmapped := congrArg (List.map localPart) values
      simp only [List.map_append, List.map_map] at hmapped ⊢
      exact hmapped
    obtain ⟨addresses, passed, hfirst, hsecond⟩ := @Facts.scanKnown_congr conf
      (Facts.gathered conf users entries (start .hashes) (start .userHistory))
      (Facts.gathered conf users entries (after .hashes) (after .userHistory))
      now later rfl _ _ huids []
    rw [Facts.scanKnown_append] at hfirst
    · rw [hafter, hsecond] at looked
      obtain ⟨address, haddress, rfl⟩ := List.mem_map.mp looked
      refine ⟨address, rfl, ?_⟩
      rw [hstart, hfirst]
      exact List.mem_map_of_mem haddress
    · intro entry hentry
      obtain ⟨value, hvalue, rfl⟩ := List.mem_map.mp hentry
      obtain ⟨user, huser, hmxid⟩ := listed value hvalue
      exact ⟨user, huser, localPart_of_toMatrixId hmxid⟩
  · have hafter : (Facts.gathered conf users entries (after .hashes)
        (after .userHistory)).lookups conf later = [] :=
      Facts.lookups_none hvalid
    rw [hafter] at looked
    cases looked

theorem Begun.harmless
    (begun : Begun conf (Facts.gathered conf users entries (store .hashes)
      (store .userHistory)) now store tasks loop)
    (settled : Settled env conf users entries store)
    (inactive : ∀ operation ∈ (Facts.gathered conf users entries
        (store .hashes) (store .userHistory)).lookups conf now,
      ∃ address, operation = .getActive address now ∧ address ≠ "" ∧
        ∃ row, historyOf store address = some row ∧ row.active = 0) :
    ∀ operation ∈ loop.pending, WritesNothing env store operation := by
  intro operation h
  rw [begun.pending] at h
  rcases List.mem_append.mp h with hupdates | hgone
  · rcases List.mem_append.mp hupdates with hlaunched | htask
    · obtain ⟨user, huser, mxid, _, hwrites⟩ := mem_launched hlaunched
      obtain ⟨hmatrix, hnoticed⟩ :=
        userWrites_gathered.mp (List.ne_nil_of_mem hwrites)
      rw [settled.recorded user huser hmatrix] at hnoticed
      cases hnoticed
    · obtain ⟨task, hmem, rfl⟩ := List.mem_map.mp htask
      by_cases hvalid : ∀ user ∈ users, ValidUid conf user
      · obtain ⟨data, hreduced, hpool⟩ := begun.pool hvalid
        split at hpool
        · obtain ⟨_, rfl⟩ := Prod.mk.inj hpool
          obtain ⟨args, hargs, rfl⟩ := List.mem_map.mp hmem
          exact .getPepper fun key hkey =>
            settled.hashed hvalid key hkey data hreduced args hargs
        · obtain ⟨_, rfl⟩ := Prod.mk.inj hpool
          cases hmem
      · obtain ⟨_, rfl⟩ := begun.idle hvalid
        cases hmem
  · obtain ⟨address, rfl, hnamed, row, hrow, hactive⟩ :=
      inactive operation hgone
    exact .getActive hnamed hrow hactive

theorem unchanged_of_harmless
    (run : TimedRun env conf users entries time loop final)
    (late : ∀ operation ∈ loop.pending, operation.isRead = false)
    (harmless : ∀ operation ∈ loop.pending,
      WritesNothing env loop.vars.store operation) :
    final.vars.store = loop.vars.store := by
  refine (keeps_of_late (fun later => later.vars.store = loop.vars.store ∧
    ∀ operation ∈ later.pending,
      WritesNothing env loop.vars.store operation) run
    late ⟨rfl, harmless⟩ ?_).1
  rintro before outcome operation rest after ⟨hsame, hbefore⟩ completes _
    healthy
  obtain ⟨hstore, hissued⟩ := @WritesNothing.react env conf outcome before.vars
    loop.vars.store operation (hbefore operation completes.mem_pending) hsame
    healthy
  refine ⟨?_, ?_⟩
  · rw [completes.vars]
    exact hstore
  · intro other hother
    rcases completes.mem_after hother with ⟨_, hpending⟩ | hnew
    · exact hbefore other hpending
    · exact hissued other hnew

end Settles

/-! A run that is not settled. -/

/-- Hashes have been added, or the worker that will add one is under way. -/
def Adding (before : Store) (args : UpdateArgs) (pepper : String)
    (loop : UserLoop) : Prop :=
  (before .hashes).length < (loop.vars.store .hashes).length ∨
  (loop.vars.store .hashes).map (·.hash) = (before .hashes).map (·.hash) ∧
    (.hash (.getPepper args) ∈ loop.pending ∨
      .hash (.insert args pepper) ∈ loop.pending)

section Changes

variable {env : Environment} {conf : Config} {users : List UserRow}
variable {entries : Option (List String)} {time : Nat → Prop}
variable {store : Store} {before after loop final : UserLoop} {now : Nat}
variable {outcome : UserOutcome} {operation : UserOperation}
variable {rest : List UserOperation} {tasks : List HashOperation}

theorem Adding.step {args : UpdateArgs} {key : KeyRow}
    (adding : Adding store args key.data before)
    (free : ∀ row ∈ store .hashes, row.hash ≠ args.digest env key.data)
    (pepper : pepperRow before.vars.store = some key)
    (completes : Loop.Completes (UserUpdate.react env conf) before outcome
      operation rest after)
    (late : operation.isRead = false) (healthy : outcome.fails = false) :
    Adding store args key.data after := by
  have hhashes := @react_hashes env conf outcome before.vars operation late
  rw [← completes.vars] at hhashes
  rcases adding with hlonger | ⟨hsame, hunder⟩
  · left
    rcases hhashes with ⟨active, hafter⟩ | ⟨_, row, _, _, hafter⟩
    · rw [hafter, List.length_map]
      exact hlonger
    · rw [hafter, List.length_append]
      omega
  · have hlength := congrArg List.length hsame
    rw [List.length_map, List.length_map] at hlength
    rcases hhashes with ⟨active, hafter⟩ | ⟨_, row, _, _, hafter⟩
    · right
      refine ⟨?_, ?_⟩
      · rw [hafter, List.map_map, ← hsame]
        rfl
      · rcases hunder with hget | hinsert
        · rcases completes.mem_before hget with rfl | hkept
          · right
            rw [completes.issued]
            refine List.mem_append_right _ ?_
            rw [(react_getPepper healthy args).2, pepper]
            exact List.mem_singleton_self _
          · exact .inl hkept
        · rcases completes.mem_before hinsert with rfl | hkept
          · exfalso
            have hfree : ∀ other ∈ before.vars.store .hashes,
                other.hash ≠ args.digest env key.data := by
              intro other hother
              have hhash : other.hash ∈ (store .hashes).map (·.hash) :=
                hsame ▸ List.mem_map_of_mem hother
              obtain ⟨row, hrow, hrowHash⟩ := List.mem_map.mp hhash
              rw [← hrowHash]
              exact free row hrow
            rcases attempt_insertHash_healthy env (args.row env key.data)
                before.vars.store with
              ⟨⟨other, hother, hstored⟩, _⟩ | ⟨_, rows, hstored⟩
            · exact hfree other hother hstored
            · have hadded := congrArg List.length hafter
              rw [completes.vars] at hadded
              simp only [UserUpdate.react, Workers.react, healthy, hstored,
                Workers.release, Function.update_self, List.length_append,
                List.length_map, List.length_singleton] at hadded
              omega
          · exact .inr hkept
    · left
      rw [hafter, List.length_append, List.length_singleton]
      omega

theorem Begun.hashed_of_same
    (begun : Begun conf (Facts.gathered conf users entries (store .hashes)
      (store .userHistory)) now store tasks loop)
    (run : TimedRun env conf users entries time loop final)
    (ended : final.pending = [])
    (same : final.vars.store .hashes = store .hashes)
    (valid : ∀ user ∈ users, ValidUid conf user) {key : KeyRow}
    (pepper : pepperRow store = some key) {data : UpdatableFields}
    (reduced : usersData conf ((Facts.gathered conf users entries
      (store .hashes) (store .userHistory)).enrolled conf users) = .ok data)
    {args : UpdateArgs} (first : args ∈ (updateParams data).take jobs) :
    ∃ row ∈ store .hashes, row.hash = args.digest env key.data := by
  by_contra hfree
  push Not at hfree
  obtain ⟨other, hreduced, hpool⟩ := begun.pool valid
  cases (Except.ok.inj (hreduced.symm.trans reduced) : other = data)
  have hunder : .hash (.getPepper args) ∈ loop.pending := by
    rw [begun.pending]
    refine List.mem_append_left _ (List.mem_append_right _ ?_)
    refine List.mem_map_of_mem ?_
    split at hpool
    · obtain ⟨_, rfl⟩ := Prod.mk.inj hpool
      exact List.mem_map.mpr ⟨args, first, if_pos rfl⟩
    · rename_i hnone
      exfalso
      obtain ⟨row, hrow, _⟩ :=
        (mem_updateParams reduced args).mp (List.mem_of_mem_take first)
      obtain ⟨user, huser, rfl⟩ := List.mem_map.mp (mem_of_lastWith hrow).1
      obtain ⟨hmem, henrols⟩ := List.mem_filter.mp huser
      refine hnone (List.any_eq_true.mpr ⟨user, hmem, ?_⟩)
      exact (Bool.and_eq_true_iff.mp henrols).1
  have hadding : final.vars.store .keys = store .keys ∧
      Adding store args key.data final := by
    refine keeps_of_late (fun loop => loop.vars.store .keys = store .keys ∧
      Adding store args key.data loop) run
      (fun _ h => (begun.mem_pending h).late) ?_ ?_
    · rw [begun.store]
      exact ⟨rfl, .inr ⟨by rw [begun.store], .inl hunder⟩⟩
    · rintro before outcome operation rest after ⟨hkeys, hbefore⟩ completes
        late healthy
      refine ⟨?_, hbefore.step hfree ?_ completes late healthy⟩
      · rw [completes.vars, react_keys late, hkeys]
      · unfold pepperRow
        rw [hkeys]
        exact pepper
  rcases hadding.2 with hlonger | ⟨_, hget | hinsert⟩
  · rw [same] at hlonger
    exact absurd hlonger (Nat.lt_irrefl _)
  · rw [ended] at hget
    cases hget
  · rw [ended] at hinsert
    cases hinsert

theorem Begun.recorded_of_same
    (begun : Begun conf (Facts.gathered conf users entries (store .hashes)
      (store .userHistory)) now store tasks loop)
    (run : TimedRun env conf users entries time loop final)
    (ended : final.pending = []) (later : Later store now)
    (same : final.vars.store .userHistory = store .userHistory)
    {user : UserRow} (huser : user ∈ reached conf users)
    (matrix : isMatrixUid conf entries user.uid = true) :
    noticed conf (store .hashes) user.uid = false := by
  cases hnoticed : noticed conf (store .hashes) user.uid with
  | false => rfl
  | true =>
      obtain ⟨mxid, hmxid⟩ := valid_of_reached huser
      have hwrites : (Facts.gathered conf users entries (store .hashes)
          (store .userHistory)).userWrites conf now user mxid ≠ [] :=
        userWrites_gathered.mpr ⟨matrix, hnoticed⟩
      have hfinal := begun.history_ended rfl run ended
        (begun.under_way huser hmxid hwrites)
      rw [isFinal_written ⟨user, reached_subset huser, hmxid, hwrites⟩]
        at hfinal
      unfold historyOf at hfinal
      rw [same] at hfinal
      have hearlier := later _ (List.mem_of_find?_eq_some hfinal)
      exact absurd hearlier (Nat.lt_irrefl _)

end Changes

/-! Two runs. -/

section Reruns

variable {env : Environment} {conf : Config} {users : List UserRow}
variable {entries : Option (List String)} {start : Store}
variable {first second : UserLoop}

/-- The second of two runs on the same directories, without failures, changes
nothing if and only if the first one leaves everything settled. -/
theorem rerun_unchanged_iff
    (run : UpdateRun env conf users entries (startUpdate conf start) first)
    (ended : first.pending = [])
    (rerun : TimedRun env conf users entries (Later first.vars.store)
      (startUpdate conf first.vars.store) second)
    (reended : second.pending = []) :
    (second.vars.store .hashes = first.vars.store .hashes ∧
      second.vars.store .userHistory = first.vars.store .userHistory) ↔
    Settled env conf users entries first.vars.store := by
  have htimed : TimedRun env conf users entries (fun _ => True)
      (startUpdate conf start) first :=
    run.mono fun _ _ replies => ⟨replies, trivial⟩
  obtain ⟨now, launched, _, hlaunched, honward⟩ :=
    launched_of_ended htimed ended
  obtain ⟨tasks, hbegun⟩ := hlaunched.begun
  obtain ⟨later, relaunched, hlater, hrelaunched, hreonward⟩ :=
    launched_of_ended rerun reended
  obtain ⟨retasks, hrebegun⟩ := hrelaunched.begun
  constructor
  · rintro ⟨hhashes, hhistory⟩
    refine ⟨?_, ?_⟩
    · intro user huser hmatrix
      exact hrebegun.recorded_of_same hreonward reended hlater hhistory huser
        hmatrix
    · intro hvalid key hkey data hreduced args hargs
      exact hrebegun.hashed_of_same hreonward reended hhashes hvalid hkey
        hreduced hargs
  · intro settled
    have hharmless : ∀ operation ∈ relaunched.pending,
        WritesNothing env first.vars.store operation := by
      refine hrebegun.harmless settled ?_
      intro operation hlooked
      have hhandles : Handles (Listed conf users) launched :=
        hbegun.handles fun _ _ hreduced _ => listed_of_updateParams hreduced
      obtain ⟨added, hvalues, hlisted⟩ := hbegun.values_ended hhandles honward
      obtain ⟨address, rfl, hbefore⟩ :=
        @looked_up_before conf users entries start operation now later added
          first.vars.store hvalues hlisted hlooked
      obtain ⟨hnamed, row, hrow, hactive⟩ :=
        hbegun.looked_up rfl honward ended hbefore
      exact ⟨address, rfl, hnamed, row, hrow, hactive⟩
    have hsame : second.vars.store = first.vars.store := by
      rw [← hrebegun.store] at hharmless ⊢
      exact unchanged_of_harmless hreonward
        (fun _ h => (hrebegun.mem_pending h).late) hharmless
    rw [hsame]
    exact ⟨rfl, rfl⟩

/-- A user of the Matrix database whom the hashes do not know, and for whom
nothing is hashed, is recorded anew by every run. -/
theorem unsettled_of_unhashed
    (run : UpdateRun env conf users entries (startUpdate conf start) first)
    (ended : first.pending = []) {user : UserRow} {mxid : String}
    (huser : user ∈ reached conf users)
    (matrix : isMatrixUid conf entries user.uid = true)
    (named : toMatrixId user.uid conf.serverName = .ok mxid)
    (unknown : firstRow (start .hashes) user.uid = none)
    (unhashed : (∀ user ∈ users, ValidUid conf user) → ∀ data,
      usersData conf ((Facts.gathered conf users entries (start .hashes)
        (start .userHistory)).enrolled conf users) = .ok data →
      ∀ args ∈ updateParams data, args.matrixAddress ≠ mxid) :
    ¬ Settled env conf users entries first.vars.store := by
  intro settled
  have htimed : TimedRun env conf users entries (fun _ => True)
      (startUpdate conf start) first :=
    run.mono fun _ _ replies => ⟨replies, trivial⟩
  obtain ⟨now, launched, _, hlaunched, honward⟩ :=
    launched_of_ended htimed ended
  obtain ⟨tasks, hbegun⟩ := hlaunched.begun
  have hhandles : Handles (fun value => some (localPart value) ≠ user.uid)
      launched := by
    refine hbegun.handles ?_
    intro hvalid data hreduced args hargs hsame
    obtain ⟨other, _, hother⟩ := listed_of_updateParams hreduced hargs
    rw [localPart_of_toMatrixId hother] at hother
    rw [hsame, named] at hother
    exact unhashed hvalid data hreduced args hargs
      (Except.ok.inj hother).symm
  obtain ⟨added, hvalues, hadded⟩ := hbegun.values_ended hhandles honward
  have hnone : firstRow (first.vars.store .hashes) user.uid = none := by
    unfold firstRow at unknown ⊢
    rw [List.find?_eq_none] at unknown ⊢
    intro row hrow
    have hvalue : row.value ∈ (first.vars.store .hashes).map (·.value) :=
      List.mem_map_of_mem hrow
    rw [hvalues] at hvalue
    rcases List.mem_append.mp hvalue with hold | hnew
    · obtain ⟨other, hother, hsame⟩ := List.mem_map.mp hold
      rw [← hsame]
      exact unknown other hother
    · simpa using hadded row.value hnew
  have hquiet := settled.recorded user huser matrix
  unfold noticed at hquiet
  rw [hnone] at hquiet
  cases hquiet

end Reruns

/-! Two runs over a directory with one user. -/

/-- A run that reads the clock at `now`; every operation succeeds. -/
def updateAt (now : Nat) (users : List UserRow) (operations : Nat)
    (store : Store) : Option UserLoop :=
  runEvents (updateStep (.offline id) .sample)
    (fun _ event => !event.2.fails && event.2.users == users &&
      event.2.entries == none && event.2.now == now)
    (List.replicate operations (0, { healthyOutcome users none with now }))
    (startUpdate .sample store)

theorem timedRun_of_updateAt {now operations : Nat} {users : List UserRow}
    {store : Store} {loop : UserLoop} {time : Nat → Prop} (timely : time now)
    (run : updateAt now users operations store = some loop) :
    TimedRun (.offline id) .sample users none time (startUpdate .sample store)
      loop := by
  refine reachable_of_runEvents ?_ run
  intro state event permitted
  simp only [Bool.and_eq_true, Bool.not_eq_true', beq_iff_eq] at permitted
  obtain ⟨⟨⟨hfails, husers⟩, hentries⟩, hnow⟩ := permitted
  exact ⟨⟨hfails, husers, hentries⟩, hnow ▸ timely⟩

/-- One run at time 0, another one at time 1. -/
def updateTwice (users : List UserRow) (operations again : Nat) :
    Option (UserLoop × UserLoop) :=
  (updateOnce users operations newStore).bind fun first =>
    (updateAt 1 users again first.vars.store).map fun second => (first, second)

theorem later_one {store : Store}
    (history : store .userHistory = [⟨"@alice:example.org", 1, 0⟩]) :
    Later store 1 := by
  unfold Later
  rw [history]
  intro row hrow
  rw [List.mem_singleton.mp hrow]
  exact Nat.one_pos

theorem runs_of_updateTwice {users : List UserRow} {operations again : Nat}
    {first second : UserLoop}
    (run : updateTwice users operations again = some (first, second))
    (history : first.vars.store .userHistory =
      [⟨"@alice:example.org", 1, 0⟩]) :
    UpdateRun (.offline id) .sample users none (startUpdate .sample newStore)
      first ∧
    TimedRun (.offline id) .sample users none (Later first.vars.store)
      (startUpdate .sample first.vars.store) second := by
  obtain ⟨_, hfirst, hrest⟩ := Option.bind_eq_some_iff.mp run
  obtain ⟨_, hsecond, hloops⟩ := Option.map_eq_some_iff.mp hrest
  cases hloops
  exact ⟨updateRun_of_updateOnce hfirst,
    timedRun_of_updateAt (later_one history) hsecond⟩

theorem rerun_unchanged_alice :
    ∃ first second, UpdateRun (.offline id) .sample [directoryUser] none
        (startUpdate .sample newStore) first ∧ first.pending = [] ∧
      TimedRun (.offline id) .sample [directoryUser] none
        (Later first.vars.store) (startUpdate .sample first.vars.store)
        second ∧ second.pending = [] ∧
      first.vars.store .hashes = [directoryHash] ∧
      Settled (.offline id) .sample [directoryUser] none first.vars.store := by
  have hrun : (updateTwice [directoryUser] 6 3).map (fun loops =>
      (updateSummary loops.1, updateSummary loops.2)) =
      some (⟨true, false, [directoryHash], [⟨"@alice:example.org", 1, 0⟩]⟩,
        ⟨true, false, [directoryHash],
          [⟨"@alice:example.org", 1, 0⟩]⟩) := by
    decide
  obtain ⟨⟨first, second⟩, hloops, hsummaries⟩ :=
    Option.map_eq_some_iff.mp hrun
  simp only [updateSummary, Prod.mk.injEq, UpdateSummary.mk.injEq,
    List.isEmpty_iff] at hsummaries
  obtain ⟨⟨hended, _, hhashes, hhistory⟩, hreended, _, hrehashes,
    hrehistory⟩ := hsummaries
  obtain ⟨hfirst, hsecond⟩ := runs_of_updateTwice hloops hhistory
  exact ⟨first, second, hfirst, hended, hsecond, hreended, hhashes,
    (rerun_unchanged_iff hfirst hended hsecond hreended).mp
      ⟨hrehashes.trans hhashes.symm, hrehistory.trans hhistory.symm⟩⟩

/-- A user without addresses. -/
def bareUser : UserRow where
  uid := some "alice"
  mail := none
  mobile := none

/-- The second run records a user without addresses once more. -/
theorem bare_user_recorded_again :
    ¬ ∀ (env : Environment) (conf : Config) (users : List UserRow)
      (entries : Option (List String)) (start : Store)
      (first second : UserLoop),
      UpdateRun env conf users entries (startUpdate conf start) first →
      first.pending = [] →
      TimedRun env conf users entries (Later first.vars.store)
        (startUpdate conf first.vars.store) second →
      second.pending = [] →
      second.vars.store .hashes = first.vars.store .hashes ∧
        second.vars.store .userHistory = first.vars.store .userHistory := by
  intro unchanged
  have hrun : (updateTwice [bareUser] 4 4).map (fun loops =>
      (updateSummary loops.1, updateSummary loops.2)) =
      some (⟨true, false, [], [⟨"@alice:example.org", 1, 0⟩]⟩,
        ⟨true, false, [], [⟨"@alice:example.org", 1, 1⟩]⟩) := by
    decide
  obtain ⟨⟨first, second⟩, hloops, hsummaries⟩ :=
    Option.map_eq_some_iff.mp hrun
  simp only [updateSummary, Prod.mk.injEq, UpdateSummary.mk.injEq,
    List.isEmpty_iff] at hsummaries
  obtain ⟨⟨hended, _, _, hhistory⟩, hreended, _, _, hrehistory⟩ := hsummaries
  obtain ⟨hfirst, hsecond⟩ := runs_of_updateTwice hloops hhistory
  have hsame := unchanged _ _ _ _ _ _ _ hfirst hended hsecond hreended
  rw [hhistory, hrehistory] at hsame
  exact absurd hsame.2 (by decide)

end TwakeKickstart.IdentityServer
