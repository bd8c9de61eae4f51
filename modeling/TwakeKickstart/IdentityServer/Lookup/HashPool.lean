import Mathlib.Data.List.Dedup
import Mathlib.Data.List.Perm.Subperm
import TwakeKickstart.IdentityServer.Lookup.UpdateHash

namespace TwakeKickstart.IdentityServer

open Library

/-! What the pool of workers has done of its tasks, in whatever order they
complete, on a database that refuses nothing but a hash that is stored. -/

def UpdateArgs.digest (env : Environment) (pepper : String)
    (args : UpdateArgs) : String :=
  (args.row env pepper).hash

/-- `done` and `failed` are the tasks that ended; `Initial` are the rows that
the pool did not store.  The tasks are started in their order. -/
structure Account (env : Environment) (pepper : String)
    (params : List UpdateArgs) (Initial : HashRow → Prop) (workers : Workers)
    (store : Store) (tasks : List HashOperation)
    (done failed : List UpdateArgs) : Prop where
  order : ∃ started, params = started ++ workers.waiting ∧
    started.Perm (done ++ failed ++ tasks.map (·.args))
  inserts : ∀ args other, .insert args other ∈ tasks → other = pepper
  given : workers.pepper = pepper ∨ workers.pepper = ""
  lookup : (workers.pepper = "" ∧ workers.waiting ≠ [] ∨
      ∃ args, .getPepper args ∈ tasks) →
    ∃ previous, store .keys = keyRows pepper previous
  stored : ∀ args ∈ done, args.row env pepper ∈ store .hashes
  origin : ∀ row ∈ store .hashes,
    Initial row ∨ ∃ args ∈ done, row = args.row env pepper
  distinct : (done.map (·.digest env pepper)).Nodup
  conflicts : ∀ args ∈ failed,
    (∃ row, Initial row ∧ row.hash = args.digest env pepper) ∨
      ∃ other ∈ done, other.digest env pepper = args.digest env pepper
  unresolved : workers.unresolved + done.length = params.length
  busy : workers.waiting ≠ [] → tasks.length + failed.length = jobs

variable {env : Environment} {pepper previous : String}
variable {params done failed : List UpdateArgs} {Initial : HashRow → Prop}
variable {workers : Workers} {store : Store} {tasks rest : List HashOperation}
variable {operation : HashOperation}

@[simp] theorem Workers.args_assign (pepper : String) (args : UpdateArgs) :
    (Workers.assign pepper args).args = args := by
  unfold Workers.assign
  split
  · rfl
  · rfl

theorem Workers.map_args_assign (pepper : String) (params : List UpdateArgs) :
    (params.map (Workers.assign pepper)).map (·.args) = params := by
  rw [List.map_map]
  exact (List.map_congr_left fun args _ =>
    Workers.args_assign pepper args).trans (List.map_id params)

theorem mem_assign {given : String} {params : List UpdateArgs}
    {task : HashOperation} (h : task ∈ params.map (Workers.assign given)) :
    (given = "" ∧ ∃ args, task = .getPepper args) ∨
      (given ≠ "" ∧ ∃ args, task = .insert args given) := by
  obtain ⟨args, _, rfl⟩ := List.mem_map.mp h
  unfold Workers.assign
  by_cases hempty : given = ""
  · rw [if_pos hempty]
    exact .inl ⟨hempty, args, rfl⟩
  · rw [if_neg hempty]
    exact .inr ⟨hempty, args, rfl⟩

/-- An insertion leaves the workers their pepper, and the next task is given
that one. -/
theorem Workers.react_insert (env : Environment) (fails : Bool)
    (workers : Workers) (store : Store) (args : UpdateArgs) (value : String) :
    (workers.react env fails store (.insert args value)).workers.pepper =
      workers.pepper ∧
    (∀ task ∈ (workers.react env fails store (.insert args value)).issued,
      ∃ next ∈ workers.waiting, task = Workers.assign workers.pepper next) ∧
    ((workers.react env fails store (.insert args value)).verdict =
        .rejected →
      (workers.react env fails store (.insert args value)).issued = []) := by
  simp only [Workers.react]
  split
  · exact ⟨rfl, fun _ h => absurd h List.not_mem_nil, fun _ => rfl⟩
  · refine ⟨rfl, ?_, ?_⟩
    · intro task h
      obtain ⟨next, hnext, rfl⟩ := List.mem_map.mp h
      rw [Option.mem_toList] at hnext
      exact ⟨next, List.mem_of_mem_head? hnext, rfl⟩
    · intro h
      simp only [Workers.release] at h
      split at h
      · cases h
      · cases h

/-- On a healthy database an insertion fails exactly on a stored hash. -/
theorem attempt_insertHash_healthy (env : Environment) (row : HashRow)
    (store : Store) :
    ((∃ other ∈ store .hashes, other.hash = row.hash) ∧
      attempt env false (.insert .hashes row) store = (none, store)) ∨
    ((∀ other ∈ store .hashes, other.hash ≠ row.hash) ∧
      ∃ rows, attempt env false (.insert .hashes row) store =
        (some rows, Function.update store .hashes
          (store .hashes ++ [row]))) := by
  have hconflicts : conflicts .hashes (store .hashes) row =
      (store .hashes).any fun other => other.hash == row.hash := by
    simp only [conflicts, primaryKey, Option.any_some, cell, Cell.same]
  simp only [attempt, Bool.false_eq_true, if_false, execute, hconflicts]
  split
  · rename_i hstored
    left
    simpa using hstored
  · rename_i hfree
    right
    refine ⟨?_, _, rfl⟩
    simpa using hfree

theorem Account.split (account : Account env pepper params Initial workers
      store tasks done failed) :
    params.Perm
      (done ++ failed ++ tasks.map (·.args) ++ workers.waiting) := by
  obtain ⟨started, hparams, hstarted⟩ := account.order
  have hall := hstarted.append_right workers.waiting
  rw [← hparams] at hall
  exact hall

theorem Account.start (params : List UpdateArgs)
    (Initial : HashRow → Prop) (given : String)
    (gives : given = pepper ∨ given = "")
    (lookup : given = "" → ∃ previous, store .keys = keyRows pepper previous)
    (initial : ∀ row ∈ store .hashes, Initial row) :
    Account env pepper params Initial (Workers.start given params).1 store
      (Workers.start given params).2 [] [] where
  order := by
    refine ⟨params.take jobs, (List.take_append_drop jobs params).symm, ?_⟩
    rw [Workers.start, Workers.map_args_assign]
    exact List.Perm.refl _
  inserts := by
    intro args other h
    rcases mem_assign h with ⟨_, _, htask⟩ | ⟨hgiven, _, htask⟩
    · cases htask
    · cases htask
      rcases gives with hsame | hempty
      · exact hsame
      · exact absurd hempty hgiven
  given := gives
  lookup := by
    rintro (⟨hempty, _⟩ | ⟨args, htask⟩)
    · exact lookup hempty
    · rcases mem_assign htask with ⟨hempty, _⟩ | ⟨_, _, h⟩
      · exact lookup hempty
      · cases h
  stored := fun _ h => absurd h (by simp)
  origin := fun row hrow => .inl (initial row hrow)
  distinct := List.nodup_nil
  conflicts := fun _ h => absurd h (by simp)
  unresolved := rfl
  busy := by
    intro hwaiting
    have hmore : jobs < params.length := by
      by_contra hfew
      exact hwaiting (List.drop_eq_nil_of_le (by omega))
    simp only [Workers.start, List.length_map, List.length_take,
      List.length_nil]
    omega

theorem Account.none (env : Environment) (pepper : String)
    (initial : ∀ row ∈ store .hashes, Initial row)
    (idle : workers.waiting = [] ∧ workers.unresolved = 0)
    (given : workers.pepper = pepper ∨ workers.pepper = "") :
    Account env pepper [] Initial workers store [] [] [] where
  order := ⟨[], by simp [idle.1], List.Perm.nil⟩
  inserts := fun _ _ h => absurd h (by simp)
  given := given
  lookup := by simp [idle.1]
  stored := fun _ h => absurd h (by simp)
  origin := fun row hrow => .inl (initial row hrow)
  distinct := List.nodup_nil
  conflicts := fun _ h => absurd h (by simp)
  unresolved := by simp [idle.2]
  busy := fun h => absurd idle.1 h

theorem Account.frame (account : Account env pepper params Initial workers
      store tasks done failed) {after : Store}
    (stored : ∀ args ∈ done, args.row env pepper ∈ after .hashes)
    (origin : ∀ row ∈ after .hashes, row ∈ store .hashes ∨ Initial row)
    (lookup : (workers.pepper = "" ∧ workers.waiting ≠ [] ∨
        ∃ args, .getPepper args ∈ tasks) →
      ∃ previous, after .keys = keyRows pepper previous) :
    Account env pepper params Initial workers after tasks done failed :=
  { account with
    stored := stored
    lookup := lookup
    origin := by
      intro row hrow
      rcases origin row hrow with hbefore | hinitial
      · exact account.origin row hbefore
      · exact .inl hinitial }

theorem Account.getPepper (account : Account env pepper params Initial
      workers store tasks done failed) {args : UpdateArgs}
    (taken : tasks.Perm (.getPepper args :: rest)) :
    workers.react env false store (.getPepper args) =
      { workers := { workers with pepper }, store,
        issued := [.insert args pepper], verdict := .going } ∧
    Account env pepper params Initial { workers with pepper } store
      (rest ++ [.insert args pepper]) done failed := by
  have hmem : HashOperation.getPepper args ∈ tasks :=
    taken.mem_iff.mpr List.mem_cons_self
  obtain ⟨previous, hkeys⟩ := account.lookup (.inr ⟨args, hmem⟩)
  have htasks : (rest ++ [HashOperation.insert args pepper]).map (·.args)
      |>.Perm (tasks.map (·.args)) := by
    have hperm := (taken.map (·.args)).symm
    rw [List.map_append]
    exact (List.perm_append_singleton _ _).trans hperm
  refine ⟨?_, ?_⟩
  · simp only [Workers.react, attempt_pepper false hkeys, Bool.false_eq_true,
      if_false]
  · refine ⟨?_, ?_, .inl rfl, ?_, account.stored, account.origin,
      account.distinct, account.conflicts, account.unresolved, ?_⟩
    · obtain ⟨started, hparams, hstarted⟩ := account.order
      exact ⟨started, hparams,
        hstarted.trans (htasks.symm.append_left _)⟩
    · intro other value h
      rcases List.mem_append.mp h with hrest | hnew
      · exact account.inserts other value
          (taken.mem_iff.mpr (List.mem_cons_of_mem _ hrest))
      · cases List.mem_singleton.mp hnew
        rfl
    · exact fun _ => ⟨previous, hkeys⟩
    · intro hwaiting
      rw [List.length_append, List.length_singleton]
      have hbusy := account.busy hwaiting
      rw [taken.length_eq, List.length_cons] at hbusy
      exact hbusy

theorem Account.refuse (account : Account env pepper params Initial workers
      store tasks done failed) {args : UpdateArgs} {value : String}
    (taken : tasks.Perm (.insert args value :: rest))
    (refused : ∃ other ∈ store .hashes,
      other.hash = args.digest env pepper) :
    Account env pepper params Initial workers store rest done
      (args :: failed) where
  order := by
    obtain ⟨started, hparams, hstarted⟩ := account.order
    refine ⟨started, hparams, ?_⟩
    apply List.perm_iff_count.mpr
    intro other
    have hcount := hstarted.count_eq other
    have htaken := (taken.map (·.args)).count_eq other
    simp only [List.map_cons, HashOperation.args, List.count_append,
      List.count_cons] at hcount htaken ⊢
    omega
  inserts := fun other key h => account.inserts other key
    (taken.mem_iff.mpr (List.mem_cons_of_mem _ h))
  given := account.given
  lookup := by
    rintro (hempty | ⟨other, h⟩)
    · exact account.lookup (.inl hempty)
    · exact account.lookup (.inr ⟨other,
        taken.mem_iff.mpr (List.mem_cons_of_mem _ h)⟩)
  stored := account.stored
  origin := account.origin
  distinct := account.distinct
  conflicts := by
    intro other h
    rcases List.mem_cons.mp h with hsame | hbefore
    · rw [hsame]
      obtain ⟨row, hrow, hhash⟩ := refused
      rcases account.origin row hrow with hinitial | ⟨first, hfirst, rfl⟩
      · exact .inl ⟨row, hinitial, hhash⟩
      · exact .inr ⟨first, hfirst, hhash⟩
    · exact account.conflicts other hbefore
  unresolved := account.unresolved
  busy := by
    intro hwaiting
    have hbusy := account.busy hwaiting
    rw [taken.length_eq, List.length_cons] at hbusy
    rw [List.length_cons]
    omega

theorem Account.release (account : Account env pepper params Initial workers
      store tasks done failed) {args : UpdateArgs} {value : String}
    (taken : tasks.Perm (.insert args value :: rest))
    (free : ∀ other ∈ store .hashes, other.hash ≠ args.digest env pepper) :
    Account env pepper params Initial
      { workers with
        waiting := workers.waiting.tail,
        unresolved := workers.unresolved - 1 }
      (Function.update store .hashes
        (store .hashes ++ [args.row env pepper]))
      (rest ++
        workers.waiting.head?.toList.map (Workers.assign workers.pepper))
      (args :: done) failed where
  order := by
    obtain ⟨started, hparams, hstarted⟩ := account.order
    refine ⟨started ++ workers.waiting.head?.toList, ?_, ?_⟩
    · rw [hparams, List.append_assoc]
      cases workers.waiting with
      | nil => rfl
      | cons head tail => rfl
    · rw [List.map_append, Workers.map_args_assign, ← List.append_assoc]
      refine List.Perm.append_right _ ?_
      apply List.perm_iff_count.mpr
      intro other
      have hcount := hstarted.count_eq other
      have htaken := (taken.map (·.args)).count_eq other
      simp only [List.map_cons, HashOperation.args, List.count_append,
        List.count_cons] at hcount htaken ⊢
      omega
  inserts := by
    intro other key h
    rcases List.mem_append.mp h with hrest | hnew
    · exact account.inserts other key
        (taken.mem_iff.mpr (List.mem_cons_of_mem _ hrest))
    · rcases mem_assign hnew with ⟨_, _, htask⟩ | ⟨hgiven, _, htask⟩
      · cases htask
      · cases htask
        rcases account.given with hsame | hempty
        · exact hsame
        · exact absurd hempty hgiven
  given := account.given
  lookup := by
    intro h
    have hlookup : workers.pepper = "" ∧ workers.waiting ≠ [] ∨
        ∃ other, .getPepper other ∈ tasks := by
      rcases h with ⟨hempty, hmore⟩ | ⟨other, htask⟩
      · refine .inl ⟨hempty, ?_⟩
        intro hnone
        exact hmore (by simp [hnone])
      · rcases List.mem_append.mp htask with hrest | hnew
        · exact .inr ⟨other,
            taken.mem_iff.mpr (List.mem_cons_of_mem _ hrest)⟩
        · rcases mem_assign hnew with ⟨hempty, _⟩ | ⟨_, _, hinsert⟩
          · refine .inl ⟨hempty, ?_⟩
            intro hnone
            rw [hnone] at hnew
            cases hnew
          · cases hinsert
    exact account.lookup hlookup
  stored := by
    intro other h
    rw [Function.update_self]
    rcases List.mem_cons.mp h with hsame | hbefore
    · rw [hsame]
      exact List.mem_append_right _ (List.mem_singleton_self _)
    · exact List.mem_append_left _ (account.stored other hbefore)
  origin := by
    intro row hrow
    rw [Function.update_self] at hrow
    rcases List.mem_append.mp hrow with hold | hnew
    · rcases account.origin row hold with hinitial | ⟨other, hother, hsame⟩
      · exact .inl hinitial
      · exact .inr ⟨other, List.mem_cons_of_mem _ hother, hsame⟩
    · exact .inr ⟨args, List.mem_cons_self, List.mem_singleton.mp hnew⟩
  distinct := by
    rw [List.map_cons, List.nodup_cons]
    refine ⟨?_, account.distinct⟩
    intro h
    obtain ⟨other, hother, hsame⟩ := List.mem_map.mp h
    exact free _ (account.stored other hother) hsame
  conflicts := by
    intro other h
    rcases account.conflicts other h with hinitial | ⟨first, hfirst, hsame⟩
    · exact .inl hinitial
    · exact .inr ⟨first, List.mem_cons_of_mem _ hfirst, hsame⟩
  unresolved := by
    have hunresolved := account.unresolved
    have hlength := account.split.length_eq
    have htasks := taken.length_eq
    simp only [List.length_append, List.length_map, List.length_cons]
      at hlength htasks ⊢
    omega
  busy := by
    intro hmore
    cases hwaiting : workers.waiting with
    | nil =>
        rw [hwaiting] at hmore
        exact absurd rfl hmore
    | cons head tail =>
        have hbusy := account.busy (by simp [hwaiting])
        have htasks := taken.length_eq
        simp only [List.length_append, List.length_map, List.head?_cons,
          Option.toList_some, List.length_cons, List.length_nil]
          at htasks ⊢
        omega

theorem Account.unfinished (account : Account env pepper params Initial
      workers store tasks done failed) (under : tasks ≠ [] ∨ failed ≠ []) :
    done.length < params.length := by
  have hsplit := account.split.length_eq
  simp only [List.length_append, List.length_map] at hsplit
  rcases under with hunder | hunder
  · have hpositive := List.length_pos_iff.mpr hunder
    omega
  · have hpositive := List.length_pos_iff.mpr hunder
    omega

theorem Account.react (account : Account env pepper params Initial workers
      store tasks done failed)
    (taken : tasks.Perm (operation :: rest)) :
    ∃ done' failed', Account env pepper params Initial
        (workers.react env false store operation).workers
        (workers.react env false store operation).store
        (rest ++ (workers.react env false store operation).issued)
        done' failed' ∧
      ((workers.react env false store operation).verdict = .resolved ↔
        done'.length = params.length) ∧
      ((workers.react env false store operation).verdict = .rejected ∧
          failed' ≠ [] ∨
        (workers.react env false store operation).verdict ≠ .rejected ∧
          failed' = failed) := by
  have hunder : tasks ≠ [] :=
    List.ne_nil_of_mem (taken.mem_iff.mpr List.mem_cons_self)
  have hless := account.unfinished (.inl hunder)
  cases operation with
  | getPepper args =>
      obtain ⟨hreact, hafter⟩ := account.getPepper taken
      rw [hreact]
      refine ⟨done, failed, hafter, ?_, .inr ⟨by simp, rfl⟩⟩
      exact iff_of_false (by simp) (by omega)
  | insert args value =>
      have hvalue : value = pepper := account.inserts args value
        (taken.mem_iff.mpr List.mem_cons_self)
      subst hvalue
      rcases attempt_insertHash_healthy env (args.row env value) store with
        ⟨hrefused, hattempt⟩ | ⟨hfree, rows, hattempt⟩
      · have hreact : workers.react env false store (.insert args value) =
            { workers, store, issued := [], verdict := .rejected } := by
          simp only [Workers.react, hattempt]
        rw [hreact, List.append_nil]
        refine ⟨done, args :: failed, account.refuse taken hrefused, ?_,
          .inl ⟨rfl, List.cons_ne_nil _ _⟩⟩
        exact iff_of_false (by simp) (by omega)
      · have hreact : workers.react env false store (.insert args value) =
            workers.release (Function.update store .hashes
              (store .hashes ++ [args.row env value])) := by
          simp only [Workers.react, hattempt]
        rw [hreact]
        have hunresolved := account.unresolved
        refine ⟨args :: done, failed, account.release taken hfree, ?_,
          .inr ⟨?_, rfl⟩⟩
        · simp only [Workers.release, List.length_cons]
          split
          · exact iff_of_true rfl (by omega)
          · exact iff_of_false (by simp) (by omega)
        · simp only [Workers.release]
          split
          · simp
          · simp

/-- How many insertions are refused when the hashes are inserted one after the
other; `stored` are those that the table has. -/
def refusals (stored : List String) : List String → Nat
  | [] => 0
  | hash :: rest =>
      if hash ∈ stored then refusals stored rest + 1
      else refusals (hash :: stored) rest

theorem refusals_append_le (stored front back : List String) :
    refusals stored front ≤ refusals stored (front ++ back) := by
  induction front generalizing stored with
  | nil => exact Nat.zero_le _
  | cons hash rest ih =>
      rw [List.cons_append, refusals, refusals]
      split
      · exact Nat.add_le_add_right (ih stored) 1
      · exact ih (hash :: stored)

theorem exists_accepted (stored hashes : List String) :
    ∃ news : List String, news.Nodup ∧
      (∀ hash ∈ news, hash ∈ hashes ∧ hash ∉ stored) ∧
      news.length + refusals stored hashes = hashes.length := by
  induction hashes generalizing stored with
  | nil => exact ⟨[], List.nodup_nil, fun _ h => absurd h (by simp), rfl⟩
  | cons hash rest ih =>
      rw [refusals, List.length_cons]
      split
      · obtain ⟨news, hdistinct, hnews, hlength⟩ := ih stored
        refine ⟨news, hdistinct, ?_, by omega⟩
        intro other hother
        exact ⟨List.mem_cons_of_mem _ (hnews other hother).1,
          (hnews other hother).2⟩
      · rename_i hnew
        obtain ⟨news, hdistinct, hnews, hlength⟩ := ih (hash :: stored)
        refine ⟨hash :: news, ?_, ?_, by rw [List.length_cons]; omega⟩
        · rw [List.nodup_cons]
          refine ⟨?_, hdistinct⟩
          intro hmem
          exact (hnews hash hmem).2 List.mem_cons_self
        · intro other hother
          rcases List.mem_cons.mp hother with rfl | hmem
          · exact ⟨List.mem_cons_self, hnew⟩
          · obtain ⟨hlisted, hfree⟩ := hnews other hmem
            exact ⟨List.mem_cons_of_mem _ hlisted,
              fun h => hfree (List.mem_cons_of_mem _ h)⟩

/-- Whatever the order in which the tasks complete, no more of them fail than
one after the other. -/
theorem Account.failed_le (account : Account env pepper params Initial workers
      store [] done failed) {stored : List String}
    (initial : ∀ row, Initial row → row.hash ∈ stored) :
    ∃ started, params = started ++ workers.waiting ∧
      started.Perm (done ++ failed) ∧
      failed.length ≤
        refusals stored (started.map (·.digest env pepper)) := by
  obtain ⟨started, hparams, hstarted⟩ := account.order
  rw [List.map_nil, List.append_nil] at hstarted
  refine ⟨started, hparams, hstarted, ?_⟩
  obtain ⟨news, hdistinct, hnews, hlength⟩ :=
    exists_accepted stored (started.map (·.digest env pepper))
  have hsub : news ⊆ done.map (·.digest env pepper) := by
    intro hash hhash
    obtain ⟨hlisted, hfree⟩ := hnews hash hhash
    obtain ⟨args, hargs, rfl⟩ := List.mem_map.mp hlisted
    rcases List.mem_append.mp (hstarted.mem_iff.mp hargs) with hdone | hfailed
    · exact List.mem_map_of_mem hdone
    · rcases account.conflicts args hfailed with
        ⟨row, hrow, hsame⟩ | ⟨other, hother, hsame⟩
      · exact absurd (hsame ▸ initial row hrow) hfree
      · exact hsame ▸ List.mem_map_of_mem hother
  have hnewer := (List.subperm_of_subset hdistinct hsub).length_le
  have hall := hstarted.length_eq
  rw [List.length_map] at hlength hnewer
  rw [List.length_append] at hall
  omega

theorem Account.ended (account : Account env pepper params Initial workers
      store [] done failed) {stored : List String}
    (initial : ∀ row, Initial row → row.hash ∈ stored) {args : UpdateArgs}
    (hargs : args ∈ params)
    (left : ∀ front back, params = front ++ args :: back →
      refusals stored (front.map (·.digest env pepper)) < jobs) :
    args ∈ done ∨ args ∈ failed := by
  obtain ⟨started, hparams, hstarted, hfailed⟩ := account.failed_le initial
  rw [hparams] at hargs
  rcases List.mem_append.mp hargs with hmem | hwaiting
  · exact List.mem_append.mp (hstarted.mem_iff.mp hmem)
  · exfalso
    have hbusy := account.busy (List.ne_nil_of_mem hwaiting)
    rw [List.length_nil, Nat.zero_add] at hbusy
    obtain ⟨front, back, hsplit⟩ := List.append_of_mem hwaiting
    have hfew := left (started ++ front) back (by
      rw [hparams, hsplit, List.append_assoc])
    have hmono := refusals_append_le stored
      (started.map (·.digest env pepper)) (front.map (·.digest env pepper))
    rw [List.map_append] at hfew
    omega

end TwakeKickstart.IdentityServer
