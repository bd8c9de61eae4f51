import TwakeKickstart.IdentityServer.Cron.Directory
import TwakeKickstart.IdentityServer.Cron.RotationProgress
import TwakeKickstart.IdentityServer.Lookup.HashPool

namespace TwakeKickstart.IdentityServer

open Library Utils

/-! A rotation on a database without failures: what its workers have done, and
that nothing but a refused hash or an invalid `uid` keeps it from publishing. -/

/-- What a rotation works with. -/
structure RotationPlan where
  env : Environment
  conf : Config
  users : List UserRow
  entries : Option (List String)
  pepper : String
  previous : String
  newPepper : String

namespace RotationPlan

variable (plan : RotationPlan)

/-- The rows of the directory that are hashed. -/
def rows : List UserRow :=
  if plan.conf.isMatrixDbAvailable then
    filter plan.conf plan.users plan.entries
  else plan.users

structure Replies (outcome : Outcome) : Prop where
  healthy : outcome.fails = false
  users : outcome.users = plan.users
  entries : outcome.entries = plan.entries

/-- The new pepper is none of the two that are stored. -/
structure Draws : Prop where
  pepper : plan.pepper ≠ plan.newPepper
  previous : plan.previous ≠ plan.newPepper
  named : plan.newPepper ≠ ""

/-- The row has no hash of the directory under the new pepper. -/
def Old (row : HashRow) : Prop :=
  ∀ user ∈ plan.rows, ∀ field value, user.Has field value →
    row.hash ≠ plan.env.sha256 (addressText plan.newPepper field value)

/-- The new pepper is a random string, and the digest has no collisions: under
that pepper the hashes of the directory are new, and distinct. -/
structure FreshHashes (start : Store) : Prop where
  draws : plan.Draws
  stored : ∀ row ∈ start .hashes, plan.Old row
  distinct : ∀ user ∈ plan.rows, ∀ field value, user.Has field value →
    ∀ other ∈ plan.rows, ∀ kind same, other.Has kind same →
    plan.env.sha256 (addressText plan.newPepper field value) =
      plan.env.sha256 (addressText plan.newPepper kind same) →
    addressText plan.newPepper field value =
      addressText plan.newPepper kind same

end RotationPlan

def RotationOperation.task? : RotationOperation → Option HashOperation
  | hash task => some task
  | _ => none

def tasksOf (pending : List RotationOperation) : List HashOperation :=
  pending.filterMap RotationOperation.task?

/-- How far the hashing of the directory is. -/
inductive Stage (plan : RotationPlan) (Initial : HashRow → Prop)
    (loop : RotationLoop) : Prop
  | awaiting
      (directory : 0 < loop.pending.countP (·.isDirectory))
      (idle : tasksOf loop.pending = [])
      (unhashed : loop.vars.hashed = false)
      (accepted : loop.vars.rejected = false)
      (fresh : loop.vars.workers = ⟨"", [], 0⟩)
      (initial : ∀ row ∈ loop.vars.store .hashes, Initial row)
  | invalid
      (invalid : ∃ row ∈ plan.rows, ¬ ValidUid plan.conf row)
      (directory : loop.pending.countP (·.isDirectory) = 0)
      (idle : tasksOf loop.pending = [])
      (unhashed : loop.vars.hashed = false)
      (rejected : loop.vars.rejected = true)
      (initial : ∀ row ∈ loop.vars.store .hashes, Initial row)
  | hashing (data : UpdatableFields) (done failed : List UpdateArgs)
      (reduced : usersData plan.conf plan.rows = .ok data)
      (directory : loop.pending.countP (·.isDirectory) = 0)
      (account : Account plan.env plan.newPepper (updateParams data) Initial
        loop.vars.workers loop.vars.store (tasksOf loop.pending) done failed)
      (gives : loop.vars.workers.pepper = plan.newPepper ∨
        updateParams data = [])
      (inserting : ∀ args, .getPepper args ∉ tasksOf loop.pending)
      (hashed : loop.vars.hashed = true ↔
        done.length = (updateParams data).length)
      (rejected : loop.vars.rejected = true ↔ failed ≠ [])

structure Driven (plan : RotationPlan) (Initial : HashRow → Prop)
    (loop : RotationLoop) : Prop where
  chain : Chain loop
  named : loop.vars.newPepper = plan.newPepper
  keys : ∃ previous, loop.vars.store .keys =
      keyRows (if loop.vars.published then plan.newPepper else plan.pepper)
        previous ∧
    (previous = plan.previous ∨ previous = plan.pepper)
  copies : ∀ data, .setPreviousPepper data ∈ loop.pending →
    data = plan.pepper
  drops : ∀ data, .deleteOldHashes data ∈ loop.pending →
    data = plan.previous ∨ data = plan.pepper
  publishes : .publish ∈ loop.pending ∨ loop.vars.published = true →
    loop.vars.hashed = true
  matrix : ∀ rows, .getMatrixUsers rows ∈ loop.pending →
    rows = plan.users ∧ plan.conf.isMatrixDbAvailable = true
  stage : Stage plan Initial loop

section Tasks

variable {env : Environment} {pepper : String}
variable {params done failed : List UpdateArgs} {Initial : HashRow → Prop}
variable {workers : Workers} {store : Store}
variable {tasks others : List HashOperation}

theorem Account.perm (account : Account env pepper params Initial workers
      store tasks done failed) (same : tasks.Perm others) :
    Account env pepper params Initial workers store others done failed where
  order := by
    obtain ⟨started, hparams, hstarted⟩ := account.order
    exact ⟨started, hparams,
      hstarted.trans ((same.map (·.args)).append_left _)⟩
  inserts := fun args other h => account.inserts args other
    (same.mem_iff.mpr h)
  given := account.given
  lookup := by
    rintro (hempty | ⟨args, h⟩)
    · exact account.lookup (.inl hempty)
    · exact account.lookup (.inr ⟨args, same.mem_iff.mpr h⟩)
  stored := account.stored
  origin := account.origin
  distinct := account.distinct
  conflicts := account.conflicts
  unresolved := account.unresolved
  busy := by
    intro hwaiting
    rw [← same.length_eq]
    exact account.busy hwaiting

theorem tasksOf_append (first second : List RotationOperation) :
    tasksOf (first ++ second) = tasksOf first ++ tasksOf second :=
  List.filterMap_append

theorem tasksOf_hashes (tasks : List HashOperation) :
    tasksOf (tasks.map .hash) = tasks := by
  unfold tasksOf
  rw [List.filterMap_map]
  exact List.filterMap_some

theorem tasksOf_perm {first second : List RotationOperation}
    (same : first.Perm second) : (tasksOf first).Perm (tasksOf second) :=
  same.filterMap _

end Tasks

/-! What is under way besides the hashing changes none of it. -/

/-- An operation that is no part of the hashing. -/
structure Aside (plan : RotationPlan) (before after : Rotation)
    (operation : RotationOperation) (issued : List RotationOperation) :
    Prop where
  task : operation.task? = none
  tasks : tasksOf issued = []
  directory : issued.countP (·.isDirectory) =
    if operation.isDirectory then 1 else 0
  newPepper : after.newPepper = before.newPepper
  workers : after.workers = before.workers
  hashed : after.hashed = before.hashed
  rejected : after.rejected = before.rejected
  kept : ∀ row ∈ before.store .hashes, row.pepper = plan.newPepper →
    row ∈ after.store .hashes
  origin : ∀ row ∈ after.store .hashes, row ∈ before.store .hashes
  keys : ∃ previous, after.store .keys =
      keyRows (if after.published then plan.newPepper else plan.pepper)
        previous ∧
    (previous = plan.previous ∨ previous = plan.pepper)
  copies : ∀ data, .setPreviousPepper data ∈ issued → data = plan.pepper
  drops : ∀ data, .deleteOldHashes data ∈ issued →
    data = plan.previous ∨ data = plan.pepper
  publishes : .publish ∈ issued ∨ after.published = true →
    before.hashed = true
  matrix : ∀ rows, .getMatrixUsers rows ∈ issued →
    rows = plan.users ∧ plan.conf.isMatrixDbAvailable = true

section Steps

variable {plan : RotationPlan} {Initial : HashRow → Prop}
variable {before after : RotationLoop} {outcome : Outcome}
variable {operation : RotationOperation} {rest : List RotationOperation}

theorem Stage.keep (stage : Stage plan Initial before) (draws : plan.Draws)
    (tasks : (tasksOf before.pending).Perm (tasksOf after.pending))
    (directory : after.pending.countP (·.isDirectory) =
      before.pending.countP (·.isDirectory))
    (workers : after.vars.workers = before.vars.workers)
    (hashed : after.vars.hashed = before.vars.hashed)
    (rejected : after.vars.rejected = before.vars.rejected)
    (kept : ∀ row ∈ before.vars.store .hashes, row.pepper = plan.newPepper →
      row ∈ after.vars.store .hashes)
    (origin : ∀ row ∈ after.vars.store .hashes,
      row ∈ before.vars.store .hashes ∨ Initial row) :
    Stage plan Initial after := by
  have hinitial : (∀ row ∈ before.vars.store .hashes, Initial row) →
      ∀ row ∈ after.vars.store .hashes, Initial row := by
    intro hbefore row hrow
    rcases origin row hrow with hold | hnew
    · exact hbefore row hold
    · exact hnew
  cases stage with
  | awaiting hdirectory hidle hunhashed haccepted hfresh hrows =>
      refine .awaiting ?_ ?_ ?_ ?_ ?_ (hinitial hrows)
      · rw [directory]
        exact hdirectory
      · rw [hidle] at tasks
        exact tasks.nil_eq.symm
      · exact hashed.trans hunhashed
      · exact rejected.trans haccepted
      · exact workers.trans hfresh
  | invalid hinvalid hdirectory hidle hunhashed hrejected hrows =>
      refine .invalid hinvalid ?_ ?_ ?_ ?_ (hinitial hrows)
      · exact directory.trans hdirectory
      · rw [hidle] at tasks
        exact tasks.nil_eq.symm
      · exact hashed.trans hunhashed
      · exact rejected.trans hrejected
  | hashing data done failed hreduced hdirectory account hgives hinserting
      hhashed hrejected =>
      have hlookup : (before.vars.workers.pepper = "" ∧
          before.vars.workers.waiting ≠ [] ∨
          ∃ args, .getPepper args ∈ tasksOf before.pending) →
          ∃ previous, after.vars.store .keys =
            keyRows plan.newPepper previous := by
        rintro (⟨hempty, hwaiting⟩ | ⟨args, htask⟩)
        · rcases hgives with hnew | hnone
          · exact absurd (hnew.symm.trans hempty) draws.named
          · have hsplit := account.split
            rw [hnone] at hsplit
            have hnil := hsplit.nil_eq.symm
            simp only [List.append_eq_nil_iff] at hnil
            exact absurd hnil.2 hwaiting
        · exact absurd htask (hinserting args)
      have haccount := account.frame
        (fun args hargs => kept _ (account.stored args hargs) rfl)
        origin hlookup
      refine .hashing data done failed hreduced (directory.trans hdirectory)
        ?_ ?_ ?_ ?_ ?_
      · rw [workers]
        exact haccount.perm tasks
      · rw [workers]
        exact hgives
      · intro args h
        exact hinserting args (tasks.mem_iff.mpr h)
      · rw [hashed]
        exact hhashed
      · rw [rejected]
        exact hrejected

theorem tasksOf_cons {task : Option HashOperation}
    (h : operation.task? = task) (pending : List RotationOperation) :
    tasksOf (operation :: pending) = task.toList ++ tasksOf pending := by
  unfold tasksOf
  rw [List.filterMap_cons, h]
  cases task with
  | none => rfl
  | some task => rfl

theorem Driven.aside (driven : Driven plan Initial before)
    (draws : plan.Draws)
    (completes : Loop.Completes (Rotation.react plan.env plan.conf) before
      outcome operation rest after)
    (aside : Aside plan before.vars
      (Rotation.react plan.env plan.conf outcome operation before.vars).1
      operation
      (Rotation.react plan.env plan.conf outcome operation before.vars).2) :
    Driven plan Initial after := by
  have hchain : Chain after := by
    obtain ⟨previous, hkeys, _⟩ := driven.keys
    exact chain_complete driven.chain hkeys completes
  rw [← completes.vars] at aside
  have htasks : (tasksOf before.pending).Perm (tasksOf after.pending) := by
    rw [completes.issued, tasksOf_append, aside.tasks, List.append_nil]
    have htaken := tasksOf_perm completes.pending
    rw [tasksOf_cons aside.task] at htaken
    exact htaken
  have hdirectory := completes.countP_balance (·.isDirectory)
  rw [aside.directory, Nat.add_right_cancel_iff] at hdirectory
  refine ⟨hchain, aside.newPepper.trans driven.named, aside.keys, ?_, ?_, ?_,
    ?_, ?_⟩
  · intro data h
    rcases completes.mem_after h with ⟨_, hbefore⟩ | hissued
    · exact driven.copies data hbefore
    · exact aside.copies data hissued
  · intro data h
    rcases completes.mem_after h with ⟨_, hbefore⟩ | hissued
    · exact driven.drops data hbefore
    · exact aside.drops data hissued
  · intro h
    rw [aside.hashed]
    rcases h with hpublish | hpublished
    · rcases completes.mem_after hpublish with ⟨_, hbefore⟩ | hissued
      · exact driven.publishes (.inl hbefore)
      · exact aside.publishes (.inl hissued)
    · exact aside.publishes (.inr hpublished)
  · intro rows h
    rcases completes.mem_after h with ⟨_, hbefore⟩ | hissued
    · exact driven.matrix rows hbefore
    · exact aside.matrix rows hissued
  · exact driven.stage.keep draws htasks hdirectory aside.workers aside.hashed
      aside.rejected aside.kept fun row hrow => .inl (aside.origin row hrow)

theorem Driven.unpublished (driven : Driven plan Initial before)
    (directory : 0 < before.pending.countP (·.isDirectory)) :
    before.vars.hashed = false ∧ before.vars.published = false := by
  have hhashed : before.vars.hashed = false := by
    cases driven.stage with
    | awaiting _ _ hunhashed _ _ _ => exact hunhashed
    | invalid _ hdirectory _ _ _ _ => omega
    | hashing _ _ _ _ hdirectory _ _ _ _ _ => omega
  refine ⟨hhashed, ?_⟩
  cases hpublished : before.vars.published with
  | false => rfl
  | true =>
      have h := driven.publishes (.inr hpublished)
      rw [hhashed] at h
      cases h

theorem aside_getPreviousPepper (driven : Driven plan Initial before) :
    Aside plan before.vars
      (Rotation.react plan.env plan.conf outcome .getPreviousPepper
        before.vars).1 .getPreviousPepper
      (Rotation.react plan.env plan.conf outcome .getPreviousPepper
        before.vars).2 := by
  obtain ⟨previous, hkeys, hprevious⟩ := driven.keys
  rw [Rotation.react_getPreviousPepper hkeys]
  dsimp only
  refine ⟨rfl, ?_, ?_, rfl, rfl, rfl, rfl, fun _ h _ => h, fun _ h => h,
    ⟨previous, hkeys, hprevious⟩, ?_, ?_, ?_, ?_⟩
  · split
    · rfl
    · rfl
  · split
    · rfl
    · rfl
  · intro data h
    split at h
    · cases List.mem_singleton.mp h
    · cases h
  · intro data h
    split at h
    · cases List.mem_singleton.mp h
      exact hprevious
    · cases h
  · rintro (h | hpublished)
    · split at h
      · cases List.mem_singleton.mp h
      · cases h
    · exact driven.publishes (.inr hpublished)
  · intro rows h
    split at h
    · cases List.mem_singleton.mp h
    · cases h

theorem aside_deleteOldHashes (driven : Driven plan Initial before)
    (draws : plan.Draws) {data : String}
    (under : .deleteOldHashes data ∈ before.pending) :
    Aside plan before.vars
      (Rotation.react plan.env plan.conf outcome (.deleteOldHashes data)
        before.vars).1 (.deleteOldHashes data)
      (Rotation.react plan.env plan.conf outcome (.deleteOldHashes data)
        before.vars).2 := by
  have hother : plan.newPepper ≠ data := by
    rcases driven.drops data under with rfl | rfl
    · exact draws.previous.symm
    · exact draws.pepper.symm
  have hpublishes := fun hpublished => driven.publishes (.inr hpublished)
  rcases Rotation.react_deleteOldHashes plan.env plan.conf outcome data
      before.vars with hreact | hreact
  · rw [hreact]
    exact ⟨rfl, rfl, rfl, rfl, rfl, rfl, rfl, fun _ h _ => h, fun _ h => h,
      driven.keys, by simp, by simp, by simpa using hpublishes, by simp⟩
  · rw [hreact]
    refine ⟨rfl, rfl, rfl, rfl, rfl, rfl, rfl, ?_, ?_, driven.keys, by simp,
      by simp, by simpa using hpublishes, by simp⟩
    · intro row hrow hpepper
      refine List.mem_filter.mpr ⟨hrow, ?_⟩
      rw [hpepper]
      simpa using hother
    · exact fun row hrow => (List.mem_filter.mp hrow).1

theorem aside_getPepper (driven : Driven plan Initial before)
    (under : .getPepper ∈ before.pending) (healthy : outcome.fails = false) :
    Aside plan before.vars
      (Rotation.react plan.env plan.conf outcome .getPepper before.vars).1
      .getPepper
      (Rotation.react plan.env plan.conf outcome .getPepper
        before.vars).2 := by
  obtain ⟨_, hpublished⟩ := driven.unpublished
    (List.countP_pos_iff.mpr ⟨_, under, rfl⟩)
  obtain ⟨previous, hkeys, hprevious⟩ := driven.keys
  rw [hpublished] at hkeys
  rw [Rotation.react_getPepper hkeys, healthy]
  refine ⟨rfl, rfl, rfl, rfl, rfl, rfl, rfl, fun _ h _ => h, fun _ h => h,
    ⟨previous, ?_, hprevious⟩, ?_, by simp, ?_, by simp⟩
  · simp only [Bool.false_eq_true, if_false, hpublished]
    exact hkeys
  · intro data h
    simpa using h
  · simp [hpublished]

theorem aside_setPreviousPepper (driven : Driven plan Initial before)
    {data : String} (under : .setPreviousPepper data ∈ before.pending)
    (healthy : outcome.fails = false) :
    Aside plan before.vars
      (Rotation.react plan.env plan.conf outcome (.setPreviousPepper data)
        before.vars).1 (.setPreviousPepper data)
      (Rotation.react plan.env plan.conf outcome (.setPreviousPepper data)
        before.vars).2 := by
  obtain ⟨previous, hkeys, _⟩ := driven.keys
  have hdata := driven.copies data under
  have hhashes : (Function.update before.vars.store .keys (keyRows
      (if before.vars.published then plan.newPepper else plan.pepper) data))
      .hashes = before.vars.store .hashes :=
    Function.update_of_ne (by decide) _ _
  rw [Rotation.react_setPreviousPepper_healthy hkeys healthy]
  refine ⟨rfl, ?_, ?_, rfl, rfl, rfl, rfl, ?_, ?_, ⟨data, rfl, .inr hdata⟩,
    ?_, ?_, ?_, ?_⟩
  · rw [Rotation.settle]
    dsimp only
    split
    · rfl
    · rfl
  · exact countP_settle _ rfl
  · intro row hrow _
    exact hhashes.symm ▸ hrow
  · intro row hrow
    exact hhashes ▸ hrow
  · intro other h
    cases (Rotation.mem_settle h).1
  · intro other h
    cases (Rotation.mem_settle h).1
  · rintro (h | hpublished)
    · exact (Rotation.mem_settle h).2.2
    · exact driven.publishes (.inr hpublished)
  · intro rows h
    cases (Rotation.mem_settle h).1

theorem aside_publish (driven : Driven plan Initial before)
    (under : .publish ∈ before.pending) (healthy : outcome.fails = false) :
    Aside plan before.vars
      (Rotation.react plan.env plan.conf outcome .publish before.vars).1
      .publish
      (Rotation.react plan.env plan.conf outcome .publish before.vars).2 := by
  obtain ⟨previous, hkeys, hprevious⟩ := driven.keys
  have hhashes : (Function.update before.vars.store .keys
      (keyRows before.vars.newPepper previous)) .hashes =
      before.vars.store .hashes :=
    Function.update_of_ne (by decide) _ _
  rw [Rotation.react_publish_healthy hkeys healthy]
  refine ⟨rfl, rfl, rfl, rfl, rfl, rfl, rfl, ?_, ?_,
    ⟨previous, ?_, hprevious⟩, by simp, by simp, ?_, by simp⟩
  · intro row hrow _
    exact hhashes.symm ▸ hrow
  · intro row hrow
    exact hhashes ▸ hrow
  · dsimp only
    rw [Function.update_self, driven.named]
    rfl
  · exact fun _ => driven.publishes (.inl under)

theorem aside_getUsers (driven : Driven plan Initial before)
    (under : .getUsers ∈ before.pending) (replies : plan.Replies outcome)
    (available : plan.conf.isMatrixDbAvailable = true) :
    Aside plan before.vars
      (Rotation.react plan.env plan.conf outcome .getUsers before.vars).1
      .getUsers
      (Rotation.react plan.env plan.conf outcome .getUsers
        before.vars).2 := by
  have hreact : Rotation.react plan.env plan.conf outcome .getUsers
      before.vars = (before.vars, [.getMatrixUsers outcome.users]) := by
    simp [Rotation.react, replies.healthy, available]
  obtain ⟨_, hpublished⟩ := driven.unpublished
    (List.countP_pos_iff.mpr ⟨_, under, rfl⟩)
  rw [hreact]
  refine ⟨rfl, rfl, rfl, rfl, rfl, rfl, rfl, fun _ h _ => h, fun _ h => h,
    driven.keys, by simp, by simp, ?_, ?_⟩
  · simp [hpublished]
  · intro rows h
    cases List.mem_singleton.mp h
    exact ⟨replies.users, available⟩

/-! The hashing itself. -/

/-- A step of the hashing moves the keys on no further; it may ask for the
publication once everything is hashed. -/
theorem Driven.advance (driven : Driven plan Initial before)
    (completes : Loop.Completes (Rotation.react plan.env plan.conf) before
      outcome operation rest after)
    (unhashed : before.vars.hashed = false)
    (newPepper : after.vars.newPepper = before.vars.newPepper)
    (keys : after.vars.store .keys = before.vars.store .keys)
    (published : after.vars.published = before.vars.published)
    (issues : ∀ issued ∈ (Rotation.react plan.env plan.conf outcome operation
        before.vars).2,
      (issued = .publish ∧ after.vars.hashed = true) ∨
        ∃ task, issued = .hash task)
    (stage : Stage plan Initial after) : Driven plan Initial after := by
  have hpending : ∀ other ∈ after.pending, other ∈ before.pending ∨
      (other = .publish ∧ after.vars.hashed = true) ∨
        ∃ task, other = .hash task := by
    intro other h
    rcases completes.mem_after h with ⟨_, hbefore⟩ | hissued
    · exact .inl hbefore
    · exact .inr (issues other hissued)
  have hearly : ¬ (.publish ∈ before.pending ∨
      before.vars.published = true) := by
    intro h
    have hhashed := driven.publishes h
    rw [unhashed] at hhashed
    cases hhashed
  refine ⟨?_, newPepper.trans driven.named, ?_, ?_, ?_, ?_, ?_, stage⟩
  · obtain ⟨previous, hkeys, _⟩ := driven.keys
    exact chain_complete driven.chain hkeys completes
  · rw [keys, published]
    exact driven.keys
  · intro data h
    rcases hpending _ h with hbefore | ⟨hother, _⟩ | ⟨_, hother⟩
    · exact driven.copies data hbefore
    · cases hother
    · cases hother
  · intro data h
    rcases hpending _ h with hbefore | ⟨hother, _⟩ | ⟨_, hother⟩
    · exact driven.drops data hbefore
    · cases hother
    · cases hother
  · rintro (h | h)
    · rcases hpending _ h with hbefore | ⟨_, hhashed⟩ | ⟨_, hother⟩
      · exact absurd (.inl hbefore) hearly
      · exact hhashed
      · cases hother
    · rw [published] at h
      exact absurd (.inr h) hearly
  · intro rows h
    rcases hpending _ h with hbefore | ⟨hother, _⟩ | ⟨_, hother⟩
    · exact driven.matrix rows hbefore
    · cases hother
    · cases hother

/-- What is so before the directory is known. -/
structure Unstarted (Initial : HashRow → Prop) (vars : Rotation)
    (rest : List RotationOperation) : Prop where
  idle : tasksOf rest = []
  hashed : vars.hashed = false
  rejected : vars.rejected = false
  workers : vars.workers = ⟨"", [], 0⟩
  initial : ∀ row ∈ vars.store .hashes, Initial row

theorem Driven.unstarted (driven : Driven plan Initial before)
    (completes : Loop.Completes (Rotation.react plan.env plan.conf) before
      outcome operation rest after)
    (directory : operation.isDirectory = true)
    (noTask : operation.task? = none) :
    Unstarted Initial before.vars rest ∧
      after.pending.countP (·.isDirectory) =
        (Rotation.react plan.env plan.conf outcome operation
          before.vars).2.countP (·.isDirectory) := by
  have hpositive : 0 < before.pending.countP (·.isDirectory) :=
    List.countP_pos_iff.mpr ⟨operation, completes.mem_pending, directory⟩
  have hsingle := driven.chain.single
  have hbalance := completes.countP_balance (·.isDirectory)
  rw [directory, if_pos rfl] at hbalance
  refine ⟨?_, by omega⟩
  cases driven.stage with
  | awaiting _ hidle hunhashed haccepted hfresh hinitial =>
      have hrest : tasksOf rest = [] := by
        have htaken := tasksOf_perm completes.pending
        rw [tasksOf_cons noTask, hidle] at htaken
        exact htaken.nil_eq.symm
      exact ⟨hrest, hunhashed, haccepted, hfresh, hinitial⟩
  | invalid _ hnone _ _ _ _ => omega
  | hashing _ _ _ _ hnone _ _ _ _ _ => omega

theorem Stage.nothing {loop : RotationLoop} {data : UpdatableFields}
    (reduced : usersData plan.conf plan.rows = .ok data)
    (empty : updateParams data = [])
    (directory : loop.pending.countP (·.isDirectory) = 0)
    (idle : tasksOf loop.pending = [])
    (hashed : loop.vars.hashed = true) (accepted : loop.vars.rejected = false)
    (fresh : loop.vars.workers = ⟨"", [], 0⟩)
    (initial : ∀ row ∈ loop.vars.store .hashes, Initial row) :
    Stage plan Initial loop := by
  refine .hashing data [] [] reduced directory ?_ (.inr empty) ?_ ?_ ?_
  · rw [idle, empty, fresh]
    exact Account.none plan.env plan.newPepper initial ⟨rfl, rfl⟩ (.inr rfl)
  · rw [idle]
    exact fun _ => List.not_mem_nil
  · rw [empty]
    exact iff_of_true hashed rfl
  · exact iff_of_false (by simp [accepted]) (fun h => h rfl)

theorem Stage.started {loop : RotationLoop} {data : UpdatableFields}
    (draws : plan.Draws) (reduced : usersData plan.conf plan.rows = .ok data)
    (params : updateParams data ≠ [])
    (directory : loop.pending.countP (·.isDirectory) = 0)
    (tasks : tasksOf loop.pending =
      (Workers.start plan.newPepper (updateParams data)).2)
    (workers : loop.vars.workers =
      (Workers.start plan.newPepper (updateParams data)).1)
    (unhashed : loop.vars.hashed = false)
    (accepted : loop.vars.rejected = false)
    (initial : ∀ row ∈ loop.vars.store .hashes, Initial row) :
    Stage plan Initial loop := by
  refine .hashing data [] [] reduced directory ?_ ?_ ?_ ?_ ?_
  · rw [tasks, workers]
    exact Account.start (updateParams data) Initial plan.newPepper
      (.inl rfl) (fun h => absurd h draws.named) initial
  · rw [workers]
    exact .inl rfl
  · rw [tasks]
    intro args h
    rcases mem_assign h with ⟨hempty, _⟩ | ⟨_, _, htask⟩
    · exact draws.named hempty
    · cases htask
  · refine iff_of_false (by simp [unhashed]) ?_
    intro h
    exact params (List.eq_nil_of_length_eq_zero h.symm)
  · exact iff_of_false (by simp [accepted]) (fun h => h rfl)

theorem tasksOf_settle (rotation : Rotation) :
    tasksOf rotation.settle.2 = [] := by
  unfold Rotation.settle
  dsimp only
  split
  · rfl
  · rfl

theorem Driven.onUsers (driven : Driven plan Initial before)
    (draws : plan.Draws)
    (completes : Loop.Completes (Rotation.react plan.env plan.conf) before
      outcome operation rest after)
    (users : operation = .getUsers ∨ ∃ rows, operation = .getMatrixUsers rows)
    (reaction : Rotation.react plan.env plan.conf outcome operation
      before.vars = before.vars.onUsers plan.conf plan.rows) :
    Driven plan Initial after := by
  obtain ⟨hdirectory, hnoTask⟩ : operation.isDirectory = true ∧
      operation.task? = none := by
    rcases users with rfl | ⟨rows, rfl⟩
    · exact ⟨rfl, rfl⟩
    · exact ⟨rfl, rfl⟩
  obtain ⟨unstarted, hcount⟩ :=
    driven.unstarted completes hdirectory hnoTask
  have hvars := completes.vars
  have hissued := completes.issued
  rw [reaction] at hcount hvars hissued
  rcases Rotation.onUsers_cases plan.conf before.vars plan.rows with
    ⟨error, herror, hreject⟩ | ⟨data, hdata, ⟨hempty, hsettle⟩ |
      ⟨hparams, hstart⟩⟩
  · rw [hreject] at hcount hvars hissued
    refine driven.advance completes unstarted.hashed (by rw [hvars]; rfl)
      (by rw [hvars]; rfl) (by rw [hvars]; rfl) ?_ ?_
    · rw [reaction, hreject]
      exact fun _ h => absurd h List.not_mem_nil
    have hinvalid : ∃ row ∈ plan.rows, ¬ ValidUid plan.conf row := by
      by_contra hall
      push Not at hall
      obtain ⟨data, hdata⟩ := (usersData_ok_iff plan.conf plan.rows).mpr hall
      rw [herror] at hdata
      cases hdata
    refine .invalid hinvalid hcount ?_ ?_ ?_ ?_
    · rw [hissued, tasksOf_append, unstarted.idle]
      rfl
    · rw [hvars]
      exact unstarted.hashed
    · rw [hvars]
      rfl
    · rw [hvars]
      exact unstarted.initial
  · rw [hsettle] at hcount hvars hissued
    rw [countP_settle _ rfl] at hcount
    have hhashed : after.vars.hashed = true := by
      rw [hvars]
      rfl
    refine driven.advance completes unstarted.hashed (by rw [hvars]; rfl)
      (by rw [hvars]; rfl) (by rw [hvars]; rfl) ?_
      (Stage.nothing hdata hempty hcount ?_ hhashed ?_ ?_ ?_)
    · rw [reaction, hsettle]
      exact fun issued h => .inl ⟨(Rotation.mem_settle h).1, hhashed⟩
    · rw [hissued, tasksOf_append, unstarted.idle, tasksOf_settle]
      rfl
    · rw [hvars]
      exact unstarted.rejected
    · rw [hvars]
      exact unstarted.workers
    · rw [hvars]
      exact unstarted.initial
  · rw [hstart] at hcount hvars hissued
    rw [(countP_hashes _).2] at hcount
    refine driven.advance completes unstarted.hashed (by rw [hvars])
      (by rw [hvars]) (by rw [hvars]) ?_
      (Stage.started draws hdata hparams hcount ?_ ?_ ?_ ?_ ?_)
    · rw [reaction, hstart]
      intro issued h
      obtain ⟨task, _, rfl⟩ := List.mem_map.mp h
      exact .inr ⟨task, rfl⟩
    · rw [hissued, tasksOf_append, unstarted.idle, tasksOf_hashes,
        driven.named]
      rfl
    · rw [hvars, driven.named]
    · rw [hvars]
      exact unstarted.hashed
    · rw [hvars]
      exact unstarted.rejected
    · rw [hvars]
      exact unstarted.initial

/-- What a worker's step makes of the tasks, the store and the pool. -/
structure Stepped (plan : RotationPlan) (Initial : HashRow → Prop)
    (before : RotationLoop) (rest : List RotationOperation)
    (step : HashStep) (data : UpdatableFields)
    (done failed : List UpdateArgs) : Prop where
  reduced : usersData plan.conf plan.rows = .ok data
  directory : before.pending.countP (·.isDirectory) = 0
  unhashed : before.vars.hashed = false
  account : Account plan.env plan.newPepper (updateParams data) Initial
    step.workers step.store (tasksOf rest ++ step.issued) done failed
  pepper : step.workers.pepper = plan.newPepper
  keys : step.store .keys = before.vars.store .keys
  inserting : ∀ args, .getPepper args ∉ tasksOf rest ++ step.issued
  resolved : step.verdict = .resolved ↔
    done.length = (updateParams data).length
  refused : step.verdict = .rejected → step.issued = [] ∧ failed ≠ []
  accepted : step.verdict ≠ .rejected →
    (before.vars.rejected = true ↔ failed ≠ [])

theorem Driven.stepped (driven : Driven plan Initial before)
    (draws : plan.Draws) {task : HashOperation}
    (completes : Loop.Completes (Rotation.react plan.env plan.conf) before
      outcome (.hash task) rest after) :
    ∃ data done failed, Stepped plan Initial before rest
      (before.vars.workers.react plan.env false before.vars.store task)
      data done failed := by
  have hmem : task ∈ tasksOf before.pending :=
    List.mem_filterMap.mpr ⟨.hash task, completes.mem_pending, rfl⟩
  have htaken : (tasksOf before.pending).Perm (task :: tasksOf rest) :=
    tasksOf_perm completes.pending
  have hstore := @Workers.react_store plan.env before.vars.store
    before.vars.workers false task
  cases driven.stage with
  | awaiting _ hidle _ _ _ _ =>
      rw [hidle] at hmem
      cases hmem
  | invalid _ _ hidle _ _ _ =>
      rw [hidle] at hmem
      cases hmem
  | hashing data done failed hreduced hnone account hgives hinserting hhashed
      hrejected =>
      obtain ⟨args, value, rfl⟩ : ∃ args value, task = .insert args value := by
        cases task with
        | getPepper args => exact absurd hmem (hinserting args)
        | insert args value => exact ⟨args, value, rfl⟩
      obtain ⟨hpepper, hnext, hrefused⟩ := Workers.react_insert plan.env
        false before.vars.workers before.vars.store args value
      obtain ⟨done', failed', haccount, hresolved, hverdict⟩ :=
        account.react htaken
      have hless := account.unfinished (.inl (List.ne_nil_of_mem hmem))
      have hgiven : before.vars.workers.pepper = plan.newPepper := by
        rcases hgives with hnew | hempty
        · exact hnew
        · rw [hempty] at hless
          exact absurd hless (Nat.not_lt_zero _)
      refine ⟨data, done', failed', hreduced, hnone, ?_, haccount,
        hpepper.trans hgiven, ?_, ?_, hresolved, ?_, ?_⟩
      · rw [← Bool.not_eq_true, hhashed]
        omega
      · rcases hstore with hsame | ⟨row, hsame⟩
        · rw [hsame]
        · rw [hsame]
          exact Function.update_of_ne (by decide) _ _
      · intro other h
        rcases List.mem_append.mp h with hrest | hnew
        · exact hinserting other
            (htaken.mem_iff.mpr (List.mem_cons_of_mem _ hrest))
        · obtain ⟨next, _, hassign⟩ := hnext _ hnew
          rw [hgiven, Workers.assign, if_neg draws.named] at hassign
          cases hassign
      · intro hends
        refine ⟨hrefused hends, ?_⟩
        rcases hverdict with ⟨_, hfailed⟩ | ⟨haccepts, _⟩
        · exact hfailed
        · exact absurd hends haccepts
      · intro haccepts
        rcases hverdict with ⟨hrejects, _⟩ | ⟨_, hsame⟩
        · exact absurd hrejects haccepts
        · rw [hsame]
          exact hrejected

theorem Stepped.stage {step : HashStep} {data : UpdatableFields}
    {done failed : List UpdateArgs}
    (stepped : Stepped plan Initial before rest step data done failed)
    {loop : RotationLoop} (store : loop.vars.store = step.store)
    (workers : loop.vars.workers = step.workers)
    (tasks : tasksOf loop.pending = tasksOf rest ++ step.issued)
    (directory : loop.pending.countP (·.isDirectory) =
      before.pending.countP (·.isDirectory))
    (hashed : loop.vars.hashed = true ↔ step.verdict = .resolved)
    (rejected : loop.vars.rejected = true ↔ failed ≠ []) :
    Stage plan Initial loop := by
  refine .hashing data done failed stepped.reduced
    (directory.trans stepped.directory) ?_ (.inl ?_) ?_
    (hashed.trans stepped.resolved) rejected
  · rw [tasks, store, workers]
    exact stepped.account
  · rw [workers]
    exact stepped.pepper
  · rw [tasks]
    exact stepped.inserting

theorem Driven.hash (driven : Driven plan Initial before)
    (draws : plan.Draws) {task : HashOperation}
    (completes : Loop.Completes (Rotation.react plan.env plan.conf) before
      outcome (.hash task) rest after)
    (healthy : outcome.fails = false) : Driven plan Initial after := by
  obtain ⟨data, done, failed, stepped⟩ := driven.stepped draws completes
  have hvars := completes.vars
  have hissued := completes.issued
  have hdirectory := completes.countP_balance (·.isDirectory)
  change _ + 0 = _ at hdirectory
  simp only [Rotation.react, healthy] at hvars hissued hdirectory
  generalize hstep : before.vars.workers.react plan.env false
    before.vars.store task = step at *
  have hreaction : Rotation.react plan.env plan.conf outcome (.hash task)
      before.vars = before.vars.onHashStep step := by
    simp only [Rotation.react, healthy, hstep]
  rcases Rotation.onHashStep_cases before.vars step with
    ⟨hgoing, hreact⟩ | ⟨hends, hreact⟩ | ⟨hends, hreact⟩
  · rw [hreact] at hvars hissued hdirectory
    rw [(countP_hashes _).2] at hdirectory
    refine driven.advance completes stepped.unhashed (by rw [hvars]; rfl) ?_
      (by rw [hvars]; rfl) ?_ (stepped.stage (by rw [hvars]; rfl)
        (by rw [hvars]; rfl) ?_ (by omega) ?_ ?_)
    · rw [hvars]
      exact stepped.keys
    · rw [hreaction, hreact]
      intro issued h
      obtain ⟨later, _, rfl⟩ := List.mem_map.mp h
      exact .inr ⟨later, rfl⟩
    · rw [hissued, tasksOf_append, tasksOf_hashes]
    · rw [hvars, hgoing]
      exact iff_of_false (by simp [Rotation.afterHash, stepped.unhashed])
        (fun h => by cases h)
    · rw [hvars]
      exact stepped.accepted (by simp [hgoing])
  · rw [hreact] at hvars hissued hdirectory
    rw [countP_settle _ rfl] at hdirectory
    have hnothing : tasksOf rest ++ step.issued = [] := by
      by_contra hmore
      have hless := stepped.account.unfinished (.inl hmore)
      have hdone := stepped.resolved.mp hends
      omega
    refine driven.advance completes stepped.unhashed (by rw [hvars]; rfl) ?_
      (by rw [hvars]; rfl) ?_ (stepped.stage (by rw [hvars]; rfl)
        (by rw [hvars]; rfl) ?_ (by omega) ?_ ?_)
    · rw [hvars]
      exact stepped.keys
    · rw [hreaction, hreact]
      intro issued h
      refine .inl ⟨(Rotation.mem_settle h).1, ?_⟩
      rw [hvars]
      rfl
    · rw [hnothing, hissued, tasksOf_append,
        (List.append_eq_nil_iff.mp hnothing).1, tasksOf_settle]
      rfl
    · rw [hvars]
      exact iff_of_true rfl hends
    · rw [hvars]
      exact stepped.accepted (by simp [hends])
  · rw [hreact] at hvars hissued hdirectory
    change _ = _ + 0 at hdirectory
    obtain ⟨hnothing, hfailed⟩ := stepped.refused hends
    refine driven.advance completes stepped.unhashed (by rw [hvars]; rfl) ?_
      (by rw [hvars]; rfl) ?_ (stepped.stage (by rw [hvars]; rfl)
        (by rw [hvars]; rfl) ?_ (by omega) ?_ ?_)
    · rw [hvars]
      exact stepped.keys
    · rw [hreaction, hreact]
      exact fun _ h => absurd h List.not_mem_nil
    · rw [hissued, tasksOf_append, hnothing]
      rfl
    · rw [hvars, hends]
      exact iff_of_false (by simp [Rotation.afterHash, Rotation.reject,
        stepped.unhashed]) (fun h => by cases h)
    · rw [hvars]
      exact iff_of_true rfl hfailed

end Steps

/-! A whole rotation. -/

/-- The operations of a rotation that no failure disturbs, with directories
that do not change. -/
abbrev HealthyRun (plan : RotationPlan) : RotationLoop → RotationLoop → Prop :=
  Reachable (rotationStep plan.env plan.conf) fun _ event =>
    match event with
    | .start _ => False
    | .complete _ outcome => plan.Replies outcome

def RotationLoop.withStore (loop : RotationLoop) (store : Store) :
    RotationLoop :=
  { loop with vars := { loop.vars with store } }

section Runs

variable {plan : RotationPlan} {Initial : HashRow → Prop}
variable {before after loop : RotationLoop} {outcome : Outcome}
variable {operation : RotationOperation} {rest : List RotationOperation}
variable {store : Store}

theorem driven_start (keys : store .keys = keyRows plan.pepper plan.previous)
    (initial : ∀ row ∈ store .hashes, Initial row) :
    Driven plan Initial (startRotation store plan.newPepper) where
  chain := chain_start store plan.newPepper
  named := rfl
  keys := ⟨plan.previous, keys, .inl rfl⟩
  copies := fun _ h => absurd h (by simp [startRotation])
  drops := fun _ h => absurd h (by simp [startRotation])
  publishes := fun h => absurd h (by simp [startRotation])
  matrix := fun _ h => absurd h (by simp [startRotation])
  stage := .awaiting (by simp [startRotation, RotationOperation.isDirectory])
    rfl rfl rfl rfl initial

theorem Driven.step (driven : Driven plan Initial before)
    (draws : plan.Draws) (replies : plan.Replies outcome)
    (completes : Loop.Completes (Rotation.react plan.env plan.conf) before
      outcome operation rest after) : Driven plan Initial after := by
  have hunder := completes.mem_pending
  cases operation with
  | getPreviousPepper =>
      exact driven.aside draws completes (aside_getPreviousPepper driven)
  | deleteOldHashes data =>
      exact driven.aside draws completes
        (aside_deleteOldHashes driven draws hunder)
  | getPepper =>
      exact driven.aside draws completes
        (aside_getPepper driven hunder replies.healthy)
  | setPreviousPepper data =>
      exact driven.aside draws completes
        (aside_setPreviousPepper driven hunder replies.healthy)
  | publish =>
      exact driven.aside draws completes
        (aside_publish driven hunder replies.healthy)
  | hash task => exact driven.hash draws completes replies.healthy
  | getUsers =>
      cases havailable : plan.conf.isMatrixDbAvailable with
      | true =>
          exact driven.aside draws completes
            (aside_getUsers driven hunder replies havailable)
      | false =>
          refine driven.onUsers draws completes (.inl rfl) ?_
          simp [Rotation.react, replies.healthy, havailable, replies.users,
            RotationPlan.rows]
  | getMatrixUsers rows =>
      obtain ⟨rfl, havailable⟩ := driven.matrix rows hunder
      refine driven.onUsers draws completes (.inr ⟨_, rfl⟩) ?_
      simp [Rotation.react, replies.healthy, havailable, replies.entries,
        RotationPlan.rows]

theorem Driven.frame (driven : Driven plan Initial loop)
    (draws : plan.Draws) (keys : store .keys = loop.vars.store .keys)
    (kept : ∀ row ∈ loop.vars.store .hashes, row.pepper = plan.newPepper →
      row ∈ store .hashes)
    (origin : ∀ row ∈ store .hashes,
      row ∈ loop.vars.store .hashes ∨ Initial row) :
    Driven plan Initial (RotationLoop.withStore loop store) where
  chain :=
    { copying := driven.chain.copying
      hashing := driven.chain.hashing
      publishing := driven.chain.publishing
      single := driven.chain.single
      unstarted := driven.chain.unstarted
      balanced := driven.chain.balanced }
  named := driven.named
  keys := by
    obtain ⟨previous, hkeys, hprevious⟩ := driven.keys
    exact ⟨previous, keys.trans hkeys, hprevious⟩
  copies := driven.copies
  drops := driven.drops
  publishes := driven.publishes
  matrix := driven.matrix
  stage := driven.stage.keep draws (List.Perm.refl _) rfl rfl rfl rfl kept
    origin

theorem Driven.hashed (driven : Driven plan Initial loop)
    (hashed : loop.vars.hashed = true) :
    ∃ data, usersData plan.conf plan.rows = .ok data ∧
      (∀ args ∈ updateParams data,
        args.row plan.env plan.newPepper ∈ loop.vars.store .hashes) ∧
      (∀ row ∈ loop.vars.store .hashes, Initial row ∨
        ∃ args ∈ updateParams data, row = args.row plan.env plan.newPepper) ∧
      ((updateParams data).map (·.digest plan.env plan.newPepper)).Nodup := by
  cases driven.stage with
  | awaiting _ _ hunhashed _ _ _ =>
      rw [hashed] at hunhashed
      cases hunhashed
  | invalid _ _ _ hunhashed _ _ =>
      rw [hashed] at hunhashed
      cases hunhashed
  | hashing data done failed hreduced _ account _ _ hhashed _ =>
      have hlength := hhashed.mp hashed
      have hsplit := account.split.length_eq
      simp only [List.length_append] at hsplit
      have hfailed : failed = [] := List.eq_nil_of_length_eq_zero (by omega)
      have htasks : (tasksOf loop.pending).map (·.args) = [] :=
        List.eq_nil_of_length_eq_zero (by omega)
      have hwaiting : loop.vars.workers.waiting = [] :=
        List.eq_nil_of_length_eq_zero (by omega)
      have hdone : (updateParams data).Perm done := by
        have hall := account.split
        rw [hfailed, htasks, hwaiting] at hall
        simpa using hall
      refine ⟨data, hreduced, ?_, ?_, ?_⟩
      · exact fun args hargs => account.stored args (hdone.mem_iff.mp hargs)
      · intro row hrow
        refine (account.origin row hrow).imp_right ?_
        rintro ⟨args, hargs, hsame⟩
        exact ⟨args, hdone.mem_iff.mpr hargs, hsame⟩
      · exact ((hdone.map _).nodup_iff).mpr account.distinct

/-- A rotation that ends without having published has met an invalid `uid` or a
hash that was stored already. -/
theorem Driven.ended (driven : Driven plan Initial loop)
    (ended : loop.pending = []) (unpublished : loop.vars.published = false) :
    (∃ row ∈ plan.rows, ¬ ValidUid plan.conf row) ∨
    ∃ data, usersData plan.conf plan.rows = .ok data ∧
      ((∃ args ∈ updateParams data, ∃ row, Initial row ∧
        row.hash = args.digest plan.env plan.newPepper) ∨
      ¬ ((updateParams data).map
        (·.digest plan.env plan.newPepper)).Nodup) := by
  have hrejected : loop.vars.rejected = true := by
    rw [← Bool.not_eq_false]
    intro haccepted
    have hpublished := driven.chain.settled ended haccepted
    rw [unpublished] at hpublished
    cases hpublished
  cases driven.stage with
  | awaiting hdirectory _ _ _ _ _ =>
      rw [ended] at hdirectory
      exact absurd hdirectory (Nat.lt_irrefl 0)
  | invalid hinvalid _ _ _ _ _ => exact .inl hinvalid
  | hashing data done failed hreduced _ account _ _ _ hfailed =>
      refine .inr ⟨data, hreduced, ?_⟩
      obtain ⟨args, hargs⟩ :=
        List.exists_mem_of_ne_nil _ (hfailed.mp hrejected)
      have hsplit := account.split
      rcases account.conflicts args hargs with hinitial |
        ⟨other, hother, hsame⟩
      · refine .inl ⟨args, hsplit.mem_iff.mpr ?_, hinitial⟩
        simp [hargs]
      · refine .inr fun hnodup => ?_
        rw [(hsplit.map _).nodup_iff, List.map_append, List.map_append,
          List.map_append] at hnodup
        have hfirst := (List.nodup_append.mp (List.nodup_append.mp
          (List.nodup_append.mp hnodup).1).1).2.2
        exact hfirst _ (List.mem_map_of_mem hother) _
          (List.mem_map_of_mem hargs) hsame

theorem mem_updateParams_rows {data : UpdatableFields} {args : UpdateArgs}
    (reduced : usersData plan.conf plan.rows = .ok data) :
    args ∈ updateParams data ↔ ∃ user mxid field value,
      Survives plan.rows user ∧
      toMatrixId user.uid plan.conf.serverName = .ok mxid ∧
      user.Has field value ∧ args =
        addressArgs mxid (userFields plan.conf user).active field value := by
  rw [mem_updateParams reduced]
  constructor
  · rintro ⟨user, huser, hargs⟩
    obtain ⟨mxid, field, value, hall⟩ := mem_userArgs_iff.mp hargs
    exact ⟨user, mxid, field, value, huser, hall⟩
  · rintro ⟨user, mxid, field, value, huser, hall⟩
    exact ⟨user, huser, mem_userArgs_iff.mpr ⟨mxid, field, value, hall⟩⟩

theorem RotationPlan.Old.ne_digest {row : HashRow} (old : plan.Old row)
    {data : UpdatableFields} {args : UpdateArgs}
    (reduced : usersData plan.conf plan.rows = .ok data)
    (h : args ∈ updateParams data) :
    row.hash ≠ args.digest plan.env plan.newPepper := by
  obtain ⟨user, _, field, value, huser, _, hhas, rfl⟩ :=
    (mem_updateParams_rows reduced).mp h
  exact old user (mem_of_lastWith huser).1 field value hhas

theorem RotationPlan.FreshHashes.nodup_iff (fresh : plan.FreshHashes store)
    {data : UpdatableFields}
    (reduced : usersData plan.conf plan.rows = .ok data) :
    ((updateParams data).map (·.digest plan.env plan.newPepper)).Nodup ↔
      ∀ user other, Survives plan.rows user → Survives plan.rows other →
        ∀ field value same, user.Has field value → other.Has field same →
        field.format value = field.format same → user = other := by
  constructor
  · intro hnodup user other huser hother field value same hhas hsame hformat
    have hrows := mem_of_lastWith huser
    have hvalid := (usersData_ok_iff plan.conf plan.rows).mp ⟨data, reduced⟩
    obtain ⟨mxid, hmxid⟩ := hvalid user hrows.1
    obtain ⟨name, hname⟩ := hvalid other (mem_of_lastWith hother).1
    have hargs := List.inj_on_of_nodup_map hnodup
      ((mem_updateParams_rows reduced).mpr
        ⟨user, mxid, field, value, huser, hmxid, hhas, rfl⟩)
      ((mem_updateParams_rows reduced).mpr
        ⟨other, name, field, same, hother, hname, hsame, rfl⟩)
      (by simp only [digest_addressArgs, addressText, hformat])
    have hnames : mxid = name := congrArg UpdateArgs.matrixAddress hargs
    have huid := toMatrixId_injective (hnames ▸ hmxid) hname
    rw [Survives, huid] at huser
    exact Option.some.inj (huser.symm.trans hother)
  · intro halone
    refine (nodup_updateParams (usersData_nodup reduced)).map_on ?_
    intro first hfirst second hsecond hdigest
    obtain ⟨user, mxid, field, value, huser, hmxid, hhas, rfl⟩ :=
      (mem_updateParams_rows reduced).mp hfirst
    obtain ⟨other, name, kind, same, hother, hname, hsame, rfl⟩ :=
      (mem_updateParams_rows reduced).mp hsecond
    have htext := fresh.distinct user (mem_of_lastWith huser).1 field value
      hhas other (mem_of_lastWith hother).1 kind same hsame hdigest
    obtain ⟨rfl, hformat⟩ := addressText_injective htext
    obtain rfl := halone user other huser hother field value same hhas hsame
      hformat
    have hvalue := hhas.1.symm.trans hsame.1
    have hnames := hmxid.symm.trans hname
    cases hvalue
    cases hnames
    rfl

theorem HealthyRun.driven
    (run : HealthyRun plan (startRotation store plan.newPepper) loop)
    (draws : plan.Draws)
    (keys : store .keys = keyRows plan.pepper plan.previous)
    (initial : ∀ row ∈ store .hashes, Initial row) :
    Driven plan Initial loop := by
  refine run.invariant (Driven plan Initial) (driven_start keys initial) ?_
  intro before event after hdriven replies stepped
  cases event with
  | start newPepper => exact replies.elim
  | complete index outcome =>
      change before.complete (Rotation.react plan.env plan.conf) index
        outcome = some after at stepped
      obtain ⟨operation, _, completes⟩ := Loop.complete_cases stepped
      exact hdriven.step draws replies completes

end Runs

end TwakeKickstart.IdentityServer
