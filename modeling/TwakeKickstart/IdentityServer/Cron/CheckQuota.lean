import TwakeKickstart.Library.Heap
import TwakeKickstart.Library.RelyGuarantee
import TwakeKickstart.Library.Latest

namespace TwakeKickstart.IdentityServer.Cron

open Library

/-! The job that saves how much space the media of each user take.  The tasks
of the users run together. -/

namespace CheckQuota

structure Conf where
  matrix_database_host : Option String
  matrix_database_engine : Option String

structure LocalMedia where
  user_id : String
  media_length : Option Int

inductive Failure where
  | error (text : String)
  | caused (text : String) (cause : Failure)

/-- What the job meets before its tasks start: the connection to the database
of the homeserver, and the users there. -/
structure Startup where
  conf : Conf
  ready : Except Failure Unit
  getAll : Except Failure (List String)

def initDatabase (startup : Startup) : Except Failure Unit :=
  let ready :=
    if startup.conf.matrix_database_host.isNone ||
        startup.conf.matrix_database_engine.isNone then
      .error (.error "Missing matrix database configuration")
    else startup.ready
  ready.mapError (.caused "Failed to initialize matrix database")

def getMatrixUsers (startup : Startup) : Except Failure (List String) :=
  startup.getAll.mapError (.caused "Failed to get matrix users")

/-- The users whose tasks are started, or the error that the job throws. -/
def checkedUsers (startup : Startup) : Except Failure (List String) :=
  (do
    initDatabase startup
    getMatrixUsers startup : Except Failure (List String)).mapError
      (.caused "Failed to check users quota")

inductive Statement where
  | getMedia
  | deleteEqual
  | insert (size : Int)

/-- A statement for a user. -/
structure Effect where
  userId : String
  statement : Statement

def Effect.Result (effect : Effect) : Type :=
  match effect.statement with
  | .getMedia => Option (List LocalMedia)
  | .deleteEqual => Bool
  | .insert _ => Bool

abbrev Procedure := Program Effect Effect.Result

/-- The sizes that are missing count as 0. -/
def sumOf (userMedia : List LocalMedia) : Int :=
  (userMedia.map fun media => media.media_length.getD 0).foldl (· + ·) 0

def insertUsage (userId : String) (size : Int) : Procedure :=
  .perform ⟨userId, .insert size⟩ fun _ => .done

def saveUserUsage (userId : String) (size : Int) : Procedure :=
  .perform ⟨userId, .deleteEqual⟩ fun deleted : Bool =>
    if deleted then insertUsage userId size else .done

/-- Errors are logged, and end the task. -/
def checkUser (userId : String) : Procedure :=
  .perform ⟨userId, .getMedia⟩ fun userMedia : Option (List LocalMedia) =>
    match userMedia with
    | some userMedia => saveUserUsage userId (sumOf userMedia)
    | none => .done

/-- A statement that was issued, with whether it went through. -/
structure Call extends Effect where
  succeeded : Bool

structure World where
  local_media_repository : List LocalMedia
  userQuotas : List (String × Int)
  log : List Call

def World.record (world : World) (effect : Effect) (succeeded : Bool) :
    World :=
  { world with log := world.log ++ [⟨effect, succeeded⟩] }

/-- `up` says whether the databases answer.  The user's name is the primary key
of `userQuotas`. -/
def handle (up : Bool) : Handler Effect Effect.Result World
  | ⟨userId, .getMedia⟩, world =>
      let userMedia := world.local_media_repository.filter (·.user_id = userId)
      (if up then some userMedia else none,
        world.record ⟨userId, .getMedia⟩ up)
  | ⟨userId, .deleteEqual⟩, world =>
      let userQuotas :=
        if up then Fields.remove world.userQuotas userId else world.userQuotas
      (up, { world with userQuotas }.record ⟨userId, .deleteEqual⟩ up)
  | ⟨userId, .insert size⟩, world =>
      let inserted := up && (world.userQuotas.lookup userId).isNone
      let userQuotas :=
        if inserted then world.userQuotas ++ [(userId, size)]
        else world.userQuotas
      (inserted,
        { world with userQuotas }.record ⟨userId, .insert size⟩ inserted)

abbrev Job := Pool Effect Effect.Result World String

/-- Without users there is nothing to do but to throw the error. -/
def usersOf (startup : Startup) : List String :=
  match checkedUsers startup with
  | .ok users => users
  | .error _ => []

def start (startup : Startup) (local_media_repository : List LocalMedia)
    (userQuotas : List (String × Int)) : Job where
  world := { local_media_repository, userQuotas, log := [] }
  threads := (usersOf startup).map fun userId => (userId, checkUser userId)

/-- Steps of the tasks, in any order. -/
def steps (job : Job) (events : List (Nat × Bool)) : Job :=
  events.foldl (fun job (index, up) => (job.act handle index up).getD job) job

/-! What the job is to do. -/

def usage (media : List LocalMedia) (userId : String) : Int :=
  sumOf (media.filter (·.user_id = userId))

/-- What a call writes to the row of its user. -/
def Call.write? (call : Call) : Option (RowLog.Write Int) :=
  if call.succeeded then
    match call.statement with
    | .getMedia => none
    | .deleteEqual => some .drop
    | .insert size => some (.set size)
  else none

def writes (log : List Call) (userId : String) : List (RowLog.Write Int) :=
  log.filterMap fun call => if call.userId = userId then call.write? else none

def Ended (job : Job) : Prop := ∀ task ∈ job.threads, task.2 = .done

structure Atomic (users : List String) (before : World) (job : Job) :
    Prop where
  kept : ∀ userId old, before.userQuotas.lookup userId = some old →
    job.world.userQuotas.lookup userId = some old ∨
      job.world.userQuotas.lookup userId =
        some (usage before.local_media_repository userId)
  untouched : ∀ userId, userId ∉ users →
    job.world.userQuotas.lookup userId = before.userQuotas.lookup userId
  -- only the failures of a user's own calls matter
  served : Ended job → ∀ userId ∈ users,
    (∀ call ∈ job.world.log, call.userId = userId → call.succeeded = true) →
      job.world.userQuotas.lookup userId =
        some (usage before.local_media_repository userId)

/-! Steps of a task. -/

section Tasks

variable (media : List LocalMedia) (userId : String)

inductive Stage : Procedure → Prop
  | reading : Stage (checkUser userId)
  | deleting : Stage (saveUserUsage userId (usage media userId))
  | inserting : Stage (insertUsage userId (usage media userId))
  | ended : Stage .done

/-- A task goes on, or ends, with one call. -/
structure Advance (world after : World) (next : Procedure) (call : Call) :
    Prop where
  own : call.userId = userId
  sameMedia : after.local_media_repository = world.local_media_repository
  log : after.log = world.log ++ [call]
  stage : Stage media userId next
  row : after.userQuotas.lookup userId =
    match call.write? with
    | some write => write.apply
    | none => world.userQuotas.lookup userId
  others : ∀ other, other ≠ userId →
    after.userQuotas.lookup other = world.userQuotas.lookup other
  size : ∀ size, call.write? = some (.set size) → size = usage media userId
  ends : next = .done → call.succeeded = true →
    call.write? = some (.set (usage media userId))

variable {media} {userId}

theorem Stage.advances {program : Procedure}
    (stage : Stage media userId program) {effect : Effect}
    {next : Effect.Result effect → Procedure}
    (performs : program = .perform effect next) {world : World}
    (hmedia : world.local_media_repository = media) (up : Bool) :
    ∃ call, Advance media userId world (handle up effect world).2
      (next (handle up effect world).1) call := by
  cases stage with
  | reading =>
      cases performs
      refine ⟨⟨⟨userId, .getMedia⟩, up⟩, ?_⟩
      cases up with
      | false =>
          exact ⟨rfl, rfl, rfl, .ended, rfl, fun _ _ => rfl, nofun, nofun⟩
      | true =>
          refine ⟨rfl, rfl, rfl, ?_, rfl, fun _ _ => rfl, nofun, nofun⟩
          rw [← hmedia]
          exact .deleting
  | deleting =>
      cases performs
      refine ⟨⟨⟨userId, .deleteEqual⟩, up⟩, ?_⟩
      cases up with
      | false =>
          exact ⟨rfl, rfl, rfl, .ended, rfl, fun _ _ => rfl, nofun, nofun⟩
      | true =>
          refine ⟨rfl, rfl, rfl, .inserting, ?_, fun other hother => ?_, nofun,
            nofun⟩
          · exact (Fields.lookup_remove ..).trans (if_pos rfl)
          · exact (Fields.lookup_remove ..).trans (if_neg hother)
  | inserting =>
      cases performs
      refine ⟨⟨⟨userId, .insert (usage media userId)⟩,
        up && (world.userQuotas.lookup userId).isNone⟩, ?_⟩
      cases hinserted : up && (world.userQuotas.lookup userId).isNone with
      | false =>
          have hsame : (handle up ⟨userId, .insert (usage media userId)⟩
              world).2.userQuotas = world.userQuotas := by
            rw [handle, hinserted]
            rfl
          refine ⟨rfl, rfl, ?_, .ended, ?_, ?_, nofun, nofun⟩
          · rw [handle, hinserted]
            rfl
          · rw [hsame]
            rfl
          · intro other _
            rw [hsame]
      | true =>
          obtain ⟨rfl, hfree⟩ := (Bool.and_eq_true ..).mp hinserted
          have hadded : (handle true ⟨userId, .insert (usage media userId)⟩
              world).2.userQuotas =
                world.userQuotas ++ [(userId, usage media userId)] := by
            rw [handle, hinserted]
            rfl
          refine ⟨rfl, rfl, ?_, .ended, ?_, ?_, ?_, fun _ _ => rfl⟩
          · rw [handle, hinserted]
            rfl
          · rw [hadded, List.lookup_append, Option.isNone_iff_eq_none.mp hfree,
              Option.none_or, List.lookup_cons_self]
            rfl
          · intro other hother
            rw [hadded, List.lookup_append, List.lookup_cons,
              beq_false_of_ne hother, List.lookup_nil, Option.or_none]
          · intro size hsize
            injection hsize with hsize
            injection hsize with hsize
            exact hsize.symm
  | ended => exact nomatch performs

end Tasks

section Log

variable {log : List Call} {call : Call} {userId : String}

theorem writes_own (own : call.userId = userId) :
    writes (log ++ [call]) userId = writes log userId ++ call.write?.toList := by
  rw [writes, List.filterMap_append, ← writes, List.filterMap_cons,
    List.filterMap_nil, if_pos own]
  cases call.write? <;> rfl

theorem writes_other (other : call.userId ≠ userId) :
    writes (log ++ [call]) userId = writes log userId := by
  rw [writes, List.filterMap_append, ← writes, List.filterMap_cons,
    List.filterMap_nil, if_neg other, List.append_nil]

theorem writes_eq_nil (strangers : ∀ call ∈ log, call.userId ≠ userId) :
    writes log userId = [] :=
  List.filterMap_eq_nil_iff.mpr fun call hcall => if_neg (strangers call hcall)

end Log

/-! Runs of the job. -/

section Runs

variable {users : List String} {before : World}

structure Sound (users : List String) (before : World) (job : Job) :
    Prop where
  sameMedia : job.world.local_media_repository = before.local_media_repository
  sameUsers : job.threads.map Prod.fst = users
  stages : ∀ task ∈ job.threads,
    Stage before.local_media_repository task.1 task.2
  rows : ∀ userId, job.world.userQuotas.lookup userId =
    RowLog.rowAfter (before.userQuotas.lookup userId)
      (writes job.world.log userId)
  sizes : ∀ userId size, .set size ∈ writes job.world.log userId →
    size = usage before.local_media_repository userId
  known : ∀ call ∈ job.world.log, call.userId ∈ users
  -- who has no new row still has a task, or met a failure
  progress : ∀ userId ∈ users,
    (∃ call ∈ job.world.log, call.userId = userId ∧ call.succeeded = false) ∨
      job.world.userQuotas.lookup userId =
        some (usage before.local_media_repository userId) ∨
      ∃ task ∈ job.threads, task.1 = userId ∧ task.2 ≠ .done

namespace Sound

variable {job after : Job} (sound : Sound users before job) {index : Nat}
  {userId : String} {program next : Procedure} {call : Call}
  (htask : job.threads[index]? = some (userId, program))
  (htasks : after.threads = job.threads.set index (userId, next))
  (advance : Advance before.local_media_repository userId job.world after.world
    next call)

include sound advance

theorem rows_advance (other : String) :
    after.world.userQuotas.lookup other =
      RowLog.rowAfter (before.userQuotas.lookup other)
        (writes after.world.log other) := by
  rw [advance.log]
  by_cases hother : other = userId
  · subst hother
    rw [advance.row, writes_own advance.own]
    cases call.write? with
    | none => exact (sound.rows other).trans (by rw [Option.toList, List.append_nil])
    | some write => exact (RowLog.rowAfter_append_singleton ..).symm
  · rw [advance.others other hother, writes_other fun h =>
      hother (h.symm.trans advance.own), sound.rows other]

theorem sizes_advance (other : String) (size : Int)
    (hsize : .set size ∈ writes after.world.log other) :
    size = usage before.local_media_repository other := by
  rw [advance.log] at hsize
  by_cases hother : other = userId
  · subst hother
    rw [writes_own advance.own, List.mem_append, Option.mem_toList] at hsize
    exact hsize.elim (sound.sizes other size) (advance.size size)
  · rw [writes_other fun h => hother (h.symm.trans advance.own)] at hsize
    exact sound.sizes other size hsize

include htask htasks

theorem progress_advance (other : String) (hmem : other ∈ users) :
    (∃ call ∈ after.world.log,
        call.userId = other ∧ call.succeeded = false) ∨
      after.world.userQuotas.lookup other =
        some (usage before.local_media_repository other) ∨
      ∃ task ∈ after.threads, task.1 = other ∧ task.2 ≠ .done := by
  have hlog : ∀ old ∈ job.world.log, old ∈ after.world.log := by
    intro old hold
    rw [advance.log]
    exact List.mem_append_left _ hold
  by_cases hother : other = userId
  · subst hother
    by_cases hdone : next = .done
    · cases hsucceeded : call.succeeded with
      | false =>
          refine .inl ⟨call, ?_, advance.own, hsucceeded⟩
          rw [advance.log]
          exact List.mem_append_right _ (List.mem_singleton_self call)
      | true =>
          refine .inr (.inl ?_)
          rw [advance.row, advance.ends hdone hsucceeded]
          rfl
    · refine .inr (.inr ⟨(other, next), ?_, rfl, hdone⟩)
      obtain ⟨hlt, _⟩ := List.getElem?_eq_some_iff.mp htask
      rw [htasks]
      exact List.mem_set hlt _
  · rcases sound.progress other hmem with
      ⟨failed, hfailed, hown⟩ | hrow | ⟨task, hmemtask, howner, hbusy⟩
    · exact .inl ⟨failed, hlog failed hfailed, hown⟩
    · exact .inr (.inl ((advance.others other hother).trans hrow))
    · refine .inr (.inr ⟨task, ?_, howner, hbusy⟩)
      obtain ⟨position, hposition⟩ := List.mem_iff_getElem?.mp hmemtask
      have hne : index ≠ position := by
        rintro rfl
        obtain rfl := Option.some.inj (htask.symm.trans hposition)
        exact hother howner.symm
      rw [htasks]
      apply List.mem_of_getElem?
      rw [List.getElem?_set_ne hne]
      exact hposition

end Sound

theorem Sound.act {job after : Job} (sound : Sound users before job)
    {index : Nat} {up : Bool} (acts : job.act handle index up = some after) :
    Sound users before after := by
  rcases Pool.act_cases acts with
    ⟨userId, effect, next, htask, hworld, htasks⟩ |
    ⟨userId, child, rest, htask, _, _⟩
  · have hstage := sound.stages _ (List.mem_of_getElem? htask)
    obtain ⟨call, advance⟩ := hstage.advances rfl sound.sameMedia up
    rw [← hworld] at advance
    constructor
    · exact advance.sameMedia.trans sound.sameMedia
    · rw [htasks, Discipline.calls_set htask]
      exact sound.sameUsers
    · intro task htask'
      rw [htasks] at htask'
      rcases List.mem_or_eq_of_mem_set htask' with hold | hnew
      · exact sound.stages task hold
      · rw [hnew]
        exact advance.stage
    · exact sound.rows_advance advance
    · exact sound.sizes_advance advance
    · intro other hother
      rw [advance.log, List.mem_append, List.mem_singleton] at hother
      rcases hother with hold | hnew
      · exact sound.known other hold
      · rw [hnew, advance.own, ← sound.sameUsers]
        exact List.mem_map_of_mem (List.mem_of_getElem? htask)
    · exact sound.progress_advance htask htasks advance
  · exact nomatch sound.stages _ (List.mem_of_getElem? htask)

theorem Sound.steps {job : Job} (sound : Sound users before job)
    (events : List (Nat × Bool)) :
    Sound users before (CheckQuota.steps job events) := by
  induction events generalizing job with
  | nil => exact sound
  | cons event rest ih =>
      obtain ⟨index, up⟩ := event
      rw [CheckQuota.steps, List.foldl_cons]
      apply ih
      change Sound users before ((job.act handle index up).getD job)
      cases acts : job.act handle index up with
      | none => exact sound
      | some after => exact sound.act acts

theorem start_sound (startup : Startup)
    (local_media_repository : List LocalMedia)
    (userQuotas : List (String × Int)) :
    Sound (usersOf startup) ⟨local_media_repository, userQuotas, []⟩
      (start startup local_media_repository userQuotas) := by
  constructor
  · rfl
  · rw [start, List.map_map]
    exact List.map_id _
  · exact List.forall_mem_map.mpr fun userId _ => .reading
  · exact fun userId => rfl
  · exact nofun
  · exact nofun
  · intro userId huser
    refine .inr (.inr ⟨(userId, checkUser userId), ?_, rfl, nofun⟩)
    exact List.mem_map_of_mem huser

theorem Sound.atomic_iff {job : Job} (sound : Sound users before job) :
    Atomic users before job ↔
      ∀ userId, (before.userQuotas.lookup userId).isSome = true →
        (writes job.world.log userId).getLast? ≠ some .drop := by
  constructor
  · intro atomic userId hknown
    obtain ⟨old, hold⟩ := Option.isSome_iff_exists.mp hknown
    have hrow := sound.rows userId
    rw [hold] at hrow
    intro hdropped
    have hmissing := hrow.trans (RowLog.rowAfter_eq_none_iff.mpr hdropped)
    rcases atomic.kept userId old hold with hkept | hnew
    · exact nomatch hmissing.symm.trans hkept
    · exact nomatch hmissing.symm.trans hnew
  · intro hlast
    constructor
    · intro userId old hold
      have hrow := sound.rows userId
      rw [hold] at hrow
      cases hnew : RowLog.rowAfter (some old) (writes job.world.log userId) with
      | none =>
          refine absurd (RowLog.rowAfter_eq_none_iff.mp hnew) (hlast userId ?_)
          rw [hold]
          rfl
      | some row =>
          rw [hrow, hnew]
          rcases RowLog.rowAfter_cases hnew with hsame | hset
          · exact .inl hsame.symm
          · exact .inr (congrArg some (sound.sizes userId row hset))
    · intro userId hstranger
      have hwrites : writes job.world.log userId = [] := by
        apply writes_eq_nil
        intro call hcall hown
        rw [← hown] at hstranger
        exact hstranger (sound.known call hcall)
      rw [sound.rows userId, hwrites, RowLog.rowAfter_nil]
    · intro ended userId huser healthy
      rcases sound.progress userId huser with
        ⟨call, hcall, hown, hfailed⟩ | hrow | ⟨task, htask, _, hbusy⟩
      · exact absurd (healthy call hcall hown) (by rw [hfailed]; exact nofun)
      · exact hrow
      · exact absurd (ended task htask) hbusy

end Runs

/-- After any steps of the tasks, in any order and whatever fails. -/
theorem quotas_atomic_iff (startup : Startup)
    (local_media_repository : List LocalMedia)
    (userQuotas : List (String × Int)) (events : List (Nat × Bool)) :
    Atomic (usersOf startup) ⟨local_media_repository, userQuotas, []⟩
        (steps (start startup local_media_repository userQuotas) events) ↔
      ∀ userId, (userQuotas.lookup userId).isSome = true →
        (writes (steps (start startup local_media_repository userQuotas)
          events).world.log userId).getLast? ≠ some .drop :=
  ((start_sound startup local_media_repository userQuotas).steps
    events).atomic_iff

/-- A user whose media have been removed, and a database that is lost after the
deletion. -/
def lostInsertion : Job :=
  steps (start
    ⟨⟨some "localhost", some "pg"⟩, .ok (), .ok ["@alice:twake.app"]⟩ []
    [("@alice:twake.app", 42)]) [(0, true), (0, true), (0, false)]

theorem lostInsertion_not_atomic :
    Ended lostInsertion ∧
      ¬ Atomic ["@alice:twake.app"] ⟨[], [("@alice:twake.app", 42)], []⟩
        lostInsertion := by
  refine ⟨List.forall_mem_singleton.mpr rfl, fun atomic => ?_⟩
  rcases atomic.kept "@alice:twake.app" 42 (by decide) with h | h
  · exact absurd h (by decide)
  · exact absurd h (by decide)

end CheckQuota

end TwakeKickstart.IdentityServer.Cron
