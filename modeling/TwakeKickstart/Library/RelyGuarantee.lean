import TwakeKickstart.Library.Async
import TwakeKickstart.Library.Transition

namespace TwakeKickstart.Library

/-! Rely-guarantee reasoning for pools of asynchronous procedures.  Each
procedure is checked alone, against every world that the others can leave. -/

inductive PoolEvent (Call Choice : Type) where
  | start (call : Call)
  | act (index : Nat) (choice : Choice)

variable {Effect : Type} {Result : Effect → Type}
variable {World Call Choice : Type}

namespace Pool

def calls (pool : Pool Effect Result World Call) : List Call :=
  pool.threads.map Prod.fst

def step (program : Call → Program Effect Result)
    (handle : Choice → Handler Effect Result World)
    (pool : Pool Effect Result World Call) :
    PoolEvent Call Choice → Option (Pool Effect Result World Call)
  | .start call =>
      some { pool with threads := pool.threads ++ [(call, program call)] }
  | .act index choice => pool.act handle index choice

end Pool

/-- `inv` holds of the calls made so far and the world; `keeps` is what no step
undoes; `permits` restricts what the environment decides about an effect, and
`guarantee` is what one step of a call may do. -/
structure Discipline (Effect World Call Choice : Type) where
  inv : List Call → World → Prop
  keeps : World → World → Prop
  permits : Call → Effect → Choice → World → Prop
  guarantee : Call → List Call → World → World → Prop
  refl : ∀ world, keeps world world
  trans : ∀ {first second third}, keeps first second → keeps second third →
    keeps first third
  sameCalls : ∀ {calls calls' world}, calls ⊆ calls' → calls' ⊆ calls →
    inv calls world → inv calls' world

namespace Discipline

/-- The remaining procedure of `call` behaves, from any world that the others
make out of the given one. -/
def Safe (discipline : Discipline Effect World Call Choice)
    (handle : Choice → Handler Effect Result World) (call : Call) :
    Program Effect Result → List Call → World → Prop
  | .done, _, _ => True
  | .perform effect next, calls, world =>
      ∀ calls' world', calls ⊆ calls' → discipline.keeps world world' →
        discipline.inv calls' world' → ∀ choice,
        discipline.permits call effect choice world' →
        discipline.inv calls' (handle choice effect world').2 ∧
        discipline.keeps world' (handle choice effect world').2 ∧
        discipline.guarantee call calls' world'
          (handle choice effect world').2 ∧
        discipline.Safe handle call (next (handle choice effect world').1)
          calls' (handle choice effect world').2
  | .fork child rest, calls, world =>
      discipline.Safe handle call child calls world ∧
      discipline.Safe handle call rest calls world

variable {discipline : Discipline Effect World Call Choice}
variable {handle : Choice → Handler Effect Result World}

theorem Safe.mono {call : Call} {program : Program Effect Result}
    {calls calls' : List Call} {world world' : World}
    (safe : discipline.Safe handle call program calls world)
    (more : calls ⊆ calls') (kept : discipline.keeps world world') :
    discipline.Safe handle call program calls' world' := by
  induction program with
  | done => trivial
  | perform effect next _ =>
      intro calls'' world'' hmore hkept hinv choice
      exact safe calls'' world'' (fun _ h => hmore (more h))
        (discipline.trans kept hkept) hinv choice
  | fork child rest ihChild ihRest =>
      exact ⟨ihChild safe.1, ihRest safe.2⟩

/-- An effect that every world allows, whatever comes back. -/
def Harmless (discipline : Discipline Effect World Call Choice)
    (handle : Choice → Handler Effect Result World) (call : Call)
    (effect : Effect) : Prop :=
  ∀ calls world choice, discipline.inv calls world →
    discipline.inv calls (handle choice effect world).2 ∧
    discipline.keeps world (handle choice effect world).2 ∧
    discipline.guarantee call calls world (handle choice effect world).2

theorem Safe.perform_harmless {call : Call} {effect : Effect}
    {next : Result effect → Program Effect Result} {calls : List Call}
    {world : World} (harmless : discipline.Harmless handle call effect)
    (safe : ∀ result, discipline.Safe handle call (next result) calls world) :
    discipline.Safe handle call (.perform effect next) calls world := by
  intro calls' world' more kept hinv choice _
  obtain ⟨hafter, hkeeps, hguarantee⟩ := harmless calls' world' choice hinv
  exact ⟨hafter, hkeeps, hguarantee,
    (safe _).mono more (discipline.trans kept hkeeps)⟩

/-- The pool as a whole keeps to the discipline. -/
structure Holds (discipline : Discipline Effect World Call Choice)
    (handle : Choice → Handler Effect Result World)
    (pool : Pool Effect Result World Call) : Prop where
  inv : discipline.inv pool.calls pool.world
  safe : ∀ thread ∈ pool.threads,
    discipline.Safe handle thread.1 thread.2 pool.calls pool.world

/-- The environment decides as the discipline permits. -/
def Permitted (discipline : Discipline Effect World Call Choice)
    (pool : Pool Effect Result World Call) (index : Nat) (choice : Choice) :
    Prop :=
  ∀ call effect next,
    pool.threads[index]? = some (call, .perform effect next) →
    discipline.permits call effect choice pool.world

theorem calls_set {threads : List (Call × Program Effect Result)}
    {index : Nat} {call : Call} {program other : Program Effect Result}
    (h : threads[index]? = some (call, program)) :
    (threads.set index (call, other)).map Prod.fst =
      threads.map Prod.fst := by
  obtain ⟨hlt, hget⟩ := List.getElem?_eq_some_iff.mp h
  apply List.ext_getElem?
  intro position
  rw [List.getElem?_map, List.getElem?_map, List.getElem?_set]
  split
  · rename_i heq
    subst heq
    simp [hlt, hget]
  · rfl

theorem Holds.perform {pool after : Pool Effect Result World Call}
    {index : Nat} {choice : Choice} {call : Call} {effect : Effect}
    {next : Result effect → Program Effect Result}
    (holds : discipline.Holds handle pool)
    (permitted : discipline.permits call effect choice pool.world)
    (thread : pool.threads[index]? = some (call, .perform effect next))
    (world : after.world = (handle choice effect pool.world).2)
    (threads : after.threads = pool.threads.set index
      (call, next (handle choice effect pool.world).1)) :
    discipline.Holds handle after ∧
    discipline.guarantee call pool.calls pool.world after.world := by
  obtain ⟨hinv, hkeeps, hguarantee, hnext⟩ :=
    holds.safe _ (List.mem_of_getElem? thread) pool.calls pool.world
      (fun _ h => h) (discipline.refl _) holds.inv choice permitted
  have hcalls : after.calls = pool.calls := by
    rw [Pool.calls, threads]
    exact calls_set thread
  refine ⟨⟨?_, ?_⟩, ?_⟩
  · rw [hcalls, world]
    exact hinv
  · intro other hother
    rw [hcalls, world]
    rw [threads] at hother
    rcases List.mem_or_eq_of_mem_set hother with hold | hnew
    · exact (holds.safe other hold).mono (fun _ h => h) hkeeps
    · rw [hnew]
      exact hnext
  · rw [world]
    exact hguarantee

theorem Holds.fork {pool after : Pool Effect Result World Call} {index : Nat}
    {call : Call} {child rest : Program Effect Result}
    (holds : discipline.Holds handle pool)
    (thread : pool.threads[index]? = some (call, .fork child rest))
    (world : after.world = pool.world)
    (threads : after.threads =
      pool.threads.set index (call, rest) ++ [(call, child)]) :
    discipline.Holds handle after := by
  have hmem := List.mem_of_getElem? thread
  obtain ⟨hchild, hrest⟩ := holds.safe _ hmem
  have hcalls : after.calls = pool.calls ++ [call] := by
    rw [Pool.calls, threads, List.map_append, calls_set thread]
    rfl
  have hsub : pool.calls ⊆ after.calls := by
    rw [hcalls]
    exact List.subset_append_left _ _
  have hcall : call ∈ pool.calls := List.mem_map_of_mem hmem
  have hsup : after.calls ⊆ pool.calls := by
    rw [hcalls]
    exact List.append_subset.mpr ⟨fun _ h => h, by simpa using hcall⟩
  refine ⟨?_, ?_⟩
  · rw [world]
    exact discipline.sameCalls hsub hsup holds.inv
  · intro other hother
    rw [world]
    rw [threads] at hother
    rcases List.mem_append.mp hother with hother | hother
    · rcases List.mem_or_eq_of_mem_set hother with hold | hnew
      · exact (holds.safe other hold).mono hsub (discipline.refl _)
      · rw [hnew]
        exact hrest.mono hsub (discipline.refl _)
    · rw [List.mem_singleton.mp hother]
      exact hchild.mono hsub (discipline.refl _)

theorem Holds.act {pool after : Pool Effect Result World Call} {index : Nat}
    {choice : Choice} (holds : discipline.Holds handle pool)
    (permitted : discipline.Permitted pool index choice)
    (h : pool.act handle index choice = some after) :
    discipline.Holds handle after ∧
    (after.world = pool.world ∨ ∃ call program,
      pool.threads[index]? = some (call, program) ∧
      discipline.guarantee call pool.calls pool.world after.world) := by
  rcases Pool.act_cases h with
    ⟨call, effect, next, hthread, hworld, hthreads⟩ |
    ⟨call, child, rest, hthread, hworld, hthreads⟩
  · obtain ⟨hafter, hguarantee⟩ := holds.perform
      (permitted call effect next hthread) hthread hworld hthreads
    exact ⟨hafter, .inr ⟨call, _, hthread, hguarantee⟩⟩
  · exact ⟨holds.fork hthread hworld hthreads, .inl hworld⟩

theorem Holds.start {pool : Pool Effect Result World Call} {call : Call}
    {program : Program Effect Result} (holds : discipline.Holds handle pool)
    (inv : discipline.inv (pool.calls ++ [call]) pool.world)
    (safe : discipline.Safe handle call program (pool.calls ++ [call])
      pool.world) :
    discipline.Holds handle
      { pool with threads := pool.threads ++ [(call, program)] } := by
  have hcalls : (pool.threads ++ [(call, program)]).map Prod.fst =
      pool.calls ++ [call] := by
    simp [Pool.calls]
  refine ⟨?_, ?_⟩
  · rw [Pool.calls, hcalls]
    exact inv
  · intro other hother
    rw [Pool.calls, hcalls]
    rcases List.mem_append.mp hother with hold | hnew
    · exact (holds.safe other hold).mono (List.subset_append_left _ _)
        (discipline.refl _)
    · rw [List.mem_singleton.mp hnew]
      exact safe

/-- The discipline holds in every state of a run, when every new call keeps it
and every choice is permitted. -/
theorem Holds.of_reachable {program : Call → Program Effect Result}
    {allowed : Pool Effect Result World Call → PoolEvent Call Choice → Prop}
    {start pool : Pool Effect Result World Call}
    (reached : Reachable (Pool.step program handle) allowed start pool)
    (initially : discipline.Holds handle start)
    (starts : ∀ before call, discipline.inv before.calls before.world →
      allowed before (.start call) →
      discipline.inv (before.calls ++ [call]) before.world ∧
      discipline.Safe handle call (program call) (before.calls ++ [call])
        before.world)
    (acts : ∀ before index choice, allowed before (.act index choice) →
      discipline.Permitted before index choice) :
    discipline.Holds handle pool := by
  refine reached.invariant (discipline.Holds handle) initially ?_
  intro before event after holds permitted stepped
  cases event with
  | start call =>
      cases stepped
      obtain ⟨hinv, hsafe⟩ := starts before call holds.inv permitted
      exact holds.start hinv hsafe
  | act index choice =>
      exact (holds.act (acts before index choice permitted) stepped).1

end Discipline

end TwakeKickstart.Library
