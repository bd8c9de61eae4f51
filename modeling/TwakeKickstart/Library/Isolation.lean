import TwakeKickstart.Library.RelyGuarantee

namespace TwakeKickstart.Library

/-! Pools in which some calls may not run side by side.  Each call relies on the
others leaving its part of the world alone; which calls are compatible may
depend on the world. -/

structure Isolation (Effect World Call Choice : Type) where
  inv : World → Prop
  rely : Call → World → World → Prop
  guarantee : Call → World → World → Prop
  permits : Call → Effect → Choice → World → Prop
  compatible : World → Call → Call → Prop
  refl : ∀ call world, rely call world world
  trans : ∀ {call first second third}, rely call first second →
    rely call second third → rely call first third
  symm : ∀ {world call other}, compatible world call other →
    compatible world other call
  respects : ∀ {world world' call other}, inv world →
    guarantee call world world' → compatible world call other →
    rely other world world'
  stays : ∀ {world world' call other actor}, inv world →
    compatible world call other → guarantee actor world world' →
    actor = call ∨ compatible world actor call →
    compatible world' call other

variable {Effect : Type} {Result : Effect → Type}
variable {World Call Choice : Type}

namespace Isolation

variable (isolation : Isolation Effect World Call Choice)
variable (handle : Choice → Handler Effect Result World)

/-- The remaining procedure of `call` behaves, from any world that compatible
calls make out of the given one.  Procedures that fork are not considered. -/
def Safe (call : Call) : Program Effect Result → World → Prop
  | .done, _ => True
  | .perform effect next, world =>
      ∀ world', isolation.rely call world world' → isolation.inv world' →
        ∀ choice, isolation.permits call effect choice world' →
        isolation.inv (handle choice effect world').2 ∧
        isolation.guarantee call world' (handle choice effect world').2 ∧
        Safe call (next (handle choice effect world').1)
          (handle choice effect world').2
  | .fork _ _, _ => False

variable {isolation} {handle}

theorem Safe.mono {call : Call} {program : Program Effect Result}
    {world world' : World} (safe : isolation.Safe handle call program world)
    (kept : isolation.rely call world world') :
    isolation.Safe handle call program world' := by
  cases program with
  | done => trivial
  | perform effect next =>
      intro world'' hkept hinv choice
      exact safe world'' (isolation.trans kept hkept) hinv choice
  | fork child rest => exact safe

def Running : Program Effect Result → Prop
  | .done => False
  | _ => True

variable (isolation) (handle)

structure Holds (pool : Pool Effect Result World Call) : Prop where
  inv : isolation.inv pool.world
  safe : ∀ thread ∈ pool.threads,
    isolation.Safe handle thread.1 thread.2 pool.world
  apart : ∀ {index position : Nat} {thread other : Call × Program Effect Result},
    index ≠ position → pool.threads[index]? = some thread →
    pool.threads[position]? = some other → Running thread.2 →
    Running other.2 → isolation.compatible pool.world thread.1 other.1

/-- A call starts only beside compatible ones, and the environment decides as
it is permitted to. -/
def Allowed (pool : Pool Effect Result World Call) :
    PoolEvent Call Choice → Prop
  | .start call => ∀ thread ∈ pool.threads, Running thread.2 →
      isolation.compatible pool.world call thread.1
  | .act index choice => ∀ call effect next,
      pool.threads[index]? = some (call, .perform effect next) →
      isolation.permits call effect choice pool.world

variable {isolation} {handle}

theorem safe_of_not_running {call : Call} {program : Program Effect Result}
    {world : World} (h : ¬ Running program) :
    isolation.Safe handle call program world := by
  cases program with
  | done => trivial
  | perform effect next => exact absurd trivial h
  | fork child rest => exact absurd trivial h

/-- After the step of one thread, a running thread is the one that made the
step or was there before. -/
theorem running_before {threads : List (Call × Program Effect Result)}
    {index position : Nat} {call : Call} {later : Program Effect Result}
    {thread : Call × Program Effect Result}
    (found : (threads.set index (call, later))[position]? = some thread) :
    position = index ∧ thread = (call, later) ∨
      position ≠ index ∧ threads[position]? = some thread := by
  rw [List.getElem?_set] at found
  split at found
  · rename_i hsame
    split at found
    · cases found
      exact .inl ⟨hsame.symm, rfl⟩
    · cases found
  · rename_i hother
    exact .inr ⟨fun h => hother h.symm, found⟩

theorem Holds.act {pool after : Pool Effect Result World Call} {index : Nat}
    {choice : Choice} (holds : isolation.Holds handle pool)
    (allowed : isolation.Allowed pool (.act index choice))
    (h : pool.act handle index choice = some after) :
    isolation.Holds handle after := by
  rcases Pool.act_cases h with
    ⟨call, effect, next, hthread, hworld, hthreads⟩ |
    ⟨call, child, rest, hthread, _, _⟩
  · obtain ⟨hinv, hguarantee, hnext⟩ :=
      holds.safe _ (List.mem_of_getElem? hthread) pool.world
        (isolation.refl _ _) holds.inv choice
        (allowed call effect next hthread)
    rw [← hworld] at hinv hguarantee hnext
    refine ⟨hinv, ?_, ?_⟩
    · intro thread hmem
      by_cases hrunning : Running thread.2
      · obtain ⟨position, hget⟩ := List.getElem?_of_mem hmem
        rw [hthreads] at hget
        rcases running_before hget with ⟨_, rfl⟩ | ⟨hne, hold⟩
        · exact hnext
        · have hapart :=
            holds.apart (Ne.symm hne) hthread hold trivial hrunning
          exact (holds.safe _ (List.mem_of_getElem? hold)).mono
            (isolation.respects holds.inv hguarantee hapart)
      · exact safe_of_not_running hrunning
    · intro first second thread other hne hfirst hsecond hrun hrunOther
      rw [hthreads] at hfirst hsecond
      -- each of the two is compared with the acting thread, and before it
      rcases running_before hfirst with
        ⟨heq, rfl⟩ | ⟨hfirst', hold⟩
      · rcases running_before hsecond with ⟨heq', _⟩ | ⟨_, hold'⟩
        · exact absurd (heq.trans heq'.symm) hne
        · rw [heq] at hne
          have hapart := holds.apart hne hthread hold' trivial hrunOther
          exact isolation.stays holds.inv hapart hguarantee (.inl rfl)
      · have hactor := holds.apart (Ne.symm hfirst') hthread hold trivial hrun
        rcases running_before hsecond with ⟨_, rfl⟩ | ⟨_, hold'⟩
        · exact isolation.symm
            (isolation.stays holds.inv hactor hguarantee (.inl rfl))
        · exact isolation.stays holds.inv
            (holds.apart hne hold hold' hrun hrunOther) hguarantee
            (.inr hactor)
  · exact (holds.safe _ (List.mem_of_getElem? hthread)).elim

theorem Holds.start {pool : Pool Effect Result World Call} {call : Call}
    {program : Program Effect Result} (holds : isolation.Holds handle pool)
    (allowed : isolation.Allowed pool (.start call : PoolEvent Call Choice))
    (safe : isolation.Safe handle call program pool.world) :
    isolation.Holds handle
      { pool with threads := pool.threads ++ [(call, program)] } := by
  have hlast : ∀ {position : Nat} {thread : Call × Program Effect Result},
      (pool.threads ++ [(call, program)])[position]? = some thread →
      pool.threads[position]? = some thread ∨
        position = pool.threads.length ∧ thread = (call, program) := by
    intro position thread hget
    rcases Nat.lt_trichotomy position pool.threads.length with
      hlt | heq | hgt
    · rw [List.getElem?_append_left hlt] at hget
      exact .inl hget
    · subst heq
      simp only [List.getElem?_concat_length, Option.some.injEq] at hget
      exact .inr ⟨rfl, hget.symm⟩
    · rw [List.getElem?_eq_none (by simp; omega)] at hget
      cases hget
  refine ⟨holds.inv, ?_, ?_⟩
  · intro thread hmem
    rcases List.mem_append.mp hmem with hold | hnew
    · exact holds.safe thread hold
    · rw [List.mem_singleton.mp hnew]
      exact safe
  · intro first second thread other hne hfirst hsecond hrun hrunOther
    rcases hlast hfirst with hold | ⟨hindex, rfl⟩
    · rcases hlast hsecond with hold' | ⟨_, rfl⟩
      · exact holds.apart hne hold hold' hrun hrunOther
      · exact isolation.symm (allowed thread (List.mem_of_getElem? hold) hrun)
    · rcases hlast hsecond with hold' | ⟨hposition, _⟩
      · exact allowed other (List.mem_of_getElem? hold') hrunOther
      · exact absurd (hindex.trans hposition.symm) hne

/-- The isolation holds in every state of a run whose events are allowed, when
every procedure is safe where it starts. -/
theorem Holds.of_reachable {program : Call → Program Effect Result}
    {allowed : Pool Effect Result World Call → PoolEvent Call Choice → Prop}
    {start pool : Pool Effect Result World Call}
    (reached : Reachable (Pool.step program handle) allowed start pool)
    (initially : isolation.Holds handle start)
    (sound : ∀ pool event, allowed pool event → isolation.Allowed pool event)
    (starts : ∀ call world, isolation.inv world →
      isolation.Safe handle call (program call) world) :
    isolation.Holds handle pool := by
  refine reached.invariant (isolation.Holds handle) initially ?_
  intro before event after holds permitted stepped
  cases event with
  | start call =>
      cases stepped
      exact holds.start (sound _ _ permitted)
        (starts call before.world holds.inv)
  | act index choice => exact holds.act (sound _ _ permitted) stepped

end Isolation

end TwakeKickstart.Library
