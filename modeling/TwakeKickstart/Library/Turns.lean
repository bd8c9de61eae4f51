import TwakeKickstart.Library.RelyGuarantee

namespace TwakeKickstart.Library

/-! Pools in which some of the calls take turns: one starts when the others
have ended.  What such a run leaves is what the calls leave that run alone, one
after the other, whatever the rest of the pool does. -/

variable {Effect : Type} {Result : Effect → Type}
variable {World Call Choice : Type}

/-- `mine` are the calls that take turns; `same` worlds are alike in their part
of the world, and `ok` is the choice that the environment makes for them. -/
structure Turns (World Call Choice : Type) where
  mine : Call → Bool
  same : World → World → Prop
  ok : Choice
  refl : ∀ world, same world world
  trans : ∀ {first second third}, same first second → same second third →
    same first third

namespace Turns

variable (turns : Turns World Call Choice)
variable (handle : Choice → Handler Effect Result World)

/-- The procedure stays out of that part of the world. -/
def Aside : Program Effect Result → Prop
  | .done => True
  | .perform effect next =>
      (∀ choice world, turns.same world (handle choice effect world).2) ∧
      ∀ result, Aside (next result)
  | .fork child rest => Aside child ∧ Aside rest

/-- The procedure depends on that part of the world only.  Procedures that fork
are not considered. -/
def Own : Program Effect Result → Prop
  | .done => True
  | .perform effect next =>
      (∀ world world', turns.same world world' →
        (handle turns.ok effect world).1 = (handle turns.ok effect world').1 ∧
        turns.same (handle turns.ok effect world).2
          (handle turns.ok effect world').2) ∧
      ∀ result, Own (next result)
  | .fork _ _ => False

variable {turns} {handle}

theorem Own.run_same {program : Program Effect Result}
    (own : turns.Own handle program) {world world' : World}
    (same : turns.same world world') :
    turns.same (program.run (handle turns.ok) world)
      (program.run (handle turns.ok) world') := by
  induction program generalizing world world' with
  | done => exact same
  | perform effect next ih =>
      obtain ⟨hresult, hafter⟩ := own.1 world world' same
      rw [Program.run_perform, Program.run_perform, ← hresult]
      exact ih _ (own.2 _) hafter
  | fork child rest _ _ => exact own.elim

variable (turns)

/-- What is left to do of the calls that take turns. -/
def owing (threads : List (Call × Program Effect Result)) :
    List (Program Effect Result) :=
  (threads.filter fun thread => turns.mine thread.1).map Prod.snd

variable (handle)

/-- The world after the rest of these calls has run. -/
def finish (pool : Pool Effect Result World Call) : World :=
  (turns.owing pool.threads).foldl
    (fun world program => program.run (handle turns.ok) world) pool.world

def called (pool : Pool Effect Result World Call) : List Call :=
  pool.calls.filter turns.mine

structure Holds (Good : List Call → World → Prop)
    (pool : Pool Effect Result World Call) : Prop where
  aside : ∀ thread ∈ pool.threads, turns.mine thread.1 = false →
    turns.Aside handle thread.2
  own : ∀ thread ∈ pool.threads, turns.mine thread.1 = true →
    turns.Own handle thread.2
  inTurn : ∀ earlier last, turns.owing pool.threads = earlier ++ [last] →
    ∀ program ∈ earlier, program = .done
  good : Good (turns.called pool) (turns.finish handle pool)

/-- A call starts in its turn, and the environment decides as usual. -/
def InTurn (Admits : List Call → World → Call → Prop)
    (pool : Pool Effect Result World Call) :
    PoolEvent Call Choice → Prop
  | .start call => turns.mine call = true →
      (∀ program ∈ turns.owing pool.threads, program = .done) ∧
      Admits (turns.called pool) pool.world call
  | .act index choice => ∀ call effect next,
      pool.threads[index]? = some (call, .perform effect next) →
      turns.mine call = true →
      ∀ world, handle choice effect world = handle turns.ok effect world

variable {turns} {handle}

theorem foldl_done {programs : List (Program Effect Result)}
    (h : ∀ program ∈ programs, program = .done) (world : World) :
    programs.foldl
      (fun world program => program.run (handle turns.ok) world) world =
        world := by
  induction programs generalizing world with
  | nil => rfl
  | cons program rest ih =>
      rw [List.foldl_cons, h program List.mem_cons_self]
      exact ih (fun other hother => h other (List.mem_cons_of_mem _ hother)) _

theorem finish_ended {pool : Pool Effect Result World Call}
    (h : ∀ program ∈ turns.owing pool.threads, program = .done) :
    turns.finish handle pool = pool.world :=
  foldl_done h pool.world

theorem owing_append (threads more : List (Call × Program Effect Result)) :
    turns.owing (threads ++ more) = turns.owing threads ++ turns.owing more := by
  simp [owing]

theorem owing_cons (call : Call) (program : Program Effect Result)
    (threads : List (Call × Program Effect Result)) :
    turns.owing ((call, program) :: threads) =
      if turns.mine call = true then program :: turns.owing threads
      else turns.owing threads := by
  unfold owing
  rw [List.filter_cons]
  split
  · rfl
  · rfl

theorem finish_same {programs : List (Program Effect Result)}
    (own : ∀ program ∈ programs, turns.Own handle program)
    {world world' : World} (same : turns.same world world') :
    turns.same
      (programs.foldl
        (fun world program => program.run (handle turns.ok) world) world)
      (programs.foldl
        (fun world program => program.run (handle turns.ok) world) world') := by
  induction programs generalizing world world' with
  | nil => exact same
  | cons program rest ih =>
      exact ih (fun other hother => own other (List.mem_cons_of_mem _ hother))
        ((own program List.mem_cons_self).run_same same)

theorem own_of_owing {threads : List (Call × Program Effect Result)}
    (own : ∀ thread ∈ threads, turns.mine thread.1 = true →
      turns.Own handle thread.2) :
    ∀ program ∈ turns.owing threads, turns.Own handle program := by
  intro program hprogram
  obtain ⟨thread, hthread, rfl⟩ := List.mem_map.mp hprogram
  obtain ⟨hmem, hmine⟩ := List.mem_filter.mp hthread
  exact own thread hmem hmine

variable {Good : List Call → World → Prop}

section Step

variable {pool after : Pool Effect Result World Call} {index : Nat}
variable {choice : Choice} {call : Call} {effect : Effect}
variable {next : Result effect → Program Effect Result}

theorem Holds.advance (holds : turns.Holds handle Good pool)
    (isMine : turns.mine call = true)
    (usual : ∀ world,
      handle choice effect world = handle turns.ok effect world)
    (thread : pool.threads[index]? = some (call, .perform effect next))
    (world : after.world = (handle choice effect pool.world).2)
    (threads : after.threads = pool.threads.set index
      (call, next (handle choice effect pool.world).1)) :
    turns.Holds handle Good after := by
  obtain ⟨before, later, hsplit, hset⟩ := split_at_index thread
  rw [hset] at threads
  rw [usual] at world threads
  have howing : turns.owing pool.threads =
      turns.owing before ++ .perform effect next :: turns.owing later := by
    rw [hsplit, owing_append, owing_cons, if_pos isMine]
  have hlater : turns.owing later = [] := by
    rcases List.eq_nil_or_concat (turns.owing later) with hnil | hlast
    · exact hnil
    · obtain ⟨earlier, last, hlast⟩ := hlast
      rw [hlast, List.concat_eq_append, ← List.cons_append,
        ← List.append_assoc] at howing
      have hdone := holds.inTurn _ _ howing (.perform effect next)
        (List.mem_append_right _ List.mem_cons_self)
      cases hdone
  rw [hlater] at howing
  have hdone := holds.inTurn _ _ howing
  have hafter : turns.owing after.threads = turns.owing before ++
      [next (handle turns.ok effect pool.world).1] := by
    rw [threads, owing_append, owing_cons, if_pos isMine, hlater]
  have hown := holds.own (call, .perform effect next)
    (List.mem_of_getElem? thread) isMine
  refine ⟨?_, ?_, ?_, ?_⟩
  · intro other hother hnot
    rw [threads] at hother
    rcases List.mem_append.mp hother with hold | hrest
    · exact holds.aside other (hsplit ▸ List.mem_append_left _ hold) hnot
    · rcases List.mem_cons.mp hrest with rfl | hold
      · rw [isMine] at hnot
        cases hnot
      · exact holds.aside other (hsplit ▸ List.mem_append_right _
          (List.mem_cons_of_mem _ hold)) hnot
  · intro other hother hmine
    rw [threads] at hother
    rcases List.mem_append.mp hother with hold | hrest
    · exact holds.own other (hsplit ▸ List.mem_append_left _ hold) hmine
    · rcases List.mem_cons.mp hrest with rfl | hold
      · exact hown.2 _
      · exact holds.own other (hsplit ▸ List.mem_append_right _
          (List.mem_cons_of_mem _ hold)) hmine
  · intro earlier last hlast program hprogram
    rw [hafter] at hlast
    obtain ⟨rfl, _⟩ := List.append_inj' hlast rfl
    exact hdone program hprogram
  · have hgood := holds.good
    have hcalls : turns.called after = turns.called pool := by
      simp [called, Pool.calls, threads, hsplit]
    have hfinish : turns.finish handle after = turns.finish handle pool := by
      rw [finish, finish, hafter, howing, List.foldl_append,
        List.foldl_append, foldl_done hdone, foldl_done hdone, world]
      rfl
    rw [hcalls, hfinish]
    exact hgood

variable (respects : ∀ {calls world world'}, turns.same world world' →
  Good calls world → Good calls world')
include respects

theorem Holds.aside_perform (holds : turns.Holds handle Good pool)
    (notMine : turns.mine call = false)
    (thread : pool.threads[index]? = some (call, .perform effect next))
    (world : after.world = (handle choice effect pool.world).2)
    (threads : after.threads = pool.threads.set index
      (call, next (handle choice effect pool.world).1)) :
    turns.Holds handle Good after := by
  obtain ⟨before, later, hsplit, hset⟩ := split_at_index thread
  rw [hset] at threads
  have hnot : ¬ turns.mine call = true := by simp [notMine]
  have howing : turns.owing after.threads = turns.owing pool.threads := by
    rw [threads, hsplit, owing_append, owing_append, owing_cons, owing_cons,
      if_neg hnot, if_neg hnot]
  have haside := holds.aside (call, .perform effect next)
    (List.mem_of_getElem? thread) notMine
  have hold : ∀ other ∈ after.threads, other ∈ pool.threads ∨
      other = (call, next (handle choice effect pool.world).1) := by
    intro other hother
    rw [threads] at hother
    rcases List.mem_append.mp hother with hbefore | hrest
    · exact .inl (hsplit ▸ List.mem_append_left _ hbefore)
    · rcases List.mem_cons.mp hrest with rfl | hlater
      · exact .inr rfl
      · exact .inl (hsplit ▸ List.mem_append_right _
          (List.mem_cons_of_mem _ hlater))
  refine ⟨?_, ?_, ?_, ?_⟩
  · intro other hother hother'
    rcases hold other hother with hmem | rfl
    · exact holds.aside other hmem hother'
    · exact haside.2 _
  · intro other hother hmine
    rcases hold other hother with hmem | rfl
    · exact holds.own other hmem hmine
    · exact absurd hmine hnot
  · rw [howing]
    exact holds.inTurn
  · have hcalls : turns.called after = turns.called pool := by
      simp [called, Pool.calls, threads, hsplit]
    rw [hcalls, finish, howing, world]
    exact respects (finish_same (own_of_owing holds.own)
      (haside.1 choice pool.world)) holds.good

end Step

section Run

variable (respects : ∀ {calls world world'}, turns.same world world' →
  Good calls world → Good calls world')

theorem Holds.fork {pool after : Pool Effect Result World Call} {index : Nat}
    {call : Call} {child rest : Program Effect Result}
    (holds : turns.Holds handle Good pool)
    (thread : pool.threads[index]? = some (call, .fork child rest))
    (world : after.world = pool.world)
    (threads : after.threads =
      pool.threads.set index (call, rest) ++ [(call, child)]) :
    turns.Holds handle Good after := by
  obtain ⟨before, later, hsplit, hset⟩ := split_at_index thread
  rw [hset] at threads
  have hmem := List.mem_of_getElem? thread
  have hnot : ¬ turns.mine call = true := fun hmine =>
    (holds.own _ hmem hmine).elim
  have howing : turns.owing after.threads = turns.owing pool.threads := by
    rw [threads, hsplit]
    simp only [owing_append, owing_cons, if_neg hnot]
    simp [owing]
  have hold : ∀ other ∈ after.threads, other ∈ pool.threads ∨
      other = (call, rest) ∨ other = (call, child) := by
    intro other hother
    rw [threads] at hother
    simp only [List.mem_append, List.mem_cons] at hother
    rw [hsplit, List.mem_append, List.mem_cons]
    tauto
  obtain ⟨hchild, hrest⟩ := holds.aside _ hmem (by simpa using hnot)
  refine ⟨?_, ?_, ?_, ?_⟩
  · intro other hother hother'
    rcases hold other hother with hmem | rfl | rfl
    · exact holds.aside other hmem hother'
    · exact hrest
    · exact hchild
  · intro other hother hmine
    rcases hold other hother with hmem | rfl | rfl
    · exact holds.own other hmem hmine
    · exact absurd hmine hnot
    · exact absurd hmine hnot
  · rw [howing]
    exact holds.inTurn
  · have hcalls : turns.called after = turns.called pool := by
      simp [called, Pool.calls, threads, hsplit, hnot]
    rw [hcalls, finish, howing, world]
    exact holds.good

theorem Holds.start {program : Call → Program Effect Result}
    {pool : Pool Effect Result World Call} {call : Call}
    {Admits : List Call → World → Call → Prop}
    (holds : turns.Holds handle Good pool)
    (permitted : turns.InTurn handle Admits pool (.start call))
    (aside : turns.mine call = false → turns.Aside handle (program call))
    (own : turns.mine call = true → turns.Own handle (program call))
    (good : ∀ calls world, turns.mine call = true → Good calls world →
      Admits calls world call →
      Good (calls ++ [call]) ((program call).run (handle turns.ok) world)) :
    turns.Holds handle Good
      { pool with threads := pool.threads ++ [(call, program call)] } := by
  have hmem : ∀ other ∈ pool.threads ++ [(call, program call)],
      other ∈ pool.threads ∨ other = (call, program call) := by
    intro other hother
    simpa using hother
  refine ⟨?_, ?_, ?_, ?_⟩
  · intro other hother hnot
    rcases hmem other hother with hold | rfl
    · exact holds.aside other hold hnot
    · exact aside hnot
  · intro other hother hmine
    rcases hmem other hother with hold | rfl
    · exact holds.own other hold hmine
    · exact own hmine
  · intro earlier last hlast
    change turns.owing (pool.threads ++ [(call, program call)]) = _ at hlast
    rw [owing_append, owing_cons] at hlast
    split at hlast
    · rename_i hmine
      obtain ⟨rfl, _⟩ := List.append_inj' hlast rfl
      exact (permitted hmine).1
    · rw [show turns.owing ([] : List (Call × Program Effect Result)) = [] from
        rfl, List.append_nil] at hlast
      exact holds.inTurn earlier last hlast
  · cases hmine : turns.mine call with
    | false =>
        have hcalls : turns.called
            { pool with threads := pool.threads ++ [(call, program call)] } =
              turns.called pool := by
          simp [called, Pool.calls, hmine]
        have hfinish : turns.finish handle
            { pool with threads := pool.threads ++ [(call, program call)] } =
              turns.finish handle pool := by
          rw [finish, owing_append, owing_cons, if_neg (by simp [hmine])]
          simp [owing, finish]
        rw [hcalls, hfinish]
        exact holds.good
    | true =>
        obtain ⟨hended, hadmits⟩ := permitted hmine
        have hcalls : turns.called
            { pool with threads := pool.threads ++ [(call, program call)] } =
              turns.called pool ++ [call] := by
          simp [called, Pool.calls, hmine]
        have hfinish : turns.finish handle
            { pool with threads := pool.threads ++ [(call, program call)] } =
              (program call).run (handle turns.ok) pool.world := by
          rw [finish, owing_append, owing_cons, if_pos hmine,
            List.foldl_append, foldl_done hended]
          rfl
        have hgood := holds.good
        rw [finish_ended hended] at hgood
        rw [hcalls, hfinish]
        exact good _ _ hmine hgood hadmits

include respects

/-- In every state of the run, the calls that have taken turns leave, once they
have ended, what they leave alone. -/
theorem Holds.of_reachable {program : Call → Program Effect Result}
    {Admits : List Call → World → Call → Prop}
    {start pool : Pool Effect Result World Call}
    (reached : Reachable (Pool.step program handle)
      (turns.InTurn handle Admits) start pool)
    (initially : turns.Holds handle Good start)
    (aside : ∀ call, turns.mine call = false →
      turns.Aside handle (program call))
    (own : ∀ call, turns.mine call = true → turns.Own handle (program call))
    (good : ∀ calls world call, turns.mine call = true → Good calls world →
      Admits calls world call →
      Good (calls ++ [call]) ((program call).run (handle turns.ok) world)) :
    turns.Holds handle Good pool := by
  refine reached.invariant (turns.Holds handle Good) initially ?_
  intro before event after holds permitted stepped
  cases event with
  | start call =>
      cases stepped
      exact holds.start permitted (aside call) (own call)
        (fun calls world => good calls world call)
  | act index choice =>
      rcases Pool.act_cases stepped with
        ⟨call, effect, next, hthread, hworld, hthreads⟩ |
        ⟨call, child, rest, hthread, hworld, hthreads⟩
      · cases hmine : turns.mine call with
        | true =>
            exact holds.advance hmine
              (permitted call effect next hthread hmine) hthread hworld hthreads
        | false =>
            exact holds.aside_perform respects hmine hthread hworld hthreads
      · exact holds.fork hthread hworld hthreads

end Run

end Turns

end TwakeKickstart.Library
