import Mathlib.Data.List.Basic

namespace TwakeKickstart.Library

/-! Asynchronous procedures as trees of effects.  `perform` waits for the result
of one effect; `fork` starts a procedure whose end nobody waits for. -/

inductive Program (Effect : Type) (Result : Effect → Type) where
  | done
  | perform (effect : Effect)
      (next : Result effect → Program Effect Result)
  | fork (child rest : Program Effect Result)

abbrev Handler (Effect : Type) (Result : Effect → Type) (World : Type) :=
  (effect : Effect) → World → Result effect × World

namespace Program

variable {Effect : Type} {Result : Effect → Type} {World : Type}

def run (handle : Handler Effect Result World) :
    Program Effect Result → World → World
  | done, world => world
  | perform effect next, world =>
      (next (handle effect world).1).run handle (handle effect world).2
  | fork child rest, world => rest.run handle (child.run handle world)

@[simp] theorem run_done (handle : Handler Effect Result World)
    (world : World) :
    (done : Program Effect Result).run handle world = world := rfl

@[simp] theorem run_perform (handle : Handler Effect Result World)
    (effect : Effect) (next : Result effect → Program Effect Result)
    (world : World) :
    (perform effect next).run handle world =
      (next (handle effect world).1).run handle (handle effect world).2 := rfl

@[simp] theorem run_fork (handle : Handler Effect Result World)
    (child rest : Program Effect Result) (world : World) :
    (fork child rest).run handle world =
      rest.run handle (child.run handle world) := rfl

def forkAll (children : List (Program Effect Result))
    (rest : Program Effect Result) : Program Effect Result :=
  children.foldr fork rest

@[simp] theorem run_forkAll (handle : Handler Effect Result World)
    (children : List (Program Effect Result)) (rest : Program Effect Result)
    (world : World) :
    (forkAll children rest).run handle world =
      rest.run handle
        (children.foldl (fun w child => child.run handle w) world) := by
  induction children generalizing world with
  | nil => rfl
  | cons child children ih => exact ih (child.run handle world)

end Program

/-! Procedures in progress over one world, each with the call it belongs to. -/

theorem split_at_index {α : Type} {items : List α} {index : Nat} {item : α}
    (h : items[index]? = some item) :
    ∃ before after, items = before ++ item :: after ∧
      ∀ other, items.set index other = before ++ other :: after := by
  obtain ⟨hlt, hget⟩ := List.getElem?_eq_some_iff.mp h
  refine ⟨items.take index, items.drop (index + 1), ?_, fun other => ?_⟩
  · rw [← hget, ← List.drop_eq_getElem_cons hlt, List.take_append_drop]
  · rw [List.set_eq_take_append_cons_drop, if_pos hlt]

/-- What holds at each item, given those before it, holds at the first one and
then at each of the others. -/
theorem forall_splits_cons {α : Type} {first : α} {rest : List α}
    {holds : List α → α → Prop} :
    (∀ before item after, first :: rest = before ++ item :: after →
        holds before item) ↔
      holds [] first ∧ ∀ before item after, rest = before ++ item :: after →
        holds (first :: before) item := by
  constructor
  · intro h
    refine ⟨h [] first rest rfl, fun before item after hrest => ?_⟩
    exact h (first :: before) item after (congrArg (first :: ·) hrest)
  · rintro ⟨hfirst, hrest⟩ before item after hitems
    cases before with
    | nil =>
        obtain ⟨rfl, _⟩ := List.cons.inj hitems
        exact hfirst
    | cons head before =>
        obtain ⟨rfl, hlater⟩ := List.cons.inj hitems
        exact hrest before item after hlater

structure Pool (Effect : Type) (Result : Effect → Type)
    (World Call : Type) where
  world : World
  threads : List (Call × Program Effect Result)

namespace Pool

variable {Effect : Type} {Result : Effect → Type}
variable {World Call Choice : Type}

/-- One thread takes its next step.  `choice` is what the environment decides
about the effect performed. -/
def act (handle : Choice → Handler Effect Result World)
    (pool : Pool Effect Result World Call) (index : Nat) (choice : Choice) :
    Option (Pool Effect Result World Call) :=
  match pool.threads[index]? with
  | some (call, .perform effect next) =>
      let (result, world) := handle choice effect pool.world
      some { world, threads := pool.threads.set index (call, next result) }
  | some (call, .fork child rest) =>
      some { pool with
        threads := pool.threads.set index (call, rest) ++ [(call, child)] }
  | _ => none

theorem act_cases {handle : Choice → Handler Effect Result World}
    {pool after : Pool Effect Result World Call} {index : Nat}
    {choice : Choice} (h : pool.act handle index choice = some after) :
    (∃ call effect next,
      pool.threads[index]? = some (call, .perform effect next) ∧
      after.world = (handle choice effect pool.world).2 ∧
      after.threads = pool.threads.set index
        (call, next (handle choice effect pool.world).1)) ∨
    (∃ call child rest,
      pool.threads[index]? = some (call, .fork child rest) ∧
      after.world = pool.world ∧
      after.threads =
        pool.threads.set index (call, rest) ++ [(call, child)]) := by
  unfold act at h
  split at h
  · rename_i call effect next hthread
    cases h
    exact .inl ⟨call, effect, next, hthread, rfl, rfl⟩
  · rename_i call child rest hthread
    cases h
    exact .inr ⟨call, child, rest, hthread, rfl, rfl⟩
  · cases h

end Pool

end TwakeKickstart.Library

namespace TwakeKickstart.Library

/-! Procedures that run alone.  What the environment decides, effect by effect,
is given as a list; what is left of it is returned. -/

namespace Program

variable {Effect : Type} {Result : Effect → Type} {World Choice : Type}

def play (handle : Choice → Handler Effect Result World)
    (permits : Effect → Choice → World → Bool) :
    Program Effect Result → World → List Choice → Option (World × List Choice)
  | done, world, choices => some (world, choices)
  | perform _ _, _, [] => none
  | perform effect next, world, choice :: choices =>
      if permits effect choice world then
        (next (handle choice effect world).1).play handle permits
          (handle choice effect world).2 choices
      else none
  | fork child rest, world, choices =>
      (child.play handle permits world choices).bind fun (world, choices) =>
        rest.play handle permits world choices

variable {handle : Choice → Handler Effect Result World}
variable {permits : Effect → Choice → World → Bool}

theorem play_done {world : World} {choices : List Choice}
    {final : World × List Choice}
    (h : (done : Program Effect Result).play handle permits world choices =
      some final) : final.1 = world := by
  cases h
  rfl

theorem play_perform {effect : Effect}
    {next : Result effect → Program Effect Result} {world : World}
    {choices : List Choice} {final : World × List Choice}
    (h : (perform effect next).play handle permits world choices =
      some final) :
    ∃ choice rest, permits effect choice world = true ∧
      (next (handle choice effect world).1).play handle permits
        (handle choice effect world).2 rest = some final := by
  cases choices with
  | nil => cases h
  | cons choice rest =>
      unfold play at h
      split at h
      · rename_i hpermits
        exact ⟨choice, rest, hpermits, h⟩
      · cases h

end Program

end TwakeKickstart.Library
