import TwakeKickstart.Library.Async

namespace TwakeKickstart.Library

/-! The paths of a procedure: its effects with results that nothing restricts,
as when any call may succeed, find nothing or be rejected.  The effects of a
procedure that is forked stand before those that follow. -/

namespace Program

variable {Effect : Type} {Result : Effect → Type}

inductive Path : Program Effect Result → List (Sigma Result) → Prop
  | done : Path .done []
  | perform {effect : Effect} {next : Result effect → Program Effect Result}
      {rest : List (Sigma Result)} (result : Result effect)
      (onward : Path (next result) rest) :
      Path (.perform effect next) (⟨effect, result⟩ :: rest)
  | fork {child after : Program Effect Result}
      {first second : List (Sigma Result)} (forked : Path child first)
      (onward : Path after second) :
      Path (.fork child after) (first ++ second)

@[simp] theorem path_done {path : List (Sigma Result)} :
    Path (.done : Program Effect Result) path ↔ path = [] := by
  refine ⟨fun h => ?_, ?_⟩
  · cases h
    rfl
  · rintro rfl
    exact .done

theorem path_perform {effect : Effect}
    {next : Result effect → Program Effect Result}
    {path : List (Sigma Result)} :
    Path (.perform effect next) path ↔
      ∃ result rest, path = ⟨effect, result⟩ :: rest ∧
        Path (next result) rest := by
  refine ⟨fun h => ?_, ?_⟩
  · cases h with
    | perform result onward => exact ⟨result, _, rfl, onward⟩
  · rintro ⟨result, rest, rfl, onward⟩
    exact .perform result onward

theorem path_fork {child after : Program Effect Result}
    {path : List (Sigma Result)} :
    Path (.fork child after) path ↔
      ∃ first second, path = first ++ second ∧ Path child first ∧
        Path after second := by
  refine ⟨fun h => ?_, ?_⟩
  · cases h with
    | fork forked onward => exact ⟨_, _, rfl, forked, onward⟩
  · rintro ⟨first, second, rfl, forked, onward⟩
    exact .fork forked onward

theorem path_of_forkAll_singleton {child : Program Effect Result}
    {path : List (Sigma Result)} (h : Path (forkAll [child] .done) path) :
    Path child path := by
  obtain ⟨first, second, rfl, hfirst, hsecond⟩ := path_fork.mp h
  rw [path_done.mp hsecond, List.append_nil]
  exact hfirst

/-- A property of paths that adds up: what holds of each forked procedure and
of the rest gives what holds of the whole. -/
theorem path_forkAll {children : List (Program Effect Result)}
    {after : Program Effect Result} {path : List (Sigma Result)}
    (Holds : List (Sigma Result) → Prop)
    (append : ∀ first second, Holds first → Holds second →
      Holds (first ++ second))
    (forked : ∀ child ∈ children, ∀ path, Path child path → Holds path)
    (empty : Holds [])
    (h : Path (forkAll children after) path) :
    ∃ first second, path = first ++ second ∧ Holds first ∧
      Path after second := by
  induction children generalizing path with
  | nil => exact ⟨[], path, rfl, empty, h⟩
  | cons child children ih =>
      obtain ⟨own, others, rfl, hown, hothers⟩ := path_fork.mp h
      obtain ⟨first, second, rfl, hfirst, hsecond⟩ :=
        ih (fun other hother =>
          forked other (List.mem_cons_of_mem _ hother)) hothers
      exact ⟨own ++ first, second, (List.append_assoc _ _ _).symm,
        append _ _ (forked child List.mem_cons_self own hown) hfirst, hsecond⟩

/-- No path has a bad effect before it has an outcome that releases it. -/
def Until (bad : Effect → Prop) (released : Sigma Result → Prop) :
    Program Effect Result → Prop
  | .done => True
  | .perform effect next => ¬ bad effect ∧
      ∀ result, released ⟨effect, result⟩ ∨ Until bad released (next result)
  | .fork child after => Until bad released child ∧ Until bad released after

namespace Until

variable {bad : Effect → Prop} {released : Sigma Result → Prop}

theorem perform {effect : Effect}
    {next : Result effect → Program Effect Result} (spared : ¬ bad effect)
    (onward : ∀ result, Until bad released (next result)) :
    Until bad released (.perform effect next) :=
  ⟨spared, fun result => .inr (onward result)⟩

end Until

end Program

namespace Pool

variable {Effect : Type} {Result : Effect → Type}
variable {World Call Choice : Type}
variable {handle : Choice → Handler Effect Result World}
variable {pool after : Pool Effect Result World Call}
variable {index : Nat} {choice : Choice}

/-- What the thread at `index` performs, when that is an effect. -/
def performed (handle : Choice → Handler Effect Result World)
    (pool : Pool Effect Result World Call) (index : Nat) (choice : Choice) :
    List (Sigma Result) :=
  match pool.threads[index]? with
  | some (_, .perform effect _) =>
      [⟨effect, (handle choice effect pool.world).1⟩]
  | _ => []

theorem performed_eq {call : Call} {effect : Effect}
    {next : Result effect → Program Effect Result}
    (thread : pool.threads[index]? = some (call, .perform effect next)) :
    pool.performed handle index choice =
      [⟨effect, (handle choice effect pool.world).1⟩] := by
  simp only [performed, thread]

theorem mem_performed {outcome : Sigma Result}
    (h : outcome ∈ pool.performed handle index choice) :
    ∃ call effect next,
      pool.threads[index]? = some (call, .perform effect next) ∧
      outcome = ⟨effect, (handle choice effect pool.world).1⟩ := by
  unfold performed at h
  split at h
  · rename_i call effect next hthread
    exact ⟨call, effect, next, hthread, List.mem_singleton.mp h⟩
  · cases h

theorem act_perform {call : Call} {effect : Effect}
    {next : Result effect → Program Effect Result}
    (thread : pool.threads[index]? = some (call, .perform effect next)) :
    pool.act handle index choice =
      some { world := (handle choice effect pool.world).2
             threads := pool.threads.set index
               (call, next (handle choice effect pool.world).1) } := by
  simp only [act, thread]

theorem act_other {other : Nat}
    (h : pool.act handle index choice = some after) (different : other ≠ index)
    (present : other < pool.threads.length) :
    after.threads[other]? = pool.threads[other]? := by
  rcases act_cases h with ⟨call, effect, next, -, -, hthreads⟩ |
    ⟨call, child, rest, -, -, hthreads⟩
  · rw [hthreads, List.getElem?_set_ne (Ne.symm different)]
  · rw [hthreads, List.getElem?_append_left (by simpa using present),
      List.getElem?_set_ne (Ne.symm different)]

theorem until_act {bad : Effect → Prop} {released : Sigma Result → Prop}
    (Concerned : Call → Prop)
    (holds : ∀ thread ∈ pool.threads, Concerned thread.1 →
      thread.2.Until bad released)
    (h : pool.act handle index choice = some after)
    (unreleased : ∀ call program,
      pool.threads[index]? = some (call, program) → Concerned call →
      ∀ outcome ∈ pool.performed handle index choice, ¬ released outcome) :
    ∀ thread ∈ after.threads, Concerned thread.1 →
      thread.2.Until bad released := by
  rcases act_cases h with
    ⟨call, effect, next, hthread, hworld, hthreads⟩ |
    ⟨call, child, rest, hthread, hworld, hthreads⟩
  · intro thread hmem hconcerned
    rw [hthreads] at hmem
    rcases List.mem_or_eq_of_mem_set hmem with hold | rfl
    · exact holds thread hold hconcerned
    · have hprogram := holds _ (List.mem_of_getElem? hthread) hconcerned
      rcases hprogram.2 (handle choice effect pool.world).1 with
        hreleased | hnext
      · refine absurd hreleased (unreleased _ _ hthread hconcerned _ ?_)
        rw [performed_eq hthread]
        exact List.mem_singleton_self _
      · exact hnext
  · intro thread hmem hconcerned
    rw [hthreads] at hmem
    have hforked : Concerned call →
        (Program.fork child rest).Until bad released :=
      holds _ (List.mem_of_getElem? hthread)
    rcases List.mem_append.mp hmem with hmem | hmem
    · rcases List.mem_or_eq_of_mem_set hmem with hold | rfl
      · exact holds thread hold hconcerned
      · exact (hforked hconcerned).2
    · rw [List.mem_singleton.mp hmem] at hconcerned ⊢
      exact (hforked hconcerned).1

end Pool

end TwakeKickstart.Library
