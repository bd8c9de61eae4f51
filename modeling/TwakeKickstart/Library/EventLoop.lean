import Mathlib.Data.List.Perm.Basic
import TwakeKickstart.Library.Transition

namespace TwakeKickstart.Library

/-! One asynchronous procedure with several operations under way.  Completing
one of them, in any order, changes the variables and issues further ones. -/

structure Loop (Operation Vars : Type) where
  vars : Vars
  pending : List Operation

variable {Operation Vars Outcome : Type}

namespace Loop

def complete (react : Outcome → Operation → Vars → Vars × List Operation)
    (loop : Loop Operation Vars) (index : Nat) (outcome : Outcome) :
    Option (Loop Operation Vars) :=
  match loop.pending[index]? with
  | none => none
  | some operation =>
      let (vars, issued) := react outcome operation loop.vars
      some { vars, pending := loop.pending.eraseIdx index ++ issued }

/-- `operation` is taken out of the pending ones, which leaves `rest`, and the
reaction to its outcome gives the state after. -/
structure Completes
    (react : Outcome → Operation → Vars → Vars × List Operation)
    (before : Loop Operation Vars) (outcome : Outcome) (operation : Operation)
    (rest : List Operation) (after : Loop Operation Vars) : Prop where
  pending : before.pending.Perm (operation :: rest)
  vars : after.vars = (react outcome operation before.vars).1
  issued : after.pending = rest ++ (react outcome operation before.vars).2

theorem complete_cases
    {react : Outcome → Operation → Vars → Vars × List Operation}
    {before after : Loop Operation Vars} {index : Nat} {outcome : Outcome}
    (h : before.complete react index outcome = some after) :
    ∃ operation, before.pending[index]? = some operation ∧
      Completes react before outcome operation
        (before.pending.eraseIdx index) after := by
  unfold complete at h
  split at h
  · cases h
  · rename_i operation hoperation
    cases h
    refine ⟨operation, hoperation, ?_, rfl, rfl⟩
    obtain ⟨hlt, hget⟩ := List.getElem?_eq_some_iff.mp hoperation
    rw [← hget]
    exact (List.getElem_cons_eraseIdx_perm hlt).symm

namespace Completes

variable {react : Outcome → Operation → Vars → Vars × List Operation}
variable {before after : Loop Operation Vars} {outcome : Outcome}
variable {operation : Operation} {rest : List Operation}

theorem mem_pending (completes : Completes react before outcome operation rest
    after) : operation ∈ before.pending :=
  completes.pending.mem_iff.mpr List.mem_cons_self

theorem only (completes : Completes react before outcome operation rest after)
    {single : Operation} (h : before.pending = [single]) :
    operation = single ∧ rest = [] := by
  have hperm := completes.pending
  rw [h] at hperm
  obtain ⟨hsame, hrest⟩ := List.cons.inj (List.singleton_perm.mp hperm)
  exact ⟨hsame.symm, hrest.symm⟩

theorem mem_after (completes : Completes react before outcome operation rest
    after) {other : Operation} (h : other ∈ after.pending) :
    other ∈ rest ∧ other ∈ before.pending ∨
      other ∈ (react outcome operation before.vars).2 := by
  rw [completes.issued] at h
  rcases List.mem_append.mp h with hrest | hissued
  · exact .inl ⟨hrest,
      completes.pending.mem_iff.mpr (List.mem_cons_of_mem _ hrest)⟩
  · exact .inr hissued

theorem mem_before (completes : Completes react before outcome operation rest
    after) {other : Operation} (h : other ∈ before.pending) :
    other = operation ∨ other ∈ after.pending := by
  rcases List.mem_cons.mp (completes.pending.mem_iff.mp h) with heq | hrest
  · exact .inl heq
  · rw [completes.issued]
    exact .inr (List.mem_append_left _ hrest)

theorem countP_balance (completes : Completes react before outcome operation
    rest after) (counted : Operation → Bool) :
    after.pending.countP counted + (if counted operation then 1 else 0) =
      before.pending.countP counted +
        (react outcome operation before.vars).2.countP counted := by
  rw [completes.issued, completes.pending.countP_eq, List.countP_append,
    List.countP_cons]
  omega

end Completes

/-- When every completion lowers a measure, the operations that are under way
can be completed, down to the last one. -/
theorem exists_finish
    {react : Outcome → Operation → Vars → Vars × List Operation}
    {allowed : Loop Operation Vars → Nat × Outcome → Prop}
    {start : Loop Operation Vars} {outcome : Outcome}
    (permitted : ∀ loop index, allowed loop (index, outcome))
    (Keeps : Loop Operation Vars → Prop) (measure : Loop Operation Vars → Nat)
    (falls : ∀ before operation rest after, Keeps before →
      Completes react before outcome operation rest after →
      Keeps after ∧ measure after < measure before)
    {loop : Loop Operation Vars}
    (reached : Reachable (fun loop event => loop.complete react event.1 event.2)
      allowed start loop)
    (keeps : Keeps loop) :
    ∃ final, Reachable (fun loop event => loop.complete react event.1 event.2)
      allowed start final ∧ final.pending = [] ∧ Keeps final := by
  induction hmeasure : measure loop using Nat.strongRecOn
    generalizing loop with
  | _ bound ih =>
      cases hpending : loop.pending with
      | nil => exact ⟨loop, reached, hpending, keeps⟩
      | cons operation rest =>
          have hstep : loop.complete react 0 outcome =
              some ⟨(react outcome operation loop.vars).1,
                rest ++ (react outcome operation loop.vars).2⟩ := by
            simp only [complete, hpending, List.getElem?_cons_zero,
              List.eraseIdx_cons_zero]
          have hcompletes : Completes react loop outcome operation rest
              ⟨(react outcome operation loop.vars).1,
                rest ++ (react outcome operation loop.vars).2⟩ :=
            ⟨by rw [hpending], rfl, rfl⟩
          obtain ⟨hkeeps, hlower⟩ := falls loop operation rest _ keeps hcompletes
          rw [hmeasure] at hlower
          exact ih _ hlower
            (Reachable.tail reached (permitted loop 0) hstep)
            hkeeps rfl

end Loop

end TwakeKickstart.Library
