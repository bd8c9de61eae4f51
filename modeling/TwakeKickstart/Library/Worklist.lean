import Mathlib.Algebra.BigOperators.Group.Finset.Basic
import Mathlib.Logic.Relation

namespace TwakeKickstart.Library.Worklist

/-! A queue of items that are taken up from its front, each at most once, and
each with the items that follow from it put at the end. -/

variable {α : Type} [DecidableEq α]

/-- `none` is a loop that has not come to its end. -/
def explore (next : α → List α) : Nat → List α → List α → Option (List α)
  | _, [], result => some result
  | 0, _ :: _, _ => none
  | fuel + 1, item :: queue, result =>
      if item ∈ result then explore next fuel queue result
      else explore next fuel (queue ++ next item) (result ++ [item])

/-- What follows from an item, in any number of steps. -/
def Leads (next : α → List α) : α → α → Prop :=
  Relation.ReflTransGen fun item other => other ∈ next item

variable {next : α → List α} {fuel : Nat} {queue result final : List α}

@[simp] theorem explore_nil : explore next fuel [] result = some result := by
  cases fuel <;> rfl

theorem explore_seen {item : α} (h : item ∈ result) :
    explore next (fuel + 1) (item :: queue) result =
      explore next fuel queue result :=
  if_pos h

theorem explore_unseen {item : α} (h : item ∉ result) :
    explore next (fuel + 1) (item :: queue) result =
      explore next fuel (queue ++ next item) (result ++ [item]) :=
  if_neg h

/-- What holds when the queue is empty, and before each turn of the loop if it
holds after it, holds before the loop. -/
theorem explore_induction {motive : List α → List α → Prop}
    (finished : motive [] final)
    (seen : ∀ {item queue result}, item ∈ result → motive queue result →
      motive (item :: queue) result)
    (unseen : ∀ {item queue result}, item ∉ result →
      motive (queue ++ next item) (result ++ [item]) →
      motive (item :: queue) result)
    (h : explore next fuel queue result = some final) :
    motive queue result := by
  induction fuel generalizing queue result with
  | zero =>
      cases queue with
      | nil =>
          rw [explore_nil] at h
          cases h
          exact finished
      | cons item queue => cases h
  | succ fuel ih =>
      cases queue with
      | nil =>
          rw [explore_nil] at h
          cases h
          exact finished
      | cons item queue =>
          by_cases hitem : item ∈ result
          · rw [explore_seen hitem] at h
            exact seen hitem (ih h)
          · rw [explore_unseen hitem] at h
            exact unseen hitem (ih h)

theorem explore_sound {item : α}
    (h : explore next fuel queue result = some final) (hitem : item ∈ final) :
    item ∈ result ∨ ∃ start ∈ queue, Leads next start item := by
  refine explore_induction (motive := fun queue result =>
    item ∈ result ∨ ∃ start ∈ queue, Leads next start item)
    (.inl hitem) ?_ ?_ h
  · rintro first queue result _ (hresult | ⟨start, hstart, leads⟩)
    · exact .inl hresult
    · exact .inr ⟨start, List.mem_cons_of_mem first hstart, leads⟩
  · rintro first queue result _ (hresult | ⟨start, hstart, leads⟩)
    · obtain hresult | hfirst := List.mem_append.mp hresult
      · exact .inl hresult
      · rw [List.mem_singleton.mp hfirst]
        exact .inr ⟨first, List.mem_cons_self, .refl⟩
    · obtain hqueue | hnext := List.mem_append.mp hstart
      · exact .inr ⟨start, List.mem_cons_of_mem first hqueue, leads⟩
      · exact .inr ⟨first, List.mem_cons_self, .head hnext leads⟩

theorem explore_complete (h : explore next fuel queue result = some final) :
    (∀ item ∈ result, item ∈ final) ∧ ∀ item ∈ queue, item ∈ final := by
  refine explore_induction (motive := fun queue result =>
    (∀ item ∈ result, item ∈ final) ∧ ∀ item ∈ queue, item ∈ final)
    ⟨fun _ hitem => hitem, fun _ hitem => absurd hitem List.not_mem_nil⟩
    ?_ ?_ h
  · rintro first queue result hfirst ⟨hresult, hqueue⟩
    exact ⟨hresult, List.forall_mem_cons.mpr ⟨hresult first hfirst, hqueue⟩⟩
  · rintro first queue result _ ⟨hresult, hqueue⟩
    rw [List.forall_mem_append] at hresult hqueue
    exact ⟨hresult.1, List.forall_mem_cons.mpr
      ⟨hresult.2 first List.mem_cons_self, hqueue.1⟩⟩

/-- What follows in one step from the items passed so far has been passed, or is
still queued. -/
def Pending (next : α → List α) (queue result : List α) : Prop :=
  ∀ item ∈ result, ∀ other ∈ next item, other ∈ result ∨ other ∈ queue

theorem explore_closed (h : explore next fuel queue result = some final)
    (pending : Pending next queue result) : Pending next [] final := by
  revert pending
  refine explore_induction (motive := fun queue result =>
    Pending next queue result → Pending next [] final) id ?_ ?_ h
  · intro first queue result hfirst ih pending
    refine ih fun item hitem other hother => ?_
    obtain hresult | hqueue := pending item hitem other hother
    · exact .inl hresult
    · obtain rfl | hqueue := List.mem_cons.mp hqueue
      · exact .inl hfirst
      · exact .inr hqueue
  · intro first queue result _ ih pending
    refine ih fun item hitem other hother => ?_
    rw [List.mem_append, List.mem_append]
    obtain hitem | hitem := List.mem_append.mp hitem
    · obtain hresult | hqueue := pending item hitem other hother
      · exact .inl (.inl hresult)
      · obtain rfl | hqueue := List.mem_cons.mp hqueue
        · exact .inl (.inr List.mem_cons_self)
        · exact .inr (.inl hqueue)
    · rw [List.mem_singleton.mp hitem] at hother
      exact .inr (.inr hother)

theorem mem_explore_iff {item : α}
    (h : explore next fuel queue [] = some final) :
    item ∈ final ↔ ∃ start ∈ queue, Leads next start item := by
  constructor
  · intro hitem
    obtain hnone | hstart := explore_sound h hitem
    · cases hnone
    · exact hstart
  · rintro ⟨start, hstart, leads⟩
    have closed : Pending next [] final :=
      explore_closed h fun _ hnone => absurd hnone List.not_mem_nil
    induction leads with
    | refl => exact (explore_complete h).2 start hstart
    | tail _ hstep ih =>
        obtain hfinal | hnone := closed _ ih _ hstep
        · exact hfinal
        · cases hnone

/-- The number of turns that are left, at most. -/
def turns (next : α → List α) (nodes : Finset α) (queue result : List α) :
    Nat :=
  queue.length + ∑ item ∈ nodes \ result.toFinset, (next item).length

theorem turns_unseen {nodes : Finset α} {item : α}
    (houtside : ∀ item, item ∉ nodes → next item = []) (h : item ∉ result) :
    turns next nodes (queue ++ next item) (result ++ [item]) + 1 =
      turns next nodes (item :: queue) result := by
  have hset : nodes \ (result ++ [item]).toFinset =
      (nodes \ result.toFinset).erase item := by
    ext other
    simp only [Finset.mem_sdiff, List.mem_toFinset, List.mem_append,
      List.mem_singleton, Finset.mem_erase]
    tauto
  have hsum : (next item).length +
      ∑ other ∈ (nodes \ result.toFinset).erase item, (next other).length =
        ∑ other ∈ nodes \ result.toFinset, (next other).length := by
    by_cases hnode : item ∈ nodes
    · refine Finset.add_sum_erase _ (fun other => (next other).length) ?_
      rw [Finset.mem_sdiff, List.mem_toFinset]
      exact ⟨hnode, h⟩
    · rw [houtside item hnode, Finset.erase_eq_of_notMem, List.length_nil,
        Nat.zero_add]
      intro hmem
      exact hnode (Finset.mem_sdiff.mp hmem).1
  rw [turns, turns, hset, List.length_append, List.length_cons, ← hsum]
  omega

/-- Over finitely many items with something after them, the loop comes to its
end. -/
theorem explore_isSome {nodes : Finset α}
    (houtside : ∀ item, item ∉ nodes → next item = [])
    (h : turns next nodes queue result ≤ fuel) :
    ∃ final, explore next fuel queue result = some final := by
  induction fuel generalizing queue result with
  | zero =>
      have hqueue : queue = [] := by
        rw [turns] at h
        exact List.length_eq_zero_iff.mp (by omega)
      rw [hqueue, explore_nil]
      exact ⟨result, rfl⟩
  | succ fuel ih =>
      cases queue with
      | nil => exact ⟨result, explore_nil⟩
      | cons item queue =>
          by_cases hitem : item ∈ result
          · rw [explore_seen hitem]
            refine ih ?_
            rw [turns, List.length_cons] at h
            rw [turns]
            omega
          · rw [explore_unseen hitem]
            refine ih ?_
            have hturns : turns next nodes (queue ++ next item)
                (result ++ [item]) + 1 = turns next nodes (item :: queue) result :=
              turns_unseen houtside hitem
            omega

end TwakeKickstart.Library.Worklist
