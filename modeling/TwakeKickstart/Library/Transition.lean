import Mathlib.Data.Option.Basic

namespace TwakeKickstart.Library

/-! Runs of a system given by a partial step function.  `allowed` restricts the
events a run may take, looking at the state before the step. -/

variable {State Event : Type}

inductive Reachable (step : State → Event → Option State)
    (allowed : State → Event → Prop) (start : State) : State → Prop
  | refl : Reachable step allowed start start
  | tail {before after : State} {event : Event}
      (reached : Reachable step allowed start before)
      (permitted : allowed before event)
      (stepped : step before event = some after) :
      Reachable step allowed start after

namespace Reachable

variable {step : State → Event → Option State}
variable {allowed : State → Event → Prop} {start state : State}

/-- What holds at the start and is kept by every allowed step holds in every
reached state. -/
theorem invariant (property : State → Prop)
    (reached : Reachable step allowed start state) (initially : property start)
    (kept : ∀ before event after, property before → allowed before event →
      step before event = some after → property after) :
    property state := by
  induction reached with
  | refl => exact initially
  | tail _ permitted stepped ih => exact kept _ _ _ ih permitted stepped

theorem mono {allowed' : State → Event → Prop}
    (weaker : ∀ state event, allowed state event → allowed' state event)
    (reached : Reachable step allowed start state) :
    Reachable step allowed' start state := by
  induction reached with
  | refl => exact .refl
  | tail _ permitted stepped ih =>
      exact ih.tail (weaker _ _ permitted) stepped

theorem of_map {Name : Type} (event : Name → Event)
    (reached : Reachable (fun state name => step state (event name))
      (fun state name => allowed state (event name)) start state) :
    Reachable step allowed start state := by
  induction reached with
  | refl => exact .refl
  | tail _ permitted stepped ih => exact ih.tail permitted stepped

theorem trans {finish : State} (reached : Reachable step allowed start state)
    (onward : Reachable step allowed state finish) :
    Reachable step allowed start finish := by
  induction onward with
  | refl => exact reached
  | tail _ permitted stepped ih => exact ih.tail permitted stepped

end Reachable

/-- The run of a list of events, each permitted where it is taken. -/
def runEvents (step : State → Event → Option State)
    (permits : State → Event → Bool) : List Event → State → Option State
  | [], state => some state
  | event :: rest, state =>
      if permits state event then
        (step state event).bind (runEvents step permits rest)
      else none

theorem reachable_of_runEvents {step : State → Event → Option State}
    {permits : State → Event → Bool} {allowed : State → Event → Prop}
    (sound : ∀ state event, permits state event = true → allowed state event)
    {events : List Event} {start finish : State}
    (h : runEvents step permits events start = some finish) :
    Reachable step allowed start finish := by
  have general : ∀ {middle : State}, Reachable step allowed start middle →
      runEvents step permits events middle = some finish →
      Reachable step allowed start finish := by
    clear h
    induction events with
    | nil =>
        intro middle reached h
        cases h
        exact reached
    | cons event rest ih =>
        intro middle reached h
        unfold runEvents at h
        split at h
        · rename_i hpermits
          obtain ⟨next, hstep, hrest⟩ := Option.bind_eq_some_iff.mp h
          exact ih (.tail reached (sound middle event hpermits) hstep) hrest
        · cases h
  exact general .refl h

/-- Each step of the run of `events` is a good one, as far as the run goes. -/
def EveryStep (step : State → Event → Option State)
    (good : State → Event → State → Prop) : List Event → State → Prop
  | [], _ => True
  | event :: rest, state =>
      ∀ after, step state event = some after →
        good state event after ∧ EveryStep step good rest after

section EveryStep

variable {step : State → Event → Option State}
variable {good : State → Event → State → Prop}

/-- Where an invariant makes each step of a kind good, a run of such steps is
good throughout. -/
theorem everyStep_of_invariant (property : State → Prop)
    (usual : Event → Prop)
    (kept : ∀ before event after, property before → usual event →
      step before event = some after →
      good before event after ∧ property after)
    {events : List Event} {start : State} (initially : property start)
    (h : ∀ event ∈ events, usual event) :
    EveryStep step good events start := by
  induction events generalizing start with
  | nil => trivial
  | cons event rest ih =>
      intro after stepped
      have husual := h event List.mem_cons_self
      have hkept := kept start event after initially husual stepped
      exact ⟨hkept.1, ih hkept.2 fun other hother =>
        h other (List.mem_cons_of_mem _ hother)⟩

theorem EveryStep.avoids (property : State → Prop) {bad : Event → Prop}
    (kept : ∀ before event after, property before →
      step before event = some after → property after)
    (never : ∀ before event after, property before → bad event →
      step before event = some after → ¬ good before event after)
    {permits : State → Event → Bool} {events : List Event} {start : State}
    (initially : property start)
    (happens : (runEvents step permits events start).isSome = true)
    (h : EveryStep step good events start) :
    ∀ event ∈ events, ¬ bad event := by
  induction events generalizing start with
  | nil =>
      intro event hevent
      cases hevent
  | cons first rest ih =>
      obtain ⟨finish, hfinish⟩ := Option.isSome_iff_exists.mp happens
      unfold runEvents at hfinish
      split at hfinish
      · obtain ⟨after, hstep, hrest⟩ := Option.bind_eq_some_iff.mp hfinish
        have hgood := h after hstep
        intro event hevent
        rw [List.mem_cons] at hevent
        cases hevent with
        | inl heq =>
            intro hbad
            rw [heq] at hbad
            exact never start first after initially hbad hstep hgood.1
        | inr hmem =>
            exact ih (kept start first after initially hstep)
              (Option.isSome_iff_exists.mpr ⟨finish, hrest⟩) hgood.2
              event hmem
      · cases hfinish

end EveryStep

end TwakeKickstart.Library
