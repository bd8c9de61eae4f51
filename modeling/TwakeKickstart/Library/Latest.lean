import Mathlib.Data.List.Basic
import Mathlib.Data.List.Induction

namespace TwakeKickstart.Library

/-! What is read last in a list, and where. -/

variable {α β γ : Type} {reads : α → Option β}

/-- The last item at which something is read: its place, and what is read. -/
def latest (reads : α → Option β) : List α → Option (Nat × β)
  | [] => none
  | item :: rest =>
      match latest reads rest with
      | some (place, value) => some (place + 1, value)
      | none => (reads item).map fun value => (0, value)

@[simp] theorem latest_nil : latest reads [] = none := rfl

theorem latest_cons (item : α) (rest : List α) :
    latest reads (item :: rest) =
      (((latest reads rest).map fun read => (read.1 + 1, read.2)).or
        ((reads item).map fun value => (0, value))) := by
  rw [latest]
  cases latest reads rest <;> rfl

theorem latest_map (f : γ → α) (items : List γ) :
    latest reads (items.map f) = latest (fun item => reads (f item)) items := by
  induction items with
  | nil => rfl
  | cons item rest ih => rw [List.map_cons, latest_cons, latest_cons, ih]

theorem latest_eq_none_iff {items : List α} :
    latest reads items = none ↔ ∀ item ∈ items, reads item = none := by
  induction items with
  | nil => exact iff_of_true rfl (List.forall_mem_nil _)
  | cons item rest ih =>
      rw [latest_cons, Option.or_eq_none_iff, Option.map_eq_none_iff,
        Option.map_eq_none_iff, ih, List.forall_mem_cons, and_comm]

theorem latest_append (first second : List α) :
    latest reads (first ++ second) =
      ((latest reads second).map
        fun read => (read.1 + first.length, read.2)).or
          (latest reads first) := by
  induction first with
  | nil => cases h : latest reads second <;> simp [h]
  | cons item first ih =>
      rw [List.cons_append, latest_cons, ih, latest_cons]
      cases latest reads second with
      | none => rfl
      | some read => rfl

theorem latest_append_of_silent {first second : List α}
    (silent : ∀ item ∈ first, reads item = none) :
    latest reads (first ++ second) =
      (latest reads second).map fun read => (read.1 + first.length, read.2) := by
  rw [latest_append, latest_eq_none_iff.mpr silent, Option.or_none]

theorem latest_append_of_silent_rest {first second : List α}
    (silent : latest reads second = none) :
    latest reads (first ++ second) = latest reads first := by
  rw [latest_append, silent]
  rfl

theorem latest_eq_some_iff {items : List α} {place : Nat} {value : β} :
    latest reads items = some (place, value) ↔
      ∃ first item rest, items = first ++ item :: rest ∧
        first.length = place ∧ reads item = some value ∧
          ∀ other ∈ rest, reads other = none := by
  induction items generalizing place with
  | nil =>
      refine iff_of_false nofun ?_
      rintro ⟨first, item, rest, hitems, _⟩
      exact List.cons_ne_nil _ _ (List.append_eq_nil_iff.mp hitems.symm).2
  | cons head tail ih =>
      rw [latest_cons]
      constructor
      · intro h
        cases hlast : latest reads tail with
        | none =>
            rw [hlast] at h
            obtain ⟨read, hread, hsame⟩ := Option.map_eq_some_iff.mp h
            cases hsame
            exact ⟨[], head, tail, rfl, rfl, hread,
              latest_eq_none_iff.mp hlast⟩
        | some read =>
            rw [hlast] at h
            cases h
            obtain ⟨first, item, rest, htail, hfirst, hitem, hrest⟩ :=
              ih.mp hlast
            exact ⟨head :: first, item, rest, congrArg _ htail,
              congrArg _ hfirst, hitem, hrest⟩
      · rintro ⟨first, item, rest, hitems, hfirst, hitem, hrest⟩
        cases first with
        | nil =>
            obtain ⟨rfl, rfl⟩ := List.cons.inj hitems
            rw [latest_eq_none_iff.mpr hrest, hitem, ← hfirst]
            rfl
        | cons other first =>
            obtain ⟨rfl, htail⟩ := List.cons.inj hitems
            rw [ih.mpr ⟨first, item, rest, htail, rfl, hitem, hrest⟩, ← hfirst]
            rfl

theorem place_lt {items : List α} {read : Nat × β}
    (h : latest reads items = some read) : read.1 < items.length := by
  obtain ⟨first, _, rest, hitems, hfirst, _⟩ := latest_eq_some_iff.mp h
  have hlength := congrArg List.length hitems
  rw [List.length_append, List.length_cons] at hlength
  omega

/-- A reader that reads less has the same last item just when it reads the
same there. -/
theorem latest_eq_iff {others : α → Option β} {items : List α}
    (fewer : ∀ item ∈ items, reads item = none → others item = none) :
    latest reads items = latest others items ↔
      ∀ first item rest, items = first ++ item :: rest →
        reads item ≠ none → (∀ other ∈ rest, reads other = none) →
          others item = reads item := by
  constructor
  · intro hsame first item rest hitems hread hrest
    obtain ⟨value, hvalue⟩ := Option.ne_none_iff_exists'.mp hread
    have hlast : latest reads items = some (first.length, value) :=
      latest_eq_some_iff.mpr ⟨first, item, rest, hitems, rfl, hvalue, hrest⟩
    rw [hsame] at hlast
    obtain ⟨start, other, more, hother, hstart, hread', _⟩ :=
      latest_eq_some_iff.mp hlast
    obtain ⟨_, htail⟩ := List.append_inj (hitems.symm.trans hother) hstart.symm
    cases htail
    rw [hread', hvalue]
  · intro hsame
    cases hlast : latest reads items with
    | none =>
        have hsilent := latest_eq_none_iff.mp hlast
        exact (latest_eq_none_iff.mpr fun item hitem =>
          fewer item hitem (hsilent item hitem)).symm
    | some read =>
        obtain ⟨first, item, rest, hitems, hfirst, hread, hrest⟩ :=
          latest_eq_some_iff.mp hlast
        have hother := hsame first item rest hitems
          (by rw [hread]; exact Option.some_ne_none _) hrest
        refine (latest_eq_some_iff.mpr ⟨first, item, rest, hitems, hfirst,
          hother.trans hread, ?_⟩).symm
        intro other hmem
        apply fewer other _ (hrest other hmem)
        rw [hitems]
        exact List.mem_append_right _ (List.mem_cons_of_mem _ hmem)

end TwakeKickstart.Library

namespace TwakeKickstart.Library

/-! The writes to one row of a table, in the order in which they went
through. -/

namespace RowLog

inductive Write (ν : Type) where
  | set (value : ν)
  | drop

variable {ν : Type}

def Write.apply : Write ν → Option ν
  | .set value => some value
  | .drop => none

def rowAfter (before : Option ν) (writes : List (Write ν)) : Option ν :=
  writes.foldl (fun _ write => write.apply) before

@[simp] theorem rowAfter_nil (before : Option ν) :
    rowAfter before [] = before := rfl

@[simp] theorem rowAfter_append_singleton (before : Option ν)
    (writes : List (Write ν)) (write : Write ν) :
    rowAfter before (writes ++ [write]) = write.apply := by
  rw [rowAfter, List.foldl_append, List.foldl_cons, List.foldl_nil]

theorem rowAfter_eq_none_iff {old : ν} {writes : List (Write ν)} :
    rowAfter (some old) writes = none ↔ writes.getLast? = some .drop := by
  induction writes using List.reverseRecOn with
  | nil => simp
  | append_singleton writes write ih =>
      rw [rowAfter_append_singleton, List.getLast?_concat]
      cases write with
      | set value => simp [Write.apply]
      | drop => simp [Write.apply]

theorem rowAfter_cases {before : Option ν} {writes : List (Write ν)} {new : ν}
    (h : rowAfter before writes = some new) :
    before = some new ∨ .set new ∈ writes := by
  induction writes using List.reverseRecOn with
  | nil => exact .inl h
  | append_singleton writes write ih =>
      rw [rowAfter_append_singleton] at h
      cases write with
      | set value =>
          obtain rfl : value = new := Option.some.inj h
          exact .inr (List.mem_append_right writes (List.mem_singleton_self _))
      | drop => exact nomatch h

end RowLog

end TwakeKickstart.Library
