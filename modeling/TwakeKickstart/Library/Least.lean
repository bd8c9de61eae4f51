import Mathlib.Data.List.Basic

namespace TwakeKickstart.Library

/-! The first of the least items of a list, which is where a stable sort
begins. -/

variable {α : Type} (le : α → α → Bool)

def least : List α → Option α
  | [] => none
  | item :: rest =>
      match least rest with
      | none => some item
      | some other => some (if le item other then item else other)

theorem least_mem {items : List α} {item : α}
    (h : least le items = some item) : item ∈ items := by
  induction items generalizing item with
  | nil => cases h
  | cons first rest ih =>
      unfold least at h
      split at h
      · cases h
        exact List.mem_cons_self
      · rename_i other hother
        split at h
        · cases h
          exact List.mem_cons_self
        · cases h
          exact List.mem_cons_of_mem _ (ih hother)

theorem least_eq_none {items : List α} : least le items = none ↔ items = [] := by
  cases items with
  | nil => simp [least]
  | cons first rest =>
      simp only [reduceCtorEq, iff_false]
      unfold least
      split <;> nofun

section Preorder

variable {le : α → α → Bool}
variable (trans : ∀ a b c, le a b = true → le b c = true → le a c = true)
variable (total : ∀ a b, (le a b || le b a) = true)

include trans total

theorem least_le {items : List α} {item : α}
    (h : least le items = some item) : ∀ other ∈ items, le item other = true := by
  have hrefl : ∀ a, le a a = true := by
    intro a
    have htotal := total a a
    rwa [Bool.or_self] at htotal
  induction items generalizing item with
  | nil => cases h
  | cons first rest ih =>
      intro other hother
      unfold least at h
      split at h
      · rename_i hnone
        rw [least_eq_none] at hnone
        cases h
        rw [hnone, List.mem_singleton] at hother
        rw [hother]
        exact hrefl first
      · rename_i found hfound
        have hrest := ih hfound
        rcases List.mem_cons.mp hother with rfl | hother
        · split at h
          · cases h
            exact hrefl _
          · rename_i hnot
            cases h
            exact (Bool.or_eq_true_iff.mp (total _ item)).resolve_left hnot
        · split at h
          · rename_i hle
            cases h
            exact trans _ _ _ hle (hrest other hother)
          · cases h
            exact hrest other hother

/-- An item that is put at the end comes first when it is less than all. -/
theorem least_append (items : List α) (last : α) :
    least le (items ++ [last]) =
      match least le items with
      | none => some last
      | some item => some (if le item last then item else last) := by
  induction items with
  | nil => rfl
  | cons first rest ih =>
      rw [List.cons_append, least, ih, least]
      cases least le rest with
      | none => rfl
      | some found =>
          simp only [Option.some.injEq]
          cases hlast : le found last with
          | true =>
              cases hfirst : le first found with
              | true => simp [hfirst, trans _ _ _ hfirst hlast]
              | false => simp [hfirst, hlast]
          | false =>
              cases hfirst : le first found with
              | true => simp
              | false =>
                  have hgreater : le first last = false := by
                    by_contra hle
                    rw [Bool.not_eq_false] at hle
                    have hlt := (Bool.or_eq_true_iff.mp
                      (total found last)).resolve_left (by simp [hlast])
                    rw [trans _ _ _ hle hlt] at hfirst
                    cases hfirst
                  simp [hlast, hgreater]

/-- What comes before the least item is greater, what comes after is not
less. -/
theorem least_eq_some_iff {items : List α} {item : α} :
    least le items = some item ↔
      ∃ before after, items = before ++ item :: after ∧
        (∀ other ∈ before, le other item = false) ∧
        ∀ other ∈ after, le item other = true := by
  have hrefl : ∀ a, le a a = true := by
    intro a
    have htotal := total a a
    rwa [Bool.or_self] at htotal
  constructor
  · intro hleast
    induction items with
    | nil => cases hleast
    | cons first rest ih =>
        unfold least at hleast
        split at hleast
        · rename_i hnone
          rw [least_eq_none] at hnone
          cases hleast
          exact ⟨[], rest, rfl, by simp, by simp [hnone]⟩
        · rename_i found hfound
          split at hleast
          · rename_i hle
            cases hleast
            refine ⟨[], rest, rfl, by simp, ?_⟩
            intro other hother
            exact trans _ _ _ hle (least_le trans total hfound other hother)
          · rename_i hnot
            cases hleast
            obtain ⟨before, after, hitems, hbefore, hafter⟩ := ih hfound
            refine ⟨first :: before, after, by rw [hitems]; rfl, ?_, hafter⟩
            intro other hother
            rcases List.mem_cons.mp hother with rfl | hother
            · exact Bool.not_eq_true _ ▸ hnot
            · exact hbefore other hother
  · rintro ⟨before, after, rfl, hbefore, hafter⟩
    induction before with
    | nil =>
        rw [List.nil_append, least]
        cases hrest : least le after with
        | none => rfl
        | some found => simp [hafter found (least_mem le hrest)]
    | cons first before ih =>
        have hrest := ih fun other hother =>
          hbefore other (List.mem_cons_of_mem _ hother)
        rw [List.cons_append, least, hrest]
        simp [hbefore first List.mem_cons_self]

theorem least_sublist {items kept : List α} {item : α}
    (distinct : items.Nodup) (h : least le items = some item)
    (sublist : kept.Sublist items) (mem : item ∈ kept) :
    least le kept = some item := by
  rw [least_eq_some_iff trans total] at h ⊢
  obtain ⟨before, after, rfl, hbefore, hafter⟩ := h
  obtain ⟨front, back, rfl, hfront, hback⟩ := List.sublist_append_iff.mp sublist
  have hother : item ∉ before := by
    intro hmem
    exact (List.nodup_append.mp distinct).2.2 item hmem item
      List.mem_cons_self rfl
  have hitem : item ∈ back := by
    rcases List.mem_append.mp mem with hmem | hmem
    · exact absurd (hfront.subset hmem) hother
    · exact hmem
  have hafterward : item ∉ after :=
    (List.nodup_cons.mp (List.nodup_append.mp distinct).2.1).1
  rcases List.sublist_cons_iff.mp hback with hback | ⟨rest, rfl, hrest⟩
  · exact absurd (hback.subset hitem) hafterward
  · exact ⟨front, rest, rfl,
      fun other hother => hbefore other (hfront.subset hother),
      fun other hother => hafter other (hrest.subset hother)⟩

/-- The least of some items is the least of all when the others are
greater. -/
theorem least_of_sublist {items kept : List α} {item : α}
    (distinct : items.Nodup) (sublist : kept.Sublist items)
    (h : least le kept = some item)
    (greater : ∀ other ∈ items, other ∉ kept → le other item = false) :
    least le items = some item := by
  have hmem := sublist.subset (least_mem le h)
  cases hall : least le items with
  | none =>
      rw [least_eq_none] at hall
      rw [hall] at hmem
      cases hmem
  | some first =>
      have hle := least_le trans total hall item hmem
      have hkept : first ∈ kept := by
        by_contra hkept
        rw [greater first (least_mem le hall) hkept] at hle
        cases hle
      have hfirst := least_sublist trans total distinct hall sublist hkept
      rw [← hfirst, h]

theorem find?_mergeSort (kind : α → Bool) (items : List α) :
    (items.mergeSort le).find? kind = least le (items.filter kind) := by
  induction items with
  | nil => rw [List.mergeSort_nil]; rfl
  | cons first rest ih =>
      obtain ⟨before, after, hsort, hrest, hbefore⟩ :=
        List.mergeSort_cons trans total first rest
      have hsorted := List.pairwise_mergeSort trans total (first :: rest)
      rw [hsort, List.pairwise_append] at hsorted
      have hafter := (List.pairwise_cons.mp hsorted.2.1).1
      rw [hrest, List.find?_append] at ih
      rw [hsort, List.find?_append, List.find?_cons]
      cases hkind : kind first with
      | false =>
          rw [List.filter_cons_of_neg (by simp [hkind]), ← ih]
      | true =>
          rw [List.filter_cons_of_pos hkind, least, ← ih]
          cases hfound : before.find? kind with
          | some item =>
              have hless := hbefore item (List.mem_of_find?_eq_some hfound)
              rw [Bool.not_eq_true'] at hless
              simp [hless]
          | none =>
              cases hlater : after.find? kind with
              | none => rfl
              | some item =>
                  have hle := hafter item (List.mem_of_find?_eq_some hlater)
                  simp [hle]

theorem head?_mergeSort (items : List α) :
    (items.mergeSort le).head? = least le items := by
  have hfind := find?_mergeSort trans total (fun _ => true) items
  rwa [← List.head?_filter, List.filter_true, List.filter_true] at hfind

end Preorder

section Strict

variable {lt : α → α → Bool}
variable (asymm : ∀ a b, lt a b = true → lt b a = false)
variable (trans : ∀ a b c, lt a b = true → lt b c = true → lt a c = true)
variable (connected : ∀ a b, lt a b = false → lt b a = false → a = b)

include asymm trans connected

theorem least_of_strict {items : List α} {item : α}
    (h : least (fun a b => !lt b a) items = some item) :
    ∀ other ∈ items, lt other item = false := by
  intro other hother
  have hle := least_le (fun a b c hab hbc => ?_) (fun a b => ?_) h other hother
  · exact (Bool.not_eq_true' _).mp hle
  · rw [Bool.not_eq_true'] at hab hbc ⊢
    cases hab' : lt a b with
    | false => exact connected a b hab' hab ▸ hbc
    | true =>
        cases hca : lt c a with
        | false => rfl
        | true => exact (trans c a b hca hab').symm.trans hbc
  · cases hab : lt a b with
    | false => exact Bool.or_true _
    | true =>
        rw [asymm a b hab]
        rfl

end Strict

end TwakeKickstart.Library
