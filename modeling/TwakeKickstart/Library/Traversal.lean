import Mathlib.Data.List.Forall2
import Mathlib.Data.List.Basic

namespace TwakeKickstart.Library

/-! A list that is mapped by a function that may fail. -/

variable {α β : Type} {f g : α → Option β} {items : List α}

theorem mapM_congr_of_mem (h : ∀ item ∈ items, f item = g item) :
    items.mapM f = items.mapM g := by
  induction items with
  | nil => rfl
  | cons head rest ih =>
      rw [List.mapM_cons, List.mapM_cons, h head List.mem_cons_self,
        ih fun item hitem => h item (List.mem_cons_of_mem _ hitem)]

theorem mapM_eq_some_map {g : α → β}
    (h : ∀ item ∈ items, f item = some (g item)) :
    items.mapM f = some (items.map g) := by
  rw [mapM_congr_of_mem h]
  exact List.mapM_pure

theorem mapM_eq_none_of_mem {item : α} (hitem : item ∈ items)
    (h : f item = none) : items.mapM f = none := by
  induction items with
  | nil => cases hitem
  | cons head rest ih =>
      rw [List.mapM_cons]
      rcases List.mem_cons.mp hitem with hhead | hrest
      · rw [← hhead, h]
        rfl
      · rw [ih hrest]
        cases f head with
        | none => rfl
        | some value => rfl

theorem mapM_isSome_iff :
    (items.mapM f).isSome ↔ ∀ item ∈ items, (f item).isSome := by
  constructor
  · intro hsome item hitem
    cases hitem' : f item with
    | none =>
        rw [mapM_eq_none_of_mem hitem hitem'] at hsome
        cases hsome
    | some value => rfl
  · intro hall
    induction items with
    | nil => rfl
    | cons head rest ih =>
        obtain ⟨value, hvalue⟩ :=
          Option.isSome_iff_exists.mp (hall head List.mem_cons_self)
        obtain ⟨values, hvalues⟩ := Option.isSome_iff_exists.mp
          (ih fun item hitem => hall item (List.mem_cons_of_mem _ hitem))
        rw [List.mapM_cons, hvalue, hvalues]
        rfl

theorem mapM_eq_some_iff {values : List β} :
    items.mapM f = some values ↔
      List.Forall₂ (fun item value => f item = some value) items values := by
  induction items generalizing values with
  | nil =>
      rw [List.mapM_nil, List.forall₂_nil_left_iff]
      exact ⟨fun h => (Option.some.inj h).symm, fun h => by rw [h]; rfl⟩
  | cons head rest ih =>
      rw [List.mapM_cons, List.forall₂_cons_left_iff]
      constructor
      · intro h
        cases hhead : f head with
        | none => simp [hhead] at h
        | some value =>
            cases hrest : rest.mapM f with
            | none => simp [hhead, hrest] at h
            | some others =>
                simp only [hhead, hrest] at h
                cases h
                exact ⟨value, others, rfl, ih.mp hrest, rfl⟩
      · intro ⟨value, others, hhead, hrest, hvalues⟩
        rw [hhead, ih.mpr hrest, hvalues]
        rfl

end TwakeKickstart.Library

namespace TwakeKickstart.Library

/-! Two lists whose items belong together by position, and what filtering one of
them by the positions of the other keeps. -/

namespace Positions

variable {α β γ : Type}

def failedAt (failed : β → Bool) (results : List β) : List Nat :=
  (results.zipIdx.filter fun entry => failed entry.1).map Prod.snd

def without (positions : List Nat) (items : List α) : List α :=
  (items.zipIdx.filter fun entry => entry.2 ∉ positions).map Prod.fst

theorem mem_failedAt {failed : β → Bool} {results : List β} {index : Nat} :
    index ∈ failedAt failed results ↔
      ∃ result, results[index]? = some result ∧ failed result = true := by
  unfold failedAt
  rw [List.mem_map]
  constructor
  · rintro ⟨⟨result, position⟩, hentry, rfl⟩
    obtain ⟨hmem, hfailed⟩ := List.mem_filter.mp hentry
    exact ⟨result, List.mem_zipIdx_iff_getElem?.mp hmem, hfailed⟩
  · rintro ⟨result, hresult, hfailed⟩
    exact ⟨(result, index), List.mem_filter.mpr
      ⟨List.mem_zipIdx_iff_getElem?.mpr hresult, hfailed⟩, rfl⟩

/-- Filtering by the positions of the failures keeps the items of the results
that did not fail. -/
theorem without_failedAt (failed : β → Bool) (pairs : List (α × β)) :
    without (failedAt failed (pairs.map Prod.snd)) (pairs.map Prod.fst) =
      (pairs.filter fun pair => !failed pair.2).map Prod.fst := by
  have hkept : (pairs.zipIdx.filter fun entry =>
      entry.2 ∉ failedAt failed (pairs.map Prod.snd)) =
        pairs.zipIdx.filter fun entry => !failed entry.1.2 := by
    apply List.filter_congr
    intro entry hentry
    have hget := List.mem_zipIdx_iff_getElem?.mp hentry
    rw [Bool.eq_iff_iff, decide_eq_true_iff, Bool.not_eq_true',
      mem_failedAt, List.getElem?_map, hget]
    simp
  unfold without
  rw [List.zipIdx_map, List.filter_map, List.map_map]
  change List.map (Prod.fst ∘ Prod.fst) (pairs.zipIdx.filter fun entry =>
    entry.2 ∉ failedAt failed (pairs.map Prod.snd)) = _
  rw [hkept, ← List.map_map]
  congr 1
  conv_rhs => rw [← List.zipIdx_map_fst 0 pairs, List.filter_map]
  rfl

variable {m : Type → Type} [Monad m]

/-- A fold over one list that looks up the other by position folds over the
pairs. -/
theorem foldlM_zipIdx (step : γ → α → Option β → m γ) (pairs : List (α × β))
    (init : γ) :
    (pairs.map Prod.fst).zipIdx.foldlM (fun acc entry =>
        step acc entry.1 (pairs.map Prod.snd)[entry.2]?) init =
      pairs.foldlM (fun acc pair => step acc pair.1 (some pair.2)) init := by
  have general : ∀ front back : List (α × β), ∀ init : γ,
      ((back.map Prod.fst).zipIdx front.length).foldlM (fun acc entry =>
        step acc entry.1 ((front ++ back).map Prod.snd)[entry.2]?) init =
      back.foldlM (fun acc pair => step acc pair.1 (some pair.2)) init := by
    intro front back
    induction back generalizing front with
    | nil =>
        intro init
        rfl
    | cons pair rest ih =>
        intro init
        have hget : ((front ++ pair :: rest).map Prod.snd)[front.length]? =
            some pair.2 := by simp
        rw [List.map_cons, List.zipIdx_cons, List.foldlM_cons,
          List.foldlM_cons]
        simp only [hget]
        congr 1
        funext acc
        have hrest := ih (front ++ [pair]) acc
        rw [List.length_append, List.append_assoc] at hrest
        exact hrest
  exact general [] pairs init

end Positions

end TwakeKickstart.Library
