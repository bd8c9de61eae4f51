import Mathlib.Data.List.Nodup
import Mathlib.Order.Lattice

namespace TwakeKickstart.Library

/-! The images of items in the order of their ranks. -/

section Ranking

variable {α β ι : Type} [LinearOrder ι] (rank : α → ι) (image : α → β)

/-- The images are those of the items, the least rank first. -/
def IsRanked (items : List α) (images : List β) : Prop :=
  ∃ sorted : List α, sorted.Perm items ∧
    sorted.Pairwise (fun a b => rank a ≤ rank b) ∧ images = sorted.map image

/-- As many images come first as items have at most the rank, and they are the
images of these items. -/
def RankedPrefixes (items : List α) (images : List β) : Prop :=
  ∀ bound, (images.take (items.countP (rank · ≤ bound))).Perm
    ((items.filter (rank · ≤ bound)).map image)

variable {rank image} {items : List α} {images : List β}

theorem take_countP_of_sorted {sorted : List α} (bound : ι)
    (h : sorted.Pairwise (fun a b => rank a ≤ rank b)) :
    sorted.take (sorted.countP (rank · ≤ bound)) =
      sorted.filter (rank · ≤ bound) := by
  induction sorted with
  | nil => rfl
  | cons first rest ih =>
      rw [List.pairwise_cons] at h
      by_cases hfirst : rank first ≤ bound
      · rw [List.countP_cons_of_pos (by simpa using hfirst),
          List.filter_cons_of_pos (by simpa using hfirst), List.take_succ_cons,
          ih h.2]
      · have hnone : ∀ item ∈ first :: rest, ¬ decide (rank item ≤ bound) := by
          rw [List.forall_mem_cons]
          refine ⟨by simpa using hfirst, ?_⟩
          intro item hitem hbound
          exact hfirst (le_trans (h.1 item hitem) (of_decide_eq_true hbound))
        rw [List.countP_eq_zero.mpr hnone, List.filter_eq_nil_iff.mpr hnone,
          List.take_zero]

theorem rankedPrefixes_of_isRanked (h : IsRanked rank image items images) :
    RankedPrefixes rank image items images := by
  obtain ⟨sorted, hperm, hsorted, rfl⟩ := h
  intro bound
  rw [← hperm.countP_eq, ← List.map_take, take_countP_of_sorted bound hsorted]
  exact (hperm.filter _).map image

theorem exists_least_rank (h : items ≠ []) :
    ∃ least ∈ items, ∀ item ∈ items, rank least ≤ rank item := by
  induction items with
  | nil => exact absurd rfl h
  | cons first rest ih =>
      by_cases hrest : rest = []
      · rw [hrest]
        exact ⟨first, List.mem_cons_self, by simp⟩
      · obtain ⟨least, hleast, hall⟩ := ih hrest
        rcases le_total (rank first) (rank least) with hle | hle
        · refine ⟨first, List.mem_cons_self, ?_⟩
          rw [List.forall_mem_cons]
          exact ⟨le_refl _, fun item hitem => le_trans hle (hall item hitem)⟩
        · refine ⟨least, List.mem_cons_of_mem _ hleast, ?_⟩
          rw [List.forall_mem_cons]
          exact ⟨hle, hall⟩

/-- The first image belongs to an item of the least rank; without the two, the
others are ranked. -/
theorem RankedPrefixes.exists_first {first : β} {rest : List β}
    (h : RankedPrefixes rank image items (first :: rest))
    (nonempty : items ≠ []) :
    ∃ item others, image item = first ∧ items.Perm (item :: others) ∧
      (∀ other ∈ items, rank item ≤ rank other) ∧
      RankedPrefixes rank image others rest := by
  obtain ⟨least, hleast, hall⟩ := @exists_least_rank _ _ _ rank _ nonempty
  have hpositive : 0 < items.countP (rank · ≤ rank least) :=
    List.countP_pos_iff.mpr ⟨least, hleast, by simp⟩
  obtain ⟨count, hcount⟩ := Nat.exists_eq_succ_of_ne_zero
    (Nat.pos_iff_ne_zero.mp hpositive)
  have hmem : first ∈ (items.filter (rank · ≤ rank least)).map image := by
    apply (h (rank least)).subset
    rw [hcount, List.take_succ_cons]
    exact List.mem_cons_self
  obtain ⟨item, hitem, hfirst⟩ := List.mem_map.mp hmem
  rw [List.mem_filter, decide_eq_true_eq] at hitem
  have hlowest : ∀ other ∈ items, rank item ≤ rank other :=
    fun other hother => le_trans hitem.2 (hall other hother)
  obtain ⟨before, after, hsplit⟩ := List.append_of_mem hitem.1
  have hperm : items.Perm (item :: (before ++ after)) := by
    rw [hsplit]
    exact List.perm_middle
  refine ⟨item, before ++ after, hfirst, hperm, hlowest, ?_⟩
  intro bound
  have hbound := h bound
  by_cases hrank : rank item ≤ bound
  · have hfilter := (hperm.filter (rank · ≤ bound)).map image
    rw [hperm.countP_eq, List.countP_cons_of_pos (by simpa using hrank),
      List.take_succ_cons] at hbound
    rw [List.filter_cons_of_pos (by simpa using hrank), List.map_cons,
      hfirst] at hfilter
    exact (hbound.trans hfilter).cons_inv
  · have hnone : ∀ other ∈ before ++ after, ¬ rank other ≤ bound := by
      intro other hother hle
      have hin := hperm.mem_iff.mpr (List.mem_cons_of_mem item hother)
      exact hrank (le_trans (hlowest other hin) hle)
    rw [List.countP_eq_zero.mpr (by simpa using hnone),
      List.filter_eq_nil_iff.mpr (by simpa using hnone)]
    exact .nil

/-- The images of a list are ranked just when each of its beginnings has the
images of the lowest ranks. -/
theorem isRanked_iff : IsRanked rank image items images ↔
    images.length = items.length ∧ RankedPrefixes rank image items images := by
  constructor
  · intro h
    obtain ⟨sorted, hperm, _, himages⟩ := id h
    refine ⟨?_, rankedPrefixes_of_isRanked h⟩
    rw [himages, List.length_map, hperm.length_eq]
  · rintro ⟨hlength, h⟩
    induction images generalizing items with
    | nil =>
        rw [List.eq_nil_of_length_eq_zero hlength.symm]
        exact ⟨[], .nil, .nil, rfl⟩
    | cons first rest ih =>
        have hnonempty : items ≠ [] := by
          rintro rfl
          cases hlength
        obtain ⟨item, others, hfirst, hperm, hlowest, hothers⟩ :=
          h.exists_first hnonempty
        have hcount := hperm.length_eq
        rw [List.length_cons] at hcount hlength
        obtain ⟨sorted, hsorted, hpairwise, himages⟩ := ih (by omega) hothers
        refine ⟨item :: sorted, (hsorted.cons item).trans hperm.symm,
          List.pairwise_cons.mpr ⟨?_, hpairwise⟩, ?_⟩
        · intro other hother
          exact hlowest other (hperm.mem_iff.mpr
            (List.mem_cons_of_mem item (hsorted.mem_iff.mp hother)))
        · rw [List.map_cons, hfirst, himages]

theorem eq_of_map_eq {left right : List α}
    (injective : ∀ a ∈ left, ∀ b ∈ right, image a = image b → a = b)
    (h : left.map image = right.map image) : left = right := by
  induction left generalizing right with
  | nil => exact (List.map_eq_nil_iff.mp h.symm).symm
  | cons a left ih =>
      cases right with
      | nil => cases h
      | cons b right =>
          obtain ⟨hhead, htail⟩ := List.cons.inj h
          have hrest := ih (fun c hc d hd => injective c
            (List.mem_cons_of_mem a hc) d (List.mem_cons_of_mem b hd)) htail
          rw [injective a List.mem_cons_self b List.mem_cons_self hhead, hrest]

theorem isRanked_map_iff_of_nodup (distinct : (items.map image).Nodup) :
    IsRanked rank image items (items.map image) ↔
      items.Pairwise (fun a b => rank a ≤ rank b) := by
  constructor
  · rintro ⟨sorted, hperm, hsorted, himages⟩
    have hsame : items = sorted := by
      apply eq_of_map_eq _ himages
      intro a ha b hb
      exact List.inj_on_of_nodup_map distinct ha (hperm.mem_iff.mp hb)
    rw [hsame]
    exact hsorted
  · intro h
    exact ⟨items, .refl items, h, rfl⟩

end Ranking

end TwakeKickstart.Library
