import Mathlib.Data.List.Pairwise
import Mathlib.Data.String.Basic
import TwakeKickstart.Library.JsonText

namespace TwakeKickstart.Library

/-! The order in which the keys of an object are enumerated, and the order of
their characters. -/

/-! UTF-16. -/

theorem units_inj {c d : Char} {left right : List Nat}
    (h : (if c.toNat < 0x10000 then [c.toNat]
        else [0xD800 + (c.toNat - 0x10000) / 0x400,
          0xDC00 + (c.toNat - 0x10000) % 0x400]) ++ left =
      (if d.toNat < 0x10000 then [d.toNat]
        else [0xD800 + (d.toNat - 0x10000) / 0x400,
          0xDC00 + (d.toNat - 0x10000) % 0x400]) ++ right) :
    c = d ∧ left = right := by
  have hc : c.toNat < 0xD800 ∨ 0xDFFF < c.toNat ∧ c.toNat < 0x110000 := c.valid
  have hd : d.toNat < 0xD800 ∨ 0xDFFF < d.toNat ∧ d.toNat < 0x110000 := d.valid
  have hsame : c.toNat = d.toNat → c = d := fun hcode => Char.toNat_inj.mp hcode
  split at h
  · split at h
    · obtain ⟨hcode, hrest⟩ := List.cons.inj h
      exact ⟨hsame hcode, hrest⟩
    · obtain ⟨hcode, _⟩ := List.cons.inj h
      omega
  · split at h
    · obtain ⟨hcode, _⟩ := List.cons.inj h
      omega
    · obtain ⟨hhigh, htail⟩ := List.cons.inj h
      obtain ⟨hlow, hrest⟩ := List.cons.inj htail
      exact ⟨hsame (by omega), hrest⟩

theorem codeUnits_injective {a b : String} (h : codeUnits a = codeUnits b) :
    a = b := by
  apply String.toList_injective
  unfold codeUnits at h
  generalize a.toList = left at h ⊢
  generalize b.toList = right at h ⊢
  induction left generalizing right with
  | nil =>
      cases right with
      | nil => rfl
      | cons d right =>
          rw [List.flatMap_nil, List.flatMap_cons] at h
          split at h
          · cases h
          · cases h
  | cons c left ih =>
      cases right with
      | nil =>
          rw [List.flatMap_nil, List.flatMap_cons] at h
          split at h
          · cases h
          · cases h
      | cons d right =>
          rw [List.flatMap_cons, List.flatMap_cons] at h
          obtain ⟨rfl, hrest⟩ := units_inj h
          rw [ih _ hrest]

theorem unitsLe_antisymm {left right : List Nat}
    (h : unitsLe left right = true) (hback : unitsLe right left = true) :
    left = right := by
  induction left generalizing right with
  | nil =>
      cases right with
      | nil => rfl
      | cons unit units => cases hback
  | cons unit units ih =>
      cases right with
      | nil => cases h
      | cons other others =>
          simp only [unitsLe, Bool.or_eq_true, Bool.and_eq_true,
            decide_eq_true_eq, beq_iff_eq] at h hback
          rcases h with hlt | ⟨rfl, hunits⟩
          · omega
          · rcases hback with hlt | ⟨_, hothers⟩
            · omega
            · rw [ih hunits hothers]

/-! Array indices come first. -/

theorem arrayIndex_injective {a b : String} {n : Nat}
    (ha : arrayIndex a = some n) (hb : arrayIndex b = some n) : a = b := by
  have hkey {key : String} (h : arrayIndex key = some n) : toString n = key := by
    unfold arrayIndex at h
    split at h
    · have hguard := (Option.filter_eq_some_iff.mp h).2
      rw [Bool.and_eq_true, beq_iff_eq] at hguard
      exact hguard.1
    · cases h
  rw [← hkey ha, ← hkey hb]

/-- Sorted keys are enumerated one before the other. -/
def precedes (a b : String) : Bool :=
  match arrayIndex a, arrayIndex b with
  | some m, some n => decide (m ≤ n)
  | some _, none => true
  | none, some _ => false
  | none, none => unitsLe (codeUnits a) (codeUnits b)

theorem precedes_antisymm {a b : String} (h : precedes a b = true)
    (hback : precedes b a = true) : a = b := by
  unfold precedes at h hback
  cases ha : arrayIndex a with
  | none =>
      cases hb : arrayIndex b with
      | none =>
          rw [ha, hb] at h hback
          exact codeUnits_injective (unitsLe_antisymm h hback)
      | some n =>
          rw [ha, hb] at h
          cases h
  | some m =>
      cases hb : arrayIndex b with
      | none =>
          rw [ha, hb] at hback
          cases hback
      | some n =>
          rw [ha, hb] at h hback
          have hsame : m = n :=
            Nat.le_antisymm (of_decide_eq_true h) (of_decide_eq_true hback)
          rw [hsame] at ha
          exact arrayIndex_injective ha hb

section Enumerated

variable {α β : Type}

theorem enumerated_perm (fields : List (String × α)) :
    (enumerated fields).Perm fields := by
  have hnone : (fun field : String × α => (arrayIndex field.1).isNone) =
      fun field => !(arrayIndex field.1).isSome := by
    funext field
    cases arrayIndex field.1 with
    | none => rfl
    | some n => rfl
  unfold enumerated
  rw [hnone]
  exact ((List.mergeSort_perm _ _).append_right _).trans
    (List.filter_append_perm _ fields)

theorem pairwise_enumerated {fields : List (String × α)}
    (sorted : fields.Pairwise fun a b =>
      unitsLe (codeUnits a.1) (codeUnits b.1) = true) :
    (enumerated fields).Pairwise fun a b => precedes a.1 b.1 = true := by
  unfold enumerated
  rw [List.pairwise_append]
  refine ⟨?_, ?_, ?_⟩
  · have hsorted := @List.pairwise_mergeSort _
      (fun a b : String × α => decide
        ((arrayIndex a.1).getD 0 ≤ (arrayIndex b.1).getD 0))
      (fun a b c hab hbc => decide_eq_true
        (Nat.le_trans (of_decide_eq_true hab) (of_decide_eq_true hbc)))
      (fun a b => by
        rw [Bool.or_eq_true, decide_eq_true_eq, decide_eq_true_eq]
        exact Nat.le_total _ _)
      (fields.filter fun field => (arrayIndex field.1).isSome)
    refine hsorted.imp_of_mem ?_
    intro a b ha hb hle
    have hindex {field : String × α} (h : field ∈ List.mergeSort
        (fields.filter fun field => (arrayIndex field.1).isSome) fun a b =>
          decide ((arrayIndex a.1).getD 0 ≤ (arrayIndex b.1).getD 0)) :
        ∃ n, arrayIndex field.1 = some n :=
      Option.isSome_iff_exists.mp
        (List.mem_filter.mp ((List.mergeSort_perm _ _).mem_iff.mp h)).2
    obtain ⟨m, hm⟩ := hindex ha
    obtain ⟨n, hn⟩ := hindex hb
    rw [hm, hn] at hle
    rw [precedes, hm, hn]
    exact hle
  · refine (sorted.filter _).imp_of_mem ?_
    intro a b ha hb hle
    have hm := Option.isNone_iff_eq_none.mp (List.mem_filter.mp ha).2
    have hn := Option.isNone_iff_eq_none.mp (List.mem_filter.mp hb).2
    rw [precedes, hm, hn]
    exact hle
  · intro a ha b hb
    obtain ⟨m, hm⟩ := Option.isSome_iff_exists.mp
      (List.mem_filter.mp ((List.mergeSort_perm _ _).mem_iff.mp ha)).2
    have hn := Option.isNone_iff_eq_none.mp (List.mem_filter.mp hb).2
    rw [precedes, hm, hn]

theorem enumerated_map (value : String × α → β)
    (fields : List (String × α)) :
    enumerated (fields.map fun field => (field.1, value field)) =
      (enumerated fields).map fun field => (field.1, value field) := by
  unfold enumerated
  rw [List.map_append, List.filter_map, List.filter_map]
  congr 1
  symm
  apply List.map_mergeSort
  intro a _ b _
  rfl

end Enumerated

/-! Two orders of one list. -/

/-- A list that is in one order is in another, total one just when the second
does not contradict the first. -/
theorem pairwise_lt_iff {ι : Type} [LinearOrder ι] {before : ι → ι → Prop}
    (antisymm : ∀ a b, before a b → before b a → a = b) {items : List ι}
    (distinct : items.Nodup) (h : items.Pairwise before) :
    items.Pairwise (· < ·) ↔
      ∀ a ∈ items, ∀ b ∈ items, a < b → before a b := by
  constructor
  · intro hlt
    have hahead : items.Pairwise fun a b => a < b → before a b := by
      refine h.imp ?_
      intro a b hab _
      exact hab
    have hbehind : items.Pairwise fun a b => b < a → before b a := by
      refine hlt.imp ?_
      intro a b hab hba
      exact absurd hab (lt_asymm hba)
    intro a ha b hb
    exact List.Pairwise.forall_of_forall_of_flip
      (fun x _ hself => absurd hself (lt_irrefl x)) hahead hbehind ha hb
  · intro hall
    refine (distinct.and h).imp_of_mem ?_
    intro a b ha hb hab
    rcases lt_or_gt_of_ne hab.1 with hlt | hgt
    · exact hlt
    · exact absurd (antisymm a b hab.2 (hall b hb a ha hgt)) hab.1

end TwakeKickstart.Library
