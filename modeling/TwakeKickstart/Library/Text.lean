import Mathlib.Data.List.Basic

namespace TwakeKickstart.Library

/-! What stands between separators. -/

theorem mem_of_mem_splitOn {d c : Char} {text piece : List Char}
    (h : piece ∈ text.splitOn d) (hc : c ∈ piece) : c ∈ text ∧ c ≠ d := by
  induction text generalizing piece with
  | nil =>
      rw [List.splitOn_nil, List.mem_singleton] at h
      rw [h] at hc
      exact absurd hc List.not_mem_nil
  | cons first text ih =>
      have later : ∀ {other}, other ∈ text.splitOn d → c ∈ other →
          c ∈ first :: text ∧ c ≠ d := by
        intro other hother hmem
        obtain ⟨htext, hne⟩ := ih hother hmem
        exact ⟨List.mem_cons_of_mem first htext, hne⟩
      rw [List.splitOn_cons_eq_if_modifyHead] at h
      split at h
      · obtain rfl | h := List.mem_cons.mp h
        · exact absurd hc List.not_mem_nil
        · exact later h hc
      · rename_i hfirst
        cases hsplit : text.splitOn d with
        | nil => exact absurd hsplit (List.splitOn_ne_nil d text)
        | cons head others =>
            rw [hsplit] at h later
            obtain rfl | h := List.mem_cons.mp h
            · obtain rfl | hmem := List.mem_cons.mp hc
              · refine ⟨List.mem_cons_self, ?_⟩
                rintro rfl
                exact hfirst (beq_self_eq_true c)
              · exact later List.mem_cons_self hmem
            · exact later (List.mem_cons_of_mem _ h) hc

theorem not_mem_of_mem_splitOn {d : Char} {text piece : List Char}
    (h : piece ∈ text.splitOn d) : d ∉ piece :=
  fun hd => (mem_of_mem_splitOn h hd).2 rfl

theorem mem_intercalate {c separator : Char} {items : List (List Char)}
    (h : c ∈ [separator].intercalate items) :
    c = separator ∨ ∃ one ∈ items, c ∈ one := by
  induction items with
  | nil => simp at h
  | cons first rest ih =>
      cases rest with
      | nil =>
          rw [List.intercalate_singleton] at h
          exact .inr ⟨first, List.mem_cons_self, h⟩
      | cons second rest =>
          rw [List.intercalate_cons_cons, List.mem_append, List.mem_append,
            List.mem_singleton] at h
          rcases h with (hfirst | hseparator) | hrest
          · exact .inr ⟨first, List.mem_cons_self, hfirst⟩
          · exact .inl hseparator
          · rcases ih hrest with hseparator | ⟨one, hone, hc⟩
            · exact .inl hseparator
            · exact .inr ⟨one, List.mem_cons_of_mem _ hone, hc⟩

theorem intercalate_append {separator : Char} {items : List (List Char)}
    (nonempty : items ≠ []) (rest : List (List Char)) :
    [separator].intercalate (items ++ rest) =
      [separator].intercalate items ++ rest.flatMap (separator :: ·) := by
  induction items with
  | nil => exact absurd rfl nonempty
  | cons first items ih =>
      cases items with
      | nil =>
          rw [List.intercalate_singleton]
          clear ih nonempty
          induction rest generalizing first with
          | nil => simp
          | cons second rest ih =>
              rw [List.singleton_append, List.intercalate_cons_cons,
                List.flatMap_cons, List.append_assoc, List.singleton_append]
              exact congrArg (first ++ separator :: ·) (ih second)
      | cons second items =>
          rw [List.cons_append, List.cons_append, List.intercalate_cons_cons,
            List.intercalate_cons_cons, ← List.cons_append, ih nofun,
            List.append_assoc, List.append_assoc, List.append_assoc]

end TwakeKickstart.Library

namespace TwakeKickstart.Library

/-! Characters of the ASCII range, and their case. -/

theorem range_of_isAlphanum {c : Char} (h : c.isAlphanum = true) :
    (48 ≤ c.toNat ∧ c.toNat ≤ 57) ∨ (65 ≤ c.toNat ∧ c.toNat ≤ 90) ∨
      (97 ≤ c.toNat ∧ c.toNat ≤ 122) := by
  have hval : c.val.toNat = c.toNat := rfl
  have hA : 'A'.val.toNat = 65 := rfl
  have hZ : 'Z'.val.toNat = 90 := rfl
  have ha : 'a'.val.toNat = 97 := rfl
  have hz : 'z'.val.toNat = 122 := rfl
  have hzero : '0'.val.toNat = 48 := rfl
  have hnine : '9'.val.toNat = 57 := rfl
  delta Char.isAlphanum Char.isAlpha Char.isUpper Char.isLower Char.isDigit at h
  simp only [UInt32.le_iff_toNat_le, ge_iff_le, Bool.or_eq_true,
    Bool.and_eq_true, decide_eq_true_eq] at h
  omega

theorem toUpper_cases (c : Char) : c.toUpper = c ∨
    (97 ≤ c.toNat ∧ c.toNat ≤ 122 ∧ c.toUpper.toNat + 32 = c.toNat) := by
  delta Char.toUpper
  split
  · rename_i h
    right
    have ha : 'a'.val.toNat = 97 := rfl
    have hz : 'z'.val.toNat = 122 := rfl
    have hA : ('A'.val - 'a'.val).toNat = 4294967264 := by decide
    have hval : c.val.toNat = c.toNat := rfl
    simp only [UInt32.le_iff_toNat_le] at h
    refine ⟨by omega, by omega, ?_⟩
    change (c.val + ('A'.val - 'a'.val)).toNat + 32 = c.toNat
    rw [UInt32.toNat_add, hA]
    omega
  · exact .inl rfl

theorem toLower_cases (c : Char) : c.toLower = c ∨
    (65 ≤ c.toNat ∧ c.toNat ≤ 90 ∧ c.toLower.toNat = c.toNat + 32) := by
  delta Char.toLower
  split
  · rename_i h
    right
    have hA : 'A'.val.toNat = 65 := rfl
    have hZ : 'Z'.val.toNat = 90 := rfl
    have ha : ('a'.val - 'A'.val).toNat = 32 := by decide
    have hval : c.val.toNat = c.toNat := rfl
    simp only [UInt32.le_iff_toNat_le] at h
    refine ⟨by omega, by omega, ?_⟩
    change (c.val + ('a'.val - 'A'.val)).toNat = c.toNat + 32
    rw [UInt32.toNat_add, ha]
    omega
  · exact .inl rfl

end TwakeKickstart.Library

namespace TwakeKickstart.Library

/-! Every occurrence of a text replaced by another one, from the left. -/

/-- The text after an occurrence, of which some characters are still to be
passed over. -/
def replaceFrom (pattern replacement : List Char) :
    Nat → List Char → List Char
  | _, [] => []
  | skip + 1, _ :: rest => replaceFrom pattern replacement skip rest
  | 0, c :: rest =>
      if pattern.isPrefixOf (c :: rest) then
        replacement ++
          replaceFrom pattern replacement (pattern.length - 1) rest
      else c :: replaceFrom pattern replacement 0 rest

def replaceAll (pattern replacement text : List Char) : List Char :=
  replaceFrom pattern replacement 0 text

section ReplaceAll

variable {pattern replacement : List Char}

@[simp] theorem replaceAll_nil : replaceAll pattern replacement [] = [] := rfl

theorem replaceFrom_append (passed rest : List Char) :
    replaceFrom pattern replacement passed.length (passed ++ rest) =
      replaceAll pattern replacement rest := by
  induction passed with
  | nil => rfl
  | cons c passed ih => exact ih

theorem replaceAll_append (nonempty : pattern ≠ []) (rest : List Char) :
    replaceAll pattern replacement (pattern ++ rest) =
      replacement ++ replaceAll pattern replacement rest := by
  cases pattern with
  | nil => exact absurd rfl nonempty
  | cons c passed =>
      have hprefix : (c :: passed).isPrefixOf (c :: (passed ++ rest)) = true :=
        List.isPrefixOf_iff_prefix.mpr (List.prefix_append (c :: passed) rest)
      have hrest := @replaceFrom_append (c :: passed) replacement passed rest
      rw [List.cons_append, replaceAll, replaceFrom, if_pos hprefix, ← hrest]
      rfl

theorem replaceAll_cons {c : Char} {rest : List Char}
    (h : ¬ pattern <+: c :: rest) :
    replaceAll pattern replacement (c :: rest) =
      c :: replaceAll pattern replacement rest := by
  rw [← List.isPrefixOf_iff_prefix] at h
  rw [replaceAll, replaceFrom, if_neg h]
  rfl

theorem replaceAll_cons_ne {first c : Char} {after rest : List Char}
    (h : c ≠ first) :
    replaceAll (first :: after) replacement (c :: rest) =
      c :: replaceAll (first :: after) replacement rest := by
  apply replaceAll_cons
  intro hprefix
  exact h (List.cons_prefix_cons.mp hprefix).1.symm

theorem replaceAll_single (old new : Char) (text : List Char) :
    replaceAll [old] [new] text =
      text.map fun c => if c = old then new else c := by
  induction text with
  | nil => rfl
  | cons c text ih =>
      rw [List.map_cons, ← ih]
      by_cases h : c = old
      · subst c
        rw [if_pos rfl]
        exact replaceAll_append (List.cons_ne_nil old []) text
      · rw [if_neg h]
        exact replaceAll_cons_ne h

/-- A pattern of two characters is not found where another one follows the
first. -/
theorem replaceAll_pair_of_head_ne {first second c : Char} {rest : List Char}
    (h : rest.head? ≠ some second) :
    replaceAll [first, second] replacement (c :: rest) =
      c :: replaceAll [first, second] replacement rest := by
  apply replaceAll_cons
  intro hprefix
  obtain ⟨_, hrest⟩ := List.cons_prefix_cons.mp hprefix
  obtain ⟨tail, rfl⟩ := hrest
  exact h rfl

theorem replaceAll_pair_of_ne {first second c d : Char} {rest : List Char}
    (h : d ≠ second) :
    replaceAll [first, second] replacement (c :: d :: rest) =
      c :: replaceAll [first, second] replacement (d :: rest) :=
  replaceAll_pair_of_head_ne fun hhead => h (Option.some.inj hhead)

end ReplaceAll

end TwakeKickstart.Library
