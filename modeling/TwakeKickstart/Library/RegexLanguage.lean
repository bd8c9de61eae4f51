import TwakeKickstart.Library.Regex

namespace TwakeKickstart.Library.Regex

/-! Which texts an expression accepts, constructor by constructor. -/

theorem nullable_of_matches {expression : Regex} {text : List Char}
    (h : Matches expression text) (hnil : text = []) :
    expression.nullable = true := by
  induction h with
  | epsilon => rfl
  | run all lower upper =>
      rw [hnil, List.length_nil] at lower
      rw [nullable, beq_iff_eq]
      exact Nat.le_zero.mp lower
  | seq _ _ ihFirst ihSecond =>
      rw [List.append_eq_nil_iff] at hnil
      rw [nullable, ihFirst hnil.1, ihSecond hnil.2]
      rfl
  | altLeft _ ih =>
      rw [nullable, ih hnil]
      rfl
  | altRight _ ih => rw [nullable, ih hnil, Bool.or_true]
  | starNil => rfl
  | starCons _ _ _ _ => rfl

theorem matches_pruneSeq {first second : Regex} {text : List Char}
    (h : Matches (seq first second) text) :
    Matches (pruneSeq first second) text := by
  unfold pruneSeq
  split
  · cases h with
    | seq hfirst _ => cases hfirst
  · exact h

theorem matches_pruneAlt {left right : Regex} {text : List Char}
    (h : Matches (alt left right) text) :
    Matches (pruneAlt left right) text := by
  unfold pruneAlt
  split
  · cases h with
    | altLeft h => cases h
    | altRight h => exact h
  · cases h with
    | altLeft h => exact h
    | altRight h => cases h
  · exact h

theorem matches_derivative {expression : Regex} {c : Char}
    {text whole : List Char} (h : Matches expression whole)
    (hwhole : whole = c :: text) : Matches (expression.derivative c) text := by
  induction h generalizing text with
  | epsilon => cases hwhole
  | @run accepted least most _ all lower upper =>
      subst hwhole
      rw [List.length_cons] at lower upper
      have hmost : most ≠ some 0 := by
        intro hzero
        exact Nat.not_succ_le_zero _ (upper 0 hzero)
      rw [derivative, if_pos ⟨all c List.mem_cons_self, hmost⟩]
      refine .run ?_ (Nat.sub_le_of_le_add lower) ?_
      · intro other hother
        exact all other (List.mem_cons_of_mem _ hother)
      · intro bound hbound
        obtain ⟨whole, hwhole, rfl⟩ := Option.map_eq_some_iff.mp hbound
        exact Nat.le_sub_one_of_lt (upper whole hwhole)
  | @seq first second head tail hfirst hsecond ihFirst ihSecond =>
      rw [derivative]
      cases head with
      | nil =>
          rw [nullable_of_matches hfirst rfl, if_pos rfl]
          exact matches_pruneAlt (.altRight (ihSecond hwhole))
      | cons other head =>
          rw [List.cons_append, List.cons.injEq] at hwhole
          obtain ⟨rfl, rfl⟩ := hwhole
          have hseq := matches_pruneSeq (.seq (ihFirst rfl) hsecond)
          split
          · exact matches_pruneAlt (.altLeft hseq)
          · exact hseq
  | altLeft _ ih => exact matches_pruneAlt (.altLeft (ih hwhole))
  | altRight _ ih => exact matches_pruneAlt (.altRight (ih hwhole))
  | starNil => cases hwhole
  | @starCons body head tail hbody hrest ihBody ihRest =>
      cases head with
      | nil => exact ihRest hwhole
      | cons other head =>
          rw [List.cons_append, List.cons.injEq] at hwhole
          obtain ⟨rfl, rfl⟩ := hwhole
          exact matches_pruneSeq (.seq (ihBody rfl) hrest)

theorem acceptsList_of_matches {expression : Regex} {text : List Char}
    (h : Matches expression text) : expression.acceptsList text = true := by
  induction text generalizing expression with
  | nil => exact nullable_of_matches h rfl
  | cons c rest ih => exact ih (matches_derivative h rfl)

theorem acceptsList_iff {expression : Regex} {text : List Char} :
    expression.acceptsList text = true ↔ Matches expression text :=
  ⟨matches_of_acceptsList, acceptsList_of_matches⟩

section Constructors

variable {first second left right body : Regex} {text : List Char}

@[simp] theorem matches_epsilon_iff : Matches epsilon text ↔ text = [] := by
  constructor
  · intro h
    cases h
    rfl
  · rintro rfl
    exact .epsilon

@[simp] theorem matches_seq_iff : Matches (seq first second) text ↔
    ∃ head tail, text = head ++ tail ∧ Matches first head ∧
      Matches second tail := by
  constructor
  · intro h
    cases h with
    | seq hfirst hsecond => exact ⟨_, _, rfl, hfirst, hsecond⟩
  · rintro ⟨head, tail, rfl, hfirst, hsecond⟩
    exact .seq hfirst hsecond

@[simp] theorem matches_alt_iff :
    Matches (alt left right) text ↔ Matches left text ∨ Matches right text := by
  constructor
  · intro h
    cases h with
    | altLeft h => exact .inl h
    | altRight h => exact .inr h
  · intro h
    cases h with
    | inl h => exact .altLeft h
    | inr h => exact .altRight h

@[simp] theorem matches_optional_iff :
    Matches (optional body) text ↔ Matches body text ∨ text = [] := by
  rw [optional, matches_alt_iff, matches_epsilon_iff]

@[simp] theorem matches_run_iff {accepted : Char → Bool} {least : Nat}
    {most : Option Nat} : Matches (run accepted least most) text ↔
      (∀ c ∈ text, accepted c = true) ∧ least ≤ text.length ∧
        ∀ bound, most = some bound → text.length ≤ bound := by
  constructor
  · intro h
    cases h with
    | run all lower upper => exact ⟨all, lower, upper⟩
  · intro h
    exact .run h.1 h.2.1 h.2.2

@[simp] theorem matches_one_iff {accepted : Char → Bool} :
    Matches (one accepted) text ↔ ∃ c, accepted c = true ∧ text = [c] := by
  rw [one, matches_run_iff]
  constructor
  · intro h
    obtain ⟨c, rfl⟩ := List.length_eq_one_iff.mp
      (Nat.le_antisymm (h.2.2 1 rfl) h.2.1)
    exact ⟨c, h.1 c List.mem_cons_self, rfl⟩
  · rintro ⟨c, hc, rfl⟩
    refine ⟨?_, Nat.le_refl 1, ?_⟩
    · simpa using hc
    · intro bound hbound
      cases hbound
      exact Nat.le_refl 1

@[simp] theorem matches_literal_iff {c : Char} :
    Matches (literal c) text ↔ text = [c] := by
  change Matches (one (· == c)) text ↔ text = [c]
  simp

theorem matches_sequence_cons_iff {rest : List Regex} :
    Matches (sequence (first :: rest)) text ↔
      ∃ head tail, text = head ++ tail ∧ Matches first head ∧
        Matches (sequence rest) tail := by
  cases rest with
  | nil => simp [sequence]
  | cons second rest => exact matches_seq_iff

@[simp] theorem matches_literals_iff {literal : String} :
    Matches (literals literal) text ↔ text = literal.toList := by
  unfold literals
  induction literal.toList generalizing text with
  | nil => exact matches_epsilon_iff
  | cons c rest ih =>
      rw [List.map_cons, matches_sequence_cons_iff]
      simp only [matches_literal_iff, ih]
      constructor
      · rintro ⟨head, tail, rfl, rfl, rfl⟩
        rfl
      · rintro rfl
        exact ⟨[c], rest, rfl, rfl, rfl⟩

theorem matches_anyOf_iff {choices : List Regex} :
    Matches (anyOf choices) text ↔
      ∃ choice ∈ choices, Matches choice text := by
  induction choices with
  | nil =>
      constructor
      · intro h
        cases h
      · rintro ⟨_, hmem, _⟩
        cases hmem
  | cons choice rest ih =>
      cases rest with
      | nil => simp [anyOf]
      | cons second rest =>
          change Matches (alt choice (anyOf (second :: rest))) text ↔ _
          rw [matches_alt_iff, ih]
          simp only [List.mem_cons, exists_eq_or_imp]

/-- The text is cut into parts that the expression matches. -/
def Cut (body : Regex) (parts : List (List Char)) (text : List Char) : Prop :=
  (∀ part ∈ parts, Matches body part) ∧ text = parts.flatten

theorem cut_nil_iff : Cut body [] text ↔ text = [] := by
  constructor
  · intro h
    exact h.2
  · intro h
    exact ⟨List.forall_mem_nil _, h⟩

theorem Cut.cons {parts : List (List Char)} {head tail : List Char}
    (hhead : Matches body head) (htail : Cut body parts tail) :
    Cut body (head :: parts) (head ++ tail) :=
  ⟨List.forall_mem_cons.mpr ⟨hhead, htail.1⟩, by
    rw [htail.2, List.flatten_cons]⟩

theorem Cut.append {parts others : List (List Char)} {head tail : List Char}
    (hhead : Cut body parts head) (htail : Cut body others tail) :
    Cut body (parts ++ others) (head ++ tail) :=
  ⟨List.forall_mem_append.mpr ⟨hhead.1, htail.1⟩, by
    rw [hhead.2, htail.2, List.flatten_append]⟩

theorem matches_star_iff :
    Matches (star body) text ↔ ∃ parts, Cut body parts text := by
  constructor
  · intro h
    generalize hstar : star body = expression at h
    induction h with
    | starNil => exact ⟨[], cut_nil_iff.mpr rfl⟩
    | starCons hbody _ _ ih =>
        cases hstar
        obtain ⟨parts, hparts⟩ := ih rfl
        exact ⟨_ :: parts, hparts.cons hbody⟩
    | _ => cases hstar
  · rintro ⟨parts, hparts, rfl⟩
    induction parts with
    | nil => exact .starNil
    | cons part rest ih =>
        rw [List.forall_mem_cons] at hparts
        exact .starCons hparts.1 (ih hparts.2)

theorem matches_exactly_iff {times : Nat} :
    Matches (exactly times body) text ↔
      ∃ parts, parts.length = times ∧ Cut body parts text := by
  unfold exactly
  induction times generalizing text with
  | zero =>
      rw [List.replicate_zero, sequence, matches_epsilon_iff]
      constructor
      · intro h
        exact ⟨[], rfl, cut_nil_iff.mpr h⟩
      · rintro ⟨parts, hlength, hparts⟩
        rw [List.eq_nil_of_length_eq_zero hlength] at hparts
        exact cut_nil_iff.mp hparts
  | succ times ih =>
      rw [List.replicate_succ, matches_sequence_cons_iff]
      simp only [ih]
      constructor
      · rintro ⟨head, tail, rfl, hhead, parts, rfl, hparts⟩
        exact ⟨head :: parts, rfl, hparts.cons hhead⟩
      · rintro ⟨parts, hlength, hparts, rfl⟩
        cases parts with
        | nil => cases hlength
        | cons head parts =>
            rw [List.forall_mem_cons] at hparts
            exact ⟨head, parts.flatten, rfl, hparts.1, parts,
              Nat.succ.inj hlength, hparts.2, rfl⟩

theorem matches_atMost_iff {times : Nat} :
    Matches (atMost times body) text ↔
      ∃ parts, parts.length ≤ times ∧ Cut body parts text := by
  induction times generalizing text with
  | zero =>
      rw [atMost, matches_epsilon_iff]
      constructor
      · intro h
        exact ⟨[], Nat.le_refl 0, cut_nil_iff.mpr h⟩
      · rintro ⟨parts, hlength, hparts⟩
        rw [List.eq_nil_of_length_eq_zero (Nat.le_zero.mp hlength)] at hparts
        exact cut_nil_iff.mp hparts
  | succ times ih =>
      rw [atMost, matches_optional_iff, matches_seq_iff]
      simp only [ih]
      constructor
      · rintro (⟨head, tail, rfl, hhead, parts, hlength, hparts⟩ | rfl)
        · exact ⟨head :: parts, Nat.succ_le_succ hlength, hparts.cons hhead⟩
        · exact ⟨[], Nat.zero_le _, cut_nil_iff.mpr rfl⟩
      · rintro ⟨parts, hlength, hparts, rfl⟩
        cases parts with
        | nil => exact .inr rfl
        | cons head parts =>
            rw [List.forall_mem_cons] at hparts
            exact .inl ⟨head, parts.flatten, rfl, hparts.1, parts,
              Nat.le_of_succ_le_succ hlength, hparts.2, rfl⟩

theorem matches_between_iff {least most : Nat} (ordered : least ≤ most) :
    Matches (between least most body) text ↔
      ∃ parts, least ≤ parts.length ∧ parts.length ≤ most ∧
        Cut body parts text := by
  rw [between, matches_seq_iff]
  simp only [matches_exactly_iff, matches_atMost_iff]
  constructor
  · rintro ⟨head, tail, rfl, ⟨parts, rfl, hparts⟩, others, hlength, hothers⟩
    refine ⟨parts ++ others, ?_, ?_, hparts.append hothers⟩
    · simp
    · rw [List.length_append]
      omega
  · rintro ⟨parts, hleast, hmost, hparts, rfl⟩
    refine ⟨(parts.take least).flatten, (parts.drop least).flatten, ?_,
      ⟨parts.take least, ?_, ?_, rfl⟩, parts.drop least, ?_, ?_, rfl⟩
    · rw [← List.flatten_append, List.take_append_drop]
    · exact List.length_take_of_le hleast
    · intro part hpart
      exact hparts part (List.mem_of_mem_take hpart)
    · rw [List.length_drop]
      omega
    · intro part hpart
      exact hparts part (List.mem_of_mem_drop hpart)

end Constructors

/-! Items with a separator between them. -/

section Separated

variable {item : Regex} {separator : Char} {text : List Char}

theorem flatten_append_last (items : List (List Char)) (last : List Char) :
    (items.map (· ++ [separator])).flatten ++ last =
      [separator].intercalate (items ++ [last]) := by
  induction items with
  | nil => simp
  | cons first rest ih =>
      rw [List.map_cons, List.flatten_cons, List.append_assoc, ih,
        List.cons_append, List.intercalate_cons_of_ne_nil (by simp)]

/-- What stands around the first separator. -/
theorem around_separator {before after : List Char}
    (h : separator ∉ before) :
    (before ++ separator :: after).takeWhile (· != separator) = before ∧
      (before ++ separator :: after).dropWhile (· != separator) =
        separator :: after := by
  have hbefore : ∀ c ∈ before, (c != separator) = true := by
    intro c hc
    rw [bne_iff_ne]
    rintro rfl
    exact h hc
  rw [List.takeWhile_append_of_pos hbefore,
    List.dropWhile_append_of_pos hbefore]
  simp

theorem first_separator_inj {before after other another : List Char}
    (hbefore : separator ∉ before) (hother : separator ∉ other)
    (h : before ++ separator :: after = other ++ separator :: another) :
    before = other ∧ after = another := by
  obtain ⟨htake, hdrop⟩ := @around_separator _ _ after hbefore
  obtain ⟨htakeOther, hdropOther⟩ := @around_separator _ _ another hother
  rw [h] at htake hdrop
  exact ⟨htake.symm.trans htakeOther,
    (List.cons.inj (hdrop.symm.trans hdropOther)).2⟩

theorem last_separator_inj {before after other another : List Char}
    (hafter : separator ∉ after) (hanother : separator ∉ another)
    (h : before ++ separator :: after = other ++ separator :: another) :
    before = other ∧ after = another := by
  have hreverse := congrArg List.reverse h
  simp only [List.reverse_append, List.reverse_cons, List.append_assoc,
    List.singleton_append] at hreverse
  obtain ⟨hrest, hbefore⟩ := first_separator_inj
    (mt List.mem_reverse.mp hafter) (mt List.mem_reverse.mp hanother) hreverse
  exact ⟨List.reverse_injective hbefore, List.reverse_injective hrest⟩

theorem cut_separator_iff {parts : List (List Char)} :
    Cut (seq item (literal separator)) parts text ↔
      ∃ items : List (List Char), (∀ one ∈ items, Matches item one) ∧
        parts = items.map (· ++ [separator]) ∧ text = parts.flatten := by
  constructor
  · rintro ⟨hparts, rfl⟩
    induction parts with
    | nil => exact ⟨[], List.forall_mem_nil _, rfl, rfl⟩
    | cons part rest ih =>
        rw [List.forall_mem_cons, matches_seq_iff] at hparts
        obtain ⟨⟨head, tail, rfl, hhead, htail⟩, hrest⟩ := hparts
        rw [matches_literal_iff] at htail
        obtain ⟨items, hitems, rfl, _⟩ := ih hrest
        exact ⟨head :: items, List.forall_mem_cons.mpr ⟨hhead, hitems⟩,
          by rw [htail]; rfl, rfl⟩
  · rintro ⟨items, hitems, rfl, rfl⟩
    refine ⟨?_, rfl⟩
    intro part hpart
    obtain ⟨one, hone, rfl⟩ := List.mem_map.mp hpart
    exact matches_seq_iff.mpr
      ⟨one, [separator], rfl, hitems one hone, matches_literal_iff.mpr rfl⟩

/-- The separator comes first in each part. -/
theorem cut_leading_iff {parts : List (List Char)} :
    Cut (seq (literal separator) item) parts text ↔
      ∃ items : List (List Char), (∀ one ∈ items, Matches item one) ∧
        parts = items.map (separator :: ·) ∧ text = parts.flatten := by
  constructor
  · rintro ⟨hparts, rfl⟩
    induction parts with
    | nil => exact ⟨[], List.forall_mem_nil _, rfl, rfl⟩
    | cons part rest ih =>
        rw [List.forall_mem_cons, matches_seq_iff] at hparts
        obtain ⟨⟨head, tail, rfl, hhead, htail⟩, hrest⟩ := hparts
        rw [matches_literal_iff] at hhead
        obtain ⟨items, hitems, rfl, _⟩ := ih hrest
        exact ⟨tail :: items, List.forall_mem_cons.mpr ⟨htail, hitems⟩,
          by rw [hhead]; rfl, rfl⟩
  · rintro ⟨items, hitems, rfl, rfl⟩
    refine ⟨?_, rfl⟩
    intro part hpart
    obtain ⟨one, hone, rfl⟩ := List.mem_map.mp hpart
    exact matches_seq_iff.mpr
      ⟨[separator], one, rfl, matches_literal_iff.mpr rfl, hitems one hone⟩

theorem flatten_leading {items : List (List Char)} (nonempty : items ≠ []) :
    (items.map (separator :: ·)).flatten =
      separator :: [separator].intercalate items := by
  induction items with
  | nil => exact absurd rfl nonempty
  | cons first rest ih =>
      cases rest with
      | nil => simp
      | cons second rest =>
          rw [List.map_cons, List.flatten_cons, ih (List.cons_ne_nil _ _),
            List.intercalate_cons_cons, List.cons_append, List.append_assoc]
          rfl

theorem matches_separated {parts : List (List Char)} {head last : List Char}
    (hparts : Cut (seq item (literal separator)) parts head)
    (hlast : Matches item last) :
    ∃ items : List (List Char), items.length = parts.length + 1 ∧
      (∀ one ∈ items, Matches item one) ∧
        head ++ last = [separator].intercalate items := by
  obtain ⟨items, hitems, rfl, rfl⟩ := cut_separator_iff.mp hparts
  refine ⟨items ++ [last], by simp, ?_, flatten_append_last items last⟩
  exact List.forall_mem_append.mpr ⟨hitems, by simpa using hlast⟩

theorem cut_of_separated {items : List (List Char)} (nonempty : items ≠ [])
    (hitems : ∀ one ∈ items, Matches item one) :
    ∃ parts head last, parts.length + 1 = items.length ∧
      Cut (seq item (literal separator)) parts head ∧ Matches item last ∧
        [separator].intercalate items = head ++ last := by
  obtain ⟨init, last, rfl⟩ : ∃ init last, items = init ++ [last] :=
    ⟨_, _, (List.dropLast_append_getLast nonempty).symm⟩
  rw [List.forall_mem_append] at hitems
  refine ⟨init.map (· ++ [separator]), _, last, by simp,
    cut_separator_iff.mpr ⟨init, hitems.1, rfl, rfl⟩,
    hitems.2 last List.mem_cons_self, ?_⟩
  exact (flatten_append_last init last).symm

theorem matches_star_separated_iff :
    Matches (seq (star (seq item (literal separator))) item) text ↔
      ∃ items, items ≠ [] ∧ (∀ one ∈ items, Matches item one) ∧
        text = [separator].intercalate items := by
  rw [matches_seq_iff]
  simp only [matches_star_iff]
  constructor
  · rintro ⟨head, last, rfl, ⟨parts, hparts⟩, hlast⟩
    obtain ⟨items, hlength, hitems, htext⟩ := matches_separated hparts hlast
    refine ⟨items, ?_, hitems, htext⟩
    rintro rfl
    cases hlength
  · rintro ⟨items, hnonempty, hitems, rfl⟩
    obtain ⟨parts, head, last, _, hparts, hlast, htext⟩ :=
      @cut_of_separated _ separator _ hnonempty hitems
    exact ⟨head, last, htext, ⟨parts, hparts⟩, hlast⟩

theorem matches_exactly_separated_iff {times : Nat} :
    Matches (seq (exactly times (seq item (literal separator))) item) text ↔
      ∃ items, items.length = times + 1 ∧ (∀ one ∈ items, Matches item one) ∧
        text = [separator].intercalate items := by
  rw [matches_seq_iff]
  simp only [matches_exactly_iff]
  constructor
  · rintro ⟨head, last, rfl, ⟨parts, rfl, hparts⟩, hlast⟩
    exact matches_separated hparts hlast
  · rintro ⟨items, hlength, hitems, rfl⟩
    obtain ⟨parts, head, last, hparts, hcut, hlast, htext⟩ :=
      @cut_of_separated _ separator _ (by
        rintro rfl
        cases hlength) hitems
    exact ⟨head, last, htext, ⟨parts, by omega, hcut⟩, hlast⟩

end Separated

/-! Expressions that are a class for each character. -/

def fits : List (Char → Bool) → List Char → Bool
  | [], [] => true
  | accepted :: rest, c :: text => accepted c && fits rest text
  | _, _ => false

section Classes

variable {classes others : List (Char → Bool)} {text : List Char}

theorem fits_cons_iff {accepted : Char → Bool} :
    fits (accepted :: classes) text = true ↔
      ∃ c rest, text = c :: rest ∧ accepted c = true ∧
        fits classes rest = true := by
  cases text with
  | nil => simp [fits]
  | cons c rest => simp [fits]

theorem length_of_fits (h : fits classes text = true) :
    text.length = classes.length := by
  induction classes generalizing text with
  | nil =>
      cases text with
      | nil => rfl
      | cons c rest => cases h
  | cons accepted classes ih =>
      obtain ⟨c, rest, rfl, _, hrest⟩ := fits_cons_iff.mp h
      rw [List.length_cons, List.length_cons, ih hrest]

theorem fits_append_iff : fits (classes ++ others) text = true ↔
    ∃ head tail, text = head ++ tail ∧ fits classes head = true ∧
      fits others tail = true := by
  induction classes generalizing text with
  | nil =>
      constructor
      · intro h
        exact ⟨[], text, rfl, rfl, h⟩
      · rintro ⟨head, tail, rfl, hhead, htail⟩
        cases head with
        | nil => exact htail
        | cons c rest => cases hhead
  | cons accepted classes ih =>
      rw [List.cons_append, fits_cons_iff]
      simp only [ih, fits_cons_iff]
      constructor
      · rintro ⟨c, rest, rfl, hc, head, tail, rfl, hhead, htail⟩
        exact ⟨c :: head, tail, rfl, ⟨c, head, rfl, hc, hhead⟩, htail⟩
      · rintro ⟨_, tail, rfl, ⟨c, head, rfl, hc, hhead⟩, htail⟩
        exact ⟨c, head ++ tail, rfl, hc, head, tail, rfl, hhead, htail⟩

/-- The expression accepts one character of each class. -/
def IsClasses (expression : Regex) (classes : List (Char → Bool)) : Prop :=
  ∀ text, Matches expression text ↔ fits classes text = true

theorem isClasses_epsilon : IsClasses epsilon [] := by
  intro text
  rw [matches_epsilon_iff]
  cases text with
  | nil => simp [fits]
  | cons c rest => simp [fits]

theorem isClasses_one (accepted : Char → Bool) :
    IsClasses (one accepted) [accepted] := by
  intro text
  rw [matches_one_iff, fits_cons_iff]
  constructor
  · rintro ⟨c, hc, rfl⟩
    exact ⟨c, [], rfl, hc, rfl⟩
  · rintro ⟨c, rest, rfl, hc, hrest⟩
    cases rest with
    | nil => exact ⟨c, hc, rfl⟩
    | cons other rest => cases hrest

theorem IsClasses.seq {first second : Regex}
    (hfirst : IsClasses first classes) (hsecond : IsClasses second others) :
    IsClasses (seq first second) (classes ++ others) := by
  intro text
  rw [matches_seq_iff, fits_append_iff]
  constructor
  · rintro ⟨head, tail, htext, hhead, htail⟩
    exact ⟨head, tail, htext, (hfirst head).mp hhead, (hsecond tail).mp htail⟩
  · rintro ⟨head, tail, htext, hhead, htail⟩
    exact ⟨head, tail, htext, (hfirst head).mpr hhead,
      (hsecond tail).mpr htail⟩

theorem IsClasses.cons {first : Regex} {rest : List Regex}
    (hfirst : IsClasses first classes)
    (hrest : IsClasses (sequence rest) others) :
    IsClasses (sequence (first :: rest)) (classes ++ others) := by
  intro text
  rw [matches_sequence_cons_iff, ← matches_seq_iff]
  exact hfirst.seq hrest text

theorem isClasses_literals (literal : String) :
    IsClasses (literals literal)
      (literal.toList.map fun expected c => c == expected) := by
  unfold literals
  induction literal.toList with
  | nil => exact isClasses_epsilon
  | cons c rest ih => exact (isClasses_one (· == c)).cons ih

theorem matches_run_same_iff {accepted : Char → Bool} {count : Nat} :
    Matches (run accepted count (some count)) text ↔
      (∀ c ∈ text, accepted c = true) ∧ text.length = count := by
  rw [matches_run_iff]
  constructor
  · rintro ⟨hall, hleast, hmost⟩
    exact ⟨hall, Nat.le_antisymm (hmost count rfl) hleast⟩
  · rintro ⟨hall, rfl⟩
    refine ⟨hall, Nat.le_refl _, ?_⟩
    intro bound hbound
    cases hbound
    exact Nat.le_refl _

theorem isClasses_run (accepted : Char → Bool) (count : Nat) :
    IsClasses (run accepted count (some count))
      (List.replicate count accepted) := by
  intro text
  rw [matches_run_same_iff]
  induction count generalizing text with
  | zero =>
      cases text with
      | nil => simp [fits]
      | cons c rest => simp [fits]
  | succ count ih =>
      cases text with
      | nil => simp [fits, List.replicate_succ]
      | cons c rest =>
          rw [List.replicate_succ, fits, Bool.and_eq_true, ← ih,
            List.forall_mem_cons, List.length_cons, Nat.succ_inj, and_assoc]

/-- The expression accepts one character of each class, for one of several
lists of classes. -/
def IsChoices (expression : Regex) (choices : List (List (Char → Bool))) :
    Prop :=
  ∀ text, Matches expression text ↔
    ∃ classes ∈ choices, fits classes text = true

variable {choices alternatives : List (List (Char → Bool))}

theorem IsClasses.isChoices {expression : Regex}
    (h : IsClasses expression classes) : IsChoices expression [classes] := by
  intro text
  rw [h text]
  simp only [List.mem_singleton, exists_eq_left]

theorem IsChoices.alt {left right : Regex} (hleft : IsChoices left choices)
    (hright : IsChoices right alternatives) :
    IsChoices (alt left right) (choices ++ alternatives) := by
  intro text
  rw [matches_alt_iff, hleft text, hright text]
  simp only [List.mem_append, or_and_right, exists_or]

theorem IsChoices.optional {body : Regex} (h : IsChoices body choices) :
    IsChoices (optional body) (choices ++ [[]]) :=
  h.alt isClasses_epsilon.isChoices

theorem IsChoices.seq {first second : Regex} (hfirst : IsChoices first choices)
    (hsecond : IsChoices second alternatives) :
    IsChoices (seq first second)
      (choices.flatMap fun head => alternatives.map (head ++ ·)) := by
  intro text
  rw [matches_seq_iff]
  constructor
  · rintro ⟨head, tail, rfl, hhead, htail⟩
    obtain ⟨before, hbefore, hfits⟩ := (hfirst head).mp hhead
    obtain ⟨after, hafter, hrest⟩ := (hsecond tail).mp htail
    exact ⟨before ++ after, List.mem_flatMap.mpr ⟨before, hbefore,
      List.mem_map_of_mem hafter⟩,
      fits_append_iff.mpr ⟨head, tail, rfl, hfits, hrest⟩⟩
  · rintro ⟨whole, hwhole, hfits⟩
    obtain ⟨before, hbefore, hmap⟩ := List.mem_flatMap.mp hwhole
    obtain ⟨after, hafter, rfl⟩ := List.mem_map.mp hmap
    obtain ⟨head, tail, rfl, hhead, htail⟩ := fits_append_iff.mp hfits
    exact ⟨head, tail, rfl, (hfirst head).mpr ⟨before, hbefore, hhead⟩,
      (hsecond tail).mpr ⟨after, hafter, htail⟩⟩

end Classes

end TwakeKickstart.Library.Regex
