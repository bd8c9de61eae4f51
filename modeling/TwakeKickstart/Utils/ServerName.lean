import Mathlib.Algebra.Ring.Nat
import TwakeKickstart.Library.Decimal
import TwakeKickstart.Library.RegexLanguage
import TwakeKickstart.Library.Text
import TwakeKickstart.Utils.MatrixId

namespace TwakeKickstart.Utils

open Library

/-! The grammar of server names that are no literal in brackets. -/

/-- 1 to 63 letters, digits and inner hyphens. -/
structure IsLabel (label : List Char) : Prop where
  nonempty : label ≠ []
  length_le : label.length ≤ 63
  all : ∀ c ∈ label, isLabelChar c = true
  first : label.head? ≠ some '-'
  last : label.getLast? ≠ some '-'

/-- 1 to 3 digits. -/
structure IsShortNumeral (label : List Char) : Prop where
  nonempty : label ≠ []
  length_le : label.length ≤ 3
  all : ∀ c ∈ label, c.isDigit = true

/-- Labels with a dot between them; four that look like those of an IPv4
address are at most 255. -/
def IsHost (host : List Char) : Prop :=
  ∃ labels, labels ≠ [] ∧ (∀ label ∈ labels, IsLabel label) ∧
    host = ['.'].intercalate labels ∧
    (labels.length = 4 → (∀ label ∈ labels, IsShortNumeral label) →
      ∀ label ∈ labels, Decimal.value label ≤ 255)

/-- A numeral from 1 to 65535 without leading zeros. -/
def IsPort (port : List Char) : Prop :=
  ∃ n, 1 ≤ n ∧ n ≤ 65535 ∧ port = Nat.toDigits 10 n

def IsServerName (name : List Char) : Prop :=
  IsHost name ∨
    ∃ host port, IsHost host ∧ IsPort port ∧ name = host ++ ':' :: port

/-! Digits by their codes. -/

theorem isDigitUpTo_iff {most c : Char} :
    isDigitUpTo most c = true ↔ 48 ≤ c.toNat ∧ c.toNat ≤ most.toNat := by
  rw [isDigitUpTo, Bool.and_eq_true, decide_eq_true_eq, decide_eq_true_eq]
  exact Iff.rfl

theorem nonZeroDigit_iff {c : Char} :
    nonZeroDigit c = true ↔ 49 ≤ c.toNat ∧ c.toNat ≤ 57 := by
  rw [nonZeroDigit, Bool.and_eq_true, decide_eq_true_eq, decide_eq_true_eq]
  exact Iff.rfl

theorem char_le_iff {c d : Char} : c ≤ d ↔ c.toNat ≤ d.toNat := Iff.rfl

theorem char_eq_iff {c d : Char} : c = d ↔ c.toNat = d.toNat := by
  rw [Char.ext_iff, ← UInt32.toNat_inj]
  exact Iff.rfl

/-! Ports. -/

/-- The expression of a port without its colon. -/
def portNumber : Regex :=
  .anyOf
    [.seq (.literals "6553") (.one (isDigitUpTo '5')),
      .sequence [.literals "655", .one (isDigitUpTo '2'), .one Char.isDigit],
      .sequence [.literals "65", .one (isDigitUpTo '4'),
        .run Char.isDigit 2 (some 2)],
      .sequence [.literal '6', .one (isDigitUpTo '4'),
        .run Char.isDigit 3 (some 3)],
      .seq (.one fun c => '1' ≤ c && c ≤ '5') (.run Char.isDigit 4 (some 4)),
      .seq (.one nonZeroDigit) (.run Char.isDigit 0 (some 3))]

theorem numeral_cons {first : Char} {rest : List Char}
    (hfirst : 49 ≤ first.toNat ∧ first.toNat ≤ 57)
    (hrest : ∀ c ∈ rest, c.isDigit = true) :
    Decimal.Numeral (first :: rest) := by
  refine ⟨List.cons_ne_nil _ _, List.forall_mem_cons.mpr ⟨?_, hrest⟩, ?_⟩
  · rw [Decimal.isDigit_iff]
    omega
  · intro hzero
    rw [List.head?_cons, Option.some.injEq] at hzero
    rw [hzero] at hfirst
    exact absurd hfirst.1 (by decide)

theorem first_of_numeral {first : Char} {rest : List Char}
    (numeral : Decimal.Numeral (first :: rest)) :
    49 ≤ first.toNat ∧ first.toNat ≤ 57 := by
  have hdigit := Decimal.isDigit_iff.mp (numeral.all first List.mem_cons_self)
  have hzero : first.toNat ≠ 48 := by
    intro h
    rw [Decimal.toNat_eq_zero_digit h] at numeral
    exact numeral.lead rfl
  omega

theorem numeral_cons_iff {first : Char} {rest : List Char} :
    Decimal.Numeral (first :: rest) ↔
      (49 ≤ first.toNat ∧ first.toNat ≤ 57) ∧
        ∀ c ∈ rest, c.isDigit = true := by
  constructor
  · intro h
    exact ⟨first_of_numeral h, (List.forall_mem_cons.mp h.all).2⟩
  · intro h
    exact numeral_cons h.1 h.2

theorem value_cons (first : Char) (rest : List Char) :
    Decimal.value (first :: rest) =
      10 ^ rest.length * (first.toNat - 48) + Decimal.value rest := by
  rw [Decimal.value, Nat.ofDigitChars_cons, Nat.mul_zero, Nat.zero_add,
    Nat.ofDigitChars_eq_ofDigitChars_zero]
  rfl

theorem value_lt {digits : List Char} (h : ∀ c ∈ digits, c.isDigit = true) :
    Decimal.value digits < 10 ^ digits.length := by
  induction digits with
  | nil => exact Nat.one_pos
  | cons first rest ih =>
      rw [List.forall_mem_cons, Decimal.isDigit_iff] at h
      have hrest := ih h.2
      have hfirst : 10 ^ rest.length * (first.toNat - 48) ≤
          10 ^ rest.length * 9 := Nat.mul_le_mul_left _ (by omega)
      rw [value_cons, List.length_cons, Nat.pow_succ]
      omega

theorem pow_le_value {digits : List Char} (numeral : Decimal.Numeral digits) :
    10 ^ (digits.length - 1) ≤ Decimal.value digits := by
  cases digits with
  | nil => exact absurd rfl numeral.nonempty
  | cons first rest =>
      have hfirst := first_of_numeral numeral
      have hproduct : 10 ^ rest.length * 1 ≤
          10 ^ rest.length * (first.toNat - 48) :=
        Nat.mul_le_mul_left _ (by omega)
      rw [value_cons, List.length_cons, Nat.add_sub_cancel]
      omega

theorem matches_portNumber_iff {digits : List Char} :
    Regex.Matches portNumber digits ↔
      Regex.fits [(· == '6'), (· == '5'), (· == '5'), (· == '3'),
          isDigitUpTo '5'] digits = true ∨
        Regex.fits [(· == '6'), (· == '5'), (· == '5'), isDigitUpTo '2',
          Char.isDigit] digits = true ∨
        Regex.fits [(· == '6'), (· == '5'), isDigitUpTo '4', Char.isDigit,
          Char.isDigit] digits = true ∨
        Regex.fits [(· == '6'), isDigitUpTo '4', Char.isDigit, Char.isDigit,
          Char.isDigit] digits = true ∨
        Regex.fits [fun c => '1' ≤ c && c ≤ '5', Char.isDigit, Char.isDigit,
          Char.isDigit, Char.isDigit] digits = true ∨
        Regex.Matches (.seq (.one nonZeroDigit)
          (.run Char.isDigit 0 (some 3))) digits := by
  simp only [portNumber, Regex.matches_anyOf_iff, List.mem_cons,
    List.not_mem_nil, or_false, exists_eq_or_imp, exists_eq_left]
  have h1 := ((Regex.isClasses_literals "6553").seq
    (Regex.isClasses_one (isDigitUpTo '5'))) digits
  have h2 := ((Regex.isClasses_literals "655").seq
    ((Regex.isClasses_one (isDigitUpTo '2')).seq
      (Regex.isClasses_one Char.isDigit))) digits
  have h3 := ((Regex.isClasses_literals "65").seq
    ((Regex.isClasses_one (isDigitUpTo '4')).seq
      (Regex.isClasses_run Char.isDigit 2))) digits
  have h4 := ((Regex.isClasses_one (· == '6')).seq
    ((Regex.isClasses_one (isDigitUpTo '4')).seq
      (Regex.isClasses_run Char.isDigit 3))) digits
  have h5 := ((Regex.isClasses_one fun c => '1' ≤ c && c ≤ '5').seq
    (Regex.isClasses_run Char.isDigit 4)) digits
  exact or_congr h1 (or_congr h2 (or_congr h3 (or_congr h4
    (or_congr h5 Iff.rfl))))

theorem matches_shortPort_iff {digits : List Char} :
    Regex.Matches (.seq (.one nonZeroDigit)
        (.run Char.isDigit 0 (some 3))) digits ↔
      Decimal.Numeral digits ∧ digits.length ≤ 4 := by
  rw [Regex.matches_seq_iff]
  simp only [Regex.matches_one_iff, Regex.matches_run_iff, nonZeroDigit_iff]
  constructor
  · rintro ⟨_, rest, rfl, ⟨first, hfirst, rfl⟩, hrest, _, hlength⟩
    exact ⟨numeral_cons hfirst hrest, Nat.succ_le_succ (hlength 3 rfl)⟩
  · rintro ⟨hnumeral, hlength⟩
    cases digits with
    | nil => exact absurd rfl hnumeral.nonempty
    | cons first rest =>
        refine ⟨[first], rest, rfl, ⟨first, first_of_numeral hnumeral, rfl⟩,
          (List.forall_mem_cons.mp hnumeral.all).2, Nat.zero_le _, ?_⟩
        intro bound hbound
        cases hbound
        exact Nat.le_of_succ_le_succ hlength

theorem five_digits_iff {a b c d e : Char} :
    Regex.Matches portNumber [a, b, c, d, e] ↔
      Decimal.Numeral [a, b, c, d, e] ∧
        Decimal.value [a, b, c, d, e] ≤ 65535 := by
  rw [matches_portNumber_iff, matches_shortPort_iff, numeral_cons_iff]
  simp only [List.forall_mem_cons, List.not_mem_nil, false_imp_iff,
    implies_true, and_true, Decimal.isDigit_iff]
  simp only [Regex.fits, Bool.and_true, Bool.and_eq_true, isDigitUpTo_iff,
    decide_eq_true_eq, char_le_iff, beq_iff_eq, char_eq_iff,
    Decimal.isDigit_iff, Decimal.value, Nat.ofDigitChars_cons,
    Nat.ofDigitChars_nil, Char.reduceToNat, List.length_cons, List.length_nil]
  omega

theorem matches_portNumber {digits : List Char} :
    Regex.Matches portNumber digits ↔
      Decimal.Numeral digits ∧ Decimal.value digits ≤ 65535 := by
  by_cases hfive : digits.length = 5
  · match digits, hfive with
    | [a, b, c, d, e], _ => exact five_digits_iff
  · have hnone : ∀ p q r s t : Char → Bool,
        ¬ Regex.fits [p, q, r, s, t] digits = true := by
      intro p q r s t h
      exact hfive (Regex.length_of_fits h)
    rw [matches_portNumber_iff, matches_shortPort_iff]
    simp only [or_iff_right (hnone _ _ _ _ _), and_congr_right_iff]
    intro hnumeral
    constructor
    · intro hlength
      have hvalue := value_lt hnumeral.all
      have hbound : 10 ^ digits.length ≤ 10 ^ 4 :=
        Nat.pow_le_pow_right (Nat.succ_pos 9) hlength
      omega
    · intro hvalue
      by_contra hlong
      have hbound := pow_le_value hnumeral
      have hpow : 10 ^ 5 ≤ 10 ^ (digits.length - 1) :=
        Nat.pow_le_pow_right (Nat.succ_pos 9) (by omega)
      omega

theorem matches_portRegex_iff {portPart : List Char} :
    Regex.Matches portRegex portPart ↔
      ∃ port, IsPort port ∧ portPart = ':' :: port := by
  change Regex.Matches (.seq (.literal ':') portNumber) portPart ↔ _
  rw [Regex.matches_seq_iff]
  simp only [Regex.matches_literal_iff, matches_portNumber, IsPort,
    Decimal.exists_toDigits_iff]
  constructor
  · rintro ⟨_, port, rfl, rfl, hport⟩
    exact ⟨port, hport, rfl⟩
  · rintro ⟨port, hport, rfl⟩
    exact ⟨[':'], port, rfl, rfl, hport⟩

/-! The numbers of IPv4 addresses. -/

theorem isChoices_ipv4Octet : Regex.IsChoices ipv4Octet
    [[(· == '2'), (· == '5'), isDigitUpTo '5'],
      [(· == '2'), isDigitUpTo '4', Char.isDigit],
      [isDigitUpTo '1', Char.isDigit, Char.isDigit],
      [isDigitUpTo '1', Char.isDigit], [Char.isDigit, Char.isDigit],
      [Char.isDigit]] :=
  ((Regex.isClasses_literals "25").seq
    (Regex.isClasses_one (isDigitUpTo '5'))).isChoices.alt
  (((Regex.isClasses_one (· == '2')).seq
    ((Regex.isClasses_one (isDigitUpTo '4')).seq
      (Regex.isClasses_one Char.isDigit))).isChoices.alt
  ((Regex.isClasses_one (isDigitUpTo '1')).isChoices.optional.seq
    ((Regex.isClasses_one Char.isDigit).isChoices.seq
      (Regex.isClasses_one Char.isDigit).isChoices.optional)))

theorem isShortNumeral_iff {text : List Char} : IsShortNumeral text ↔
    text ≠ [] ∧ text.length ≤ 3 ∧ ∀ c ∈ text, c.isDigit = true := by
  constructor
  · intro h
    exact ⟨h.nonempty, h.length_le, h.all⟩
  · intro h
    exact ⟨h.1, h.2.1, h.2.2⟩

theorem matches_ipv4Octet_iff {text : List Char} :
    Regex.Matches ipv4Octet text ↔
      IsShortNumeral text ∧ Decimal.value text ≤ 255 := by
  rw [isChoices_ipv4Octet text, isShortNumeral_iff]
  simp only [List.mem_cons, List.not_mem_nil, or_false, exists_eq_or_imp,
    exists_eq_left]
  match text with
  | [] => simp [Regex.fits]
  | [a] =>
      simp [Regex.fits, Decimal.isDigit_iff, value_cons]
      omega
  | [a, b] =>
      simp [Regex.fits, isDigitUpTo_iff, Decimal.isDigit_iff, value_cons]
      omega
  | [a, b, c] =>
      simp [Regex.fits, isDigitUpTo_iff, Decimal.isDigit_iff, value_cons]
      simp only [char_eq_iff, Char.reduceToNat]
      omega
  | a :: b :: c :: d :: rest => simp [Regex.fits]

/-! Labels. -/

theorem isAlphanum_of_ne {c : Char} (h : isLabelChar c = true)
    (hne : c ≠ '-') : c.isAlphanum = true := by
  rw [isLabelChar, Bool.or_eq_true, beq_iff_eq] at h
  exact h.resolve_right hne

theorem isLabelChar_of_isAlphanum {c : Char} (h : c.isAlphanum = true) :
    isLabelChar c = true := by
  rw [isLabelChar, h]
  rfl

theorem ne_of_isAlphanum {c d : Char} (h : c.isAlphanum = true)
    (hd : d.isAlphanum = false) : c ≠ d := by
  rintro rfl
  rw [h] at hd
  cases hd

theorem matches_dnsLabel_iff {label : List Char} :
    Regex.Matches dnsLabel label ↔ IsLabel label := by
  unfold dnsLabel
  simp only [Regex.matches_seq_iff, Regex.matches_one_iff,
    Regex.matches_optional_iff, Regex.matches_run_iff]
  constructor
  · rintro ⟨_, _, rfl, ⟨a, ha, rfl⟩, hrest⟩
    have hfirst := ne_of_isAlphanum ha (by decide : '-'.isAlphanum = false)
    rcases hrest with ⟨middle, _, rfl, ⟨hmiddle, _, hlength⟩, b, hb, rfl⟩ | rfl
    · have hlast := ne_of_isAlphanum hb (by decide : '-'.isAlphanum = false)
      have hbound := hlength 61 rfl
      refine ⟨List.cons_ne_nil _ _, ?_, ?_, ?_, ?_⟩
      · simp only [List.length_append, List.length_singleton]
        omega
      · intro c hc
        simp only [List.mem_append, List.mem_singleton] at hc
        rcases hc with rfl | hc | rfl
        · exact isLabelChar_of_isAlphanum ha
        · exact hmiddle c hc
        · exact isLabelChar_of_isAlphanum hb
      · simpa using hfirst
      · rw [← List.append_assoc, List.getLast?_concat]
        simpa using hlast
    · refine ⟨List.cons_ne_nil _ _, by simp, ?_, ?_, ?_⟩
      · simpa using isLabelChar_of_isAlphanum ha
      · simpa using hfirst
      · simpa using hfirst
  · intro h
    cases label with
    | nil => exact absurd rfl h.nonempty
    | cons a rest =>
        have ha : a.isAlphanum = true := by
          apply isAlphanum_of_ne (h.all a List.mem_cons_self)
          simpa using h.first
        refine ⟨[a], rest, rfl, ⟨a, ha, rfl⟩, ?_⟩
        by_cases hrest : rest = []
        · exact .inr hrest
        · obtain ⟨middle, b, rfl⟩ : ∃ init last, rest = init ++ [last] :=
            ⟨_, _, (List.dropLast_append_getLast hrest).symm⟩
          have hlast := h.last
          rw [← List.cons_append, List.getLast?_concat] at hlast
          have hb : b.isAlphanum = true := by
            apply isAlphanum_of_ne (h.all b (by simp))
            simpa using hlast
          refine .inl ⟨middle, [b], rfl, ⟨?_, Nat.zero_le _, ?_⟩, b, hb, rfl⟩
          · intro c hc
            exact h.all c (by simp [hc])
          · intro bound hbound
            cases hbound
            have hlength := h.length_le
            simp only [List.length_cons, List.length_append,
              List.length_nil] at hlength
            omega

/-! Hosts. -/

theorem dot_not_mem {label : List Char} (h : IsLabel label) :
    '.' ∉ label := by
  intro hdot
  exact absurd (h.all '.' hdot) (by decide)

theorem isLabel_of_isShortNumeral {label : List Char}
    (h : IsShortNumeral label) : IsLabel label := by
  have hall : ∀ c ∈ label, c.isAlphanum = true := by
    intro c hc
    rw [Char.isAlphanum, h.all c hc, Bool.or_true]
  have hne : ∀ c ∈ label, c ≠ '-' := by
    intro c hc
    exact ne_of_isAlphanum (hall c hc) (by decide)
  refine ⟨h.nonempty, Nat.le_trans h.length_le (by decide), ?_, ?_, ?_⟩
  · intro c hc
    exact isLabelChar_of_isAlphanum (hall c hc)
  · intro hfirst
    exact hne '-' (List.mem_of_head? hfirst) rfl
  · intro hlast
    exact hne '-' (List.mem_of_getLast? hlast) rfl

theorem splitOn_labels {labels : List (List Char)} (nonempty : labels ≠ [])
    (all : ∀ label ∈ labels, IsLabel label) :
    (['.'].intercalate labels).splitOn '.' = labels :=
  List.splitOn_intercalate '.'
    (fun label hlabel => dot_not_mem (all label hlabel)) nonempty

theorem labels_inj {labels others : List (List Char)}
    (nonempty : labels ≠ []) (all : ∀ label ∈ labels, IsLabel label)
    (otherNonempty : others ≠ []) (otherAll : ∀ label ∈ others, IsLabel label)
    (h : ['.'].intercalate labels = ['.'].intercalate others) :
    labels = others := by
  rw [← splitOn_labels nonempty all, h, splitOn_labels otherNonempty otherAll]

theorem no_empty_label {labels : List (List Char)} (nonempty : labels ≠ [])
    (all : ∀ label ∈ labels, IsLabel label) :
    ¬ "..".toList <:+: ['.'].intercalate labels := by
  rintro ⟨before, after, h⟩
  have hsplit := splitOn_labels nonempty all
  have hdots : before ++ "..".toList ++ after =
      before ++ '.' :: ([] ++ '.' :: after) := by
    simp
  rw [← h, hdots, List.splitOn_append_cons_self,
    List.splitOn_append_cons_self_of_not_mem List.not_mem_nil] at hsplit
  exact (all [] (by rw [← hsplit]; simp)).nonempty rfl

theorem head?_labels {labels : List (List Char)} (nonempty : labels ≠ [])
    (all : ∀ label ∈ labels, IsLabel label) :
    (['.'].intercalate labels).head? ≠ some '-' := by
  cases labels with
  | nil => exact absurd rfl nonempty
  | cons first rest =>
      have hfirst := all first List.mem_cons_self
      obtain ⟨c, others, hcons⟩ := List.exists_cons_of_ne_nil hfirst.nonempty
      have hhead := hfirst.first
      cases rest with
      | nil =>
          rw [List.intercalate_singleton]
          exact hhead
      | cons second rest =>
          rw [List.intercalate_cons_cons, hcons]
          rw [hcons] at hhead
          exact hhead

theorem getLast?_labels {labels : List (List Char)} (nonempty : labels ≠ [])
    (all : ∀ label ∈ labels, IsLabel label) :
    (['.'].intercalate labels).getLast? ≠ some '-' := by
  obtain ⟨init, last, rfl⟩ : ∃ init last, labels = init ++ [last] :=
    ⟨_, _, (List.dropLast_append_getLast nonempty).symm⟩
  have hlast := all last (by simp)
  rw [← Regex.flatten_append_last,
    List.getLast?_append_of_ne_nil _ hlast.nonempty]
  exact hlast.last

theorem isDnsName_iff {hostname : List Char} : isDnsName hostname = true ↔
    ∃ labels, labels ≠ [] ∧ (∀ label ∈ labels, IsLabel label) ∧
      hostname = ['.'].intercalate labels := by
  have hregex : dnsNameRegex.acceptsList hostname = true ↔
      ∃ labels, labels ≠ [] ∧ (∀ label ∈ labels, IsLabel label) ∧
        hostname = ['.'].intercalate labels := by
    rw [Regex.acceptsList_iff, dnsNameRegex, Regex.matches_star_separated_iff]
    simp only [matches_dnsLabel_iff]
  rw [isDnsName, Bool.and_eq_true, hregex]
  constructor
  · intro h
    exact h.2
  · rintro ⟨labels, hnonempty, hall, rfl⟩
    refine ⟨?_, labels, hnonempty, hall, rfl⟩
    simp only [Bool.and_eq_true, Bool.not_eq_true', decide_eq_false_iff_not,
      beq_eq_false_iff_ne]
    exact ⟨⟨no_empty_label hnonempty hall, getLast?_labels hnonempty hall⟩,
      head?_labels hnonempty hall⟩

theorem matches_digits_iff {text : List Char} :
    Regex.Matches (.run Char.isDigit 1 (some 3)) text ↔
      IsShortNumeral text := by
  rw [Regex.matches_run_iff, isShortNumeral_iff]
  constructor
  · rintro ⟨hall, hleast, hmost⟩
    exact ⟨List.ne_nil_of_length_pos hleast, hmost 3 rfl, hall⟩
  · rintro ⟨hnonempty, hlength, hall⟩
    refine ⟨hall, List.length_pos_of_ne_nil hnonempty, ?_⟩
    intro bound hbound
    cases hbound
    exact hlength

theorem looksLikeIPv4_iff {hostname : List Char} :
    looksLikeIPv4.acceptsList hostname = true ↔
      ∃ labels, labels.length = 4 ∧
        (∀ label ∈ labels, IsShortNumeral label) ∧
        hostname = ['.'].intercalate labels := by
  rw [Regex.acceptsList_iff, looksLikeIPv4,
    Regex.matches_exactly_separated_iff]
  simp only [matches_digits_iff]

theorem ipv4Regex_iff {hostname : List Char} :
    ipv4Regex.acceptsList hostname = true ↔
      ∃ labels, labels.length = 4 ∧
        (∀ label ∈ labels, IsShortNumeral label ∧
          Decimal.value label ≤ 255) ∧
        hostname = ['.'].intercalate labels := by
  rw [Regex.acceptsList_iff, ipv4Regex, Regex.matches_exactly_separated_iff]
  simp only [matches_ipv4Octet_iff]

/-- What is asked of the part before the port. -/
def isHostname (hostname : List Char) : Bool :=
  if looksLikeIPv4.acceptsList hostname then ipv4Regex.acceptsList hostname
  else isDnsName hostname

theorem isHostname_iff {hostname : List Char} :
    isHostname hostname = true ↔ IsHost hostname := by
  unfold isHostname IsHost
  split
  · rename_i hlooks
    obtain ⟨labels, hlength, hall, rfl⟩ := looksLikeIPv4_iff.mp hlooks
    have hnonempty : labels ≠ [] := by
      rintro rfl
      cases hlength
    have hlabels : ∀ label ∈ labels, IsLabel label :=
      fun label hlabel => isLabel_of_isShortNumeral (hall label hlabel)
    rw [ipv4Regex_iff]
    constructor
    · rintro ⟨others, hfour, hothers, hsame⟩
      refine ⟨others, List.ne_nil_of_length_pos (by omega), ?_, hsame, ?_⟩
      · intro label hlabel
        exact isLabel_of_isShortNumeral (hothers label hlabel).1
      · intro _ _ label hlabel
        exact (hothers label hlabel).2
    · rintro ⟨others, hothers, hlabel, hsame, hfour⟩
      obtain rfl := labels_inj hnonempty hlabels hothers hlabel hsame
      have hvalues := hfour hlength hall
      exact ⟨labels, hlength,
        fun label hmem => ⟨hall label hmem, hvalues label hmem⟩, rfl⟩
  · rename_i hlooks
    rw [isDnsName_iff]
    constructor
    · rintro ⟨labels, hnonempty, hall, rfl⟩
      refine ⟨labels, hnonempty, hall, rfl, ?_⟩
      intro hlength hshort
      exact absurd (looksLikeIPv4_iff.mpr ⟨labels, hlength, hshort, rfl⟩) hlooks
    · rintro ⟨labels, hnonempty, hall, hsame, _⟩
      exact ⟨labels, hnonempty, hall, hsame⟩

/-! Names with and without a port. -/

theorem isValidPort_iff {portPart : List Char} : isValidPort portPart = true ↔
    portPart = [] ∨ ∃ port, IsPort port ∧ portPart = ':' :: port := by
  rw [isValidPort, Bool.or_eq_true, List.isEmpty_iff, Regex.acceptsList_iff,
    matches_portRegex_iff]

theorem mem_host {c : Char} {host : List Char} (h : IsHost host)
    (hc : c ∈ host) : isLabelChar c = true ∨ c = '.' := by
  obtain ⟨labels, _, hall, rfl, _⟩ := h
  rcases mem_intercalate hc with hdot | ⟨label, hlabel, hmem⟩
  · exact .inr hdot
  · exact .inl ((hall label hlabel).all c hmem)

theorem colon_not_mem_host {host : List Char} (h : IsHost host) :
    ':' ∉ host := by
  intro hcolon
  exact absurd (mem_host h hcolon) (by decide)

theorem host_ne_nil {host : List Char} (h : IsHost host) : host ≠ [] := by
  obtain ⟨labels, hnonempty, hall, rfl, _⟩ := h
  obtain ⟨first, rest, rfl⟩ := List.exists_cons_of_ne_nil hnonempty
  have hfirst := (hall first List.mem_cons_self).nonempty
  cases rest with
  | nil =>
      rw [List.intercalate_singleton]
      exact hfirst
  | cons second rest =>
      rw [List.intercalate_cons_cons]
      simp

theorem colon_not_mem_port {port : List Char} (h : IsPort port) :
    ':' ∉ port := by
  obtain ⟨n, _, _, rfl⟩ := h
  intro hcolon
  exact absurd (Nat.isDigit_of_mem_toDigits (by decide) (by decide) hcolon)
    (by decide)

theorem splitPort_of_not_mem {name : List Char} (h : ':' ∉ name) :
    splitPort name = (name, []) := by
  unfold splitPort
  dsimp only
  rw [if_neg fun hname => h hname.1]

theorem splitPort_joined {host port : List Char} (h : ':' ∉ port) :
    splitPort (host ++ ':' :: port) =
      if host = [] then (':' :: port, []) else (host, ':' :: port) := by
  have hport : ∀ c ∈ port.reverse, (c != ':') = true := by
    intro c hc
    rw [bne_iff_ne]
    rintro rfl
    exact h (List.mem_reverse.mp hc)
  have htake : (((host ++ ':' :: port).reverse.takeWhile (· != ':')).reverse) =
      port := by
    rw [List.reverse_append, List.reverse_cons, List.append_assoc,
      List.takeWhile_append_of_pos hport]
    simp
  have hindex : (host ++ ':' :: port).length - port.length - 1 =
      host.length := by
    simp only [List.length_append, List.length_cons]
    omega
  unfold splitPort
  dsimp only
  rw [htake, hindex]
  cases host with
  | nil => simp
  | cons c rest => simp

theorem isServerName_of_split {name : List Char}
    (host : IsHost (splitPort name).1)
    (port : (splitPort name).2 = [] ∨
      ∃ port, IsPort port ∧ (splitPort name).2 = ':' :: port) :
    IsServerName name := by
  have hname := splitPort_append name
  rcases port with hnone | ⟨port, hport, hsome⟩
  · rw [hnone, List.append_nil] at hname
    rw [hname] at host
    exact .inl host
  · rw [hsome] at hname
    exact .inr ⟨_, port, host, hport, hname.symm⟩

theorem splitPort_of_isServerName {name : List Char} (h : IsServerName name) :
    IsHost (splitPort name).1 ∧ ((splitPort name).2 = [] ∨
      ∃ port, IsPort port ∧ (splitPort name).2 = ':' :: port) := by
  rcases h with hhost | ⟨host, port, hhost, hport, rfl⟩
  · rw [splitPort_of_not_mem (colon_not_mem_host hhost)]
    exact ⟨hhost, .inl rfl⟩
  · rw [splitPort_joined (colon_not_mem_port hport),
      if_neg (host_ne_nil hhost)]
    exact ⟨hhost, .inr ⟨port, hport, rfl⟩⟩

/-- A name that starts with no bracket is valid just when it is a host, or a
host and a port. -/
theorem isValidServerName_iff_isServerName {serverName : String}
    (unbracketed : serverName.toList.head? ≠ some '[') :
    isValidServerName serverName = true ↔
      IsServerName serverName.toList := by
  have hnames : isValidServerName serverName = true ↔
      serverName.toList ≠ [] ∧
        isHostname (splitPort serverName.toList).1 = true ∧
        isValidPort (splitPort serverName.toList).2 = true := by
    unfold isValidServerName isHostname
    dsimp only
    rw [if_neg unbracketed]
    cases serverName.toList with
    | nil => simp
    | cons c rest => simp
  rw [hnames, isHostname_iff, isValidPort_iff]
  constructor
  · rintro ⟨_, hhost, hport⟩
    exact isServerName_of_split hhost hport
  · intro h
    obtain ⟨hhost, hport⟩ := splitPort_of_isServerName h
    refine ⟨?_, hhost, hport⟩
    rintro hnil
    rw [hnil] at h
    rcases h with hempty | ⟨host, port, _, _, hjoined⟩
    · exact host_ne_nil hempty rfl
    · simp at hjoined

theorem isServerName_ports_and_addresses :
    IsServerName "example.com:8448".toList ∧
      ¬ IsServerName "1.2.3.256".toList :=
  ⟨(isValidServerName_iff_isServerName (by decide)).mp (by decide),
    fun h => absurd ((isValidServerName_iff_isServerName (by decide)).mpr h)
      (by decide)⟩

end TwakeKickstart.Utils
