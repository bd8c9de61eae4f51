import TwakeKickstart.Library.Ipv6Text
import TwakeKickstart.Utils.ServerName

namespace TwakeKickstart.Utils

open Library Ipv6Text

/-! The names that are an address in brackets. -/

/-- What the expression asks for between the brackets. -/
def ipv6Inner : Regex :=
  .anyOf
    [.seq (.exactly 7 hextetColon) hextet,
      .seq (.between 1 7 hextetColon) (.literal ':'),
      .seq (.between 1 6 hextetColon) colonHextet,
      .seq (.between 1 5 hextetColon) (.between 1 2 colonHextet),
      .seq (.between 1 4 hextetColon) (.between 1 3 colonHextet),
      .seq (.between 1 3 hextetColon) (.between 1 4 colonHextet),
      .seq (.between 1 2 hextetColon) (.between 1 5 colonHextet),
      .seq hextetColon (.between 1 6 colonHextet),
      .seq (.literal ':') (.alt (.between 1 7 colonHextet) (.literal ':')),
      .sequence [.literals "::",
        .optional (.sequence [.literals "ffff",
          .optional (.seq (.literal ':') (.run (· == '0') 1 (some 4))),
          .literal ':']),
        .exactly 3 (.seq mappedOctet (.literal '.')), mappedOctet]]

theorem matches_ipv6Regex_iff {text : List Char} :
    Regex.Matches ipv6Regex ('[' :: (text ++ [']'])) ↔
      Regex.Matches ipv6Inner text := by
  change Regex.Matches (.seq (.literal '[') (.seq ipv6Inner (.literal ']'))) _ ↔ _
  simp only [Regex.matches_seq_iff, Regex.matches_literal_iff]
  constructor
  · rintro ⟨_, _, h, rfl, inner, _, rfl, hinner, rfl⟩
    rw [List.singleton_append, List.cons.injEq] at h
    rw [List.append_cancel_right h.2]
    exact hinner
  · intro h
    exact ⟨['['], _, rfl, rfl, text, [']'], rfl, h, rfl⟩

/-! Groups with their colons. -/

theorem matches_hextet_iff {text : List Char} :
    Regex.Matches hextet text ↔ IsGroup text := by
  rw [hextet, Regex.matches_run_iff]
  constructor
  · rintro ⟨hall, hleast, hmost⟩
    exact ⟨List.ne_nil_of_length_pos hleast, hmost 4 rfl, hall⟩
  · intro h
    refine ⟨h.all, List.length_pos_of_ne_nil h.nonempty, ?_⟩
    intro bound hbound
    cases hbound
    exact h.length_le

/-- Groups with a colon behind each of them. -/
def Before (count : Nat) (text : List Char) : Prop :=
  ∃ groups : List (List Char), groups.length = count ∧
    (∀ group ∈ groups, IsGroup group) ∧ text = ended groups

/-- Groups with a colon before each of them. -/
def After (count : Nat) (text : List Char) : Prop :=
  ∃ groups : List (List Char), groups.length = count ∧
    (∀ group ∈ groups, IsGroup group) ∧
    text = (groups.map (':' :: ·)).flatten

theorem cut_hextetColon_iff {count : Nat} {text : List Char} :
    (∃ parts, parts.length = count ∧ Regex.Cut hextetColon parts text) ↔
      Before count text := by
  unfold hextetColon Before
  simp only [Regex.cut_separator_iff, matches_hextet_iff]
  constructor
  · rintro ⟨_, rfl, groups, hall, rfl, rfl⟩
    exact ⟨groups, by simp, hall, rfl⟩
  · rintro ⟨groups, rfl, hall, rfl⟩
    exact ⟨groups.map (· ++ [':']), by simp, groups, hall, rfl, rfl⟩

theorem cut_colonHextet_iff {count : Nat} {text : List Char} :
    (∃ parts, parts.length = count ∧ Regex.Cut colonHextet parts text) ↔
      After count text := by
  unfold colonHextet After
  simp only [Regex.cut_leading_iff, matches_hextet_iff]
  constructor
  · rintro ⟨_, rfl, groups, hall, rfl, rfl⟩
    exact ⟨groups, by simp, hall, rfl⟩
  · rintro ⟨groups, rfl, hall, rfl⟩
    exact ⟨groups.map (':' :: ·), by simp, groups, hall, rfl, rfl⟩

theorem between_iff {body : Regex} {least most : Nat} {text : List Char}
    {counted : Nat → List Char → Prop} (ordered : least ≤ most)
    (h : ∀ count, (∃ parts, parts.length = count ∧
      Regex.Cut body parts text) ↔ counted count text) :
    Regex.Matches (.between least most body) text ↔
      ∃ count, least ≤ count ∧ count ≤ most ∧ counted count text := by
  rw [Regex.matches_between_iff ordered]
  simp only [← h]
  constructor
  · rintro ⟨parts, hleast, hmost, hcut⟩
    exact ⟨parts.length, hleast, hmost, parts, rfl, hcut⟩
  · rintro ⟨_, hleast, hmost, parts, rfl, hcut⟩
    exact ⟨parts, hleast, hmost, hcut⟩

theorem matches_between_one_iff {body : Regex} {text : List Char} :
    Regex.Matches (.between 1 1 body) text ↔ Regex.Matches body text := by
  change Regex.Matches (.seq body .epsilon) text ↔ _
  rw [Regex.matches_seq_iff]
  simp only [Regex.matches_epsilon_iff]
  constructor
  · rintro ⟨head, _, rfl, hhead, rfl⟩
    rw [List.append_nil]
    exact hhead
  · intro h
    exact ⟨text, [], (List.append_nil text).symm, h, rfl⟩

/-! Addresses without a dotted part. -/

def Compressed (before after : Nat) (text : List Char) : Prop :=
  ∃ left right, left.length = before ∧ right.length = after ∧
    (∀ group ∈ left, IsGroup group) ∧ (∀ group ∈ right, IsGroup group) ∧
    text = joined left ++ ':' :: ':' :: joined right

theorem ended_eq {groups : List (List Char)} (nonempty : groups ≠ []) :
    ended groups = joined groups ++ [':'] := by
  induction groups with
  | nil => exact absurd rfl nonempty
  | cons first rest ih =>
      cases rest with
      | nil => simp [ended, joined]
      | cons second rest =>
          have hrest := ih (List.cons_ne_nil _ _)
          unfold ended joined at hrest ⊢
          rw [List.map_cons, List.flatten_cons, hrest,
            List.intercalate_cons_cons]
          simp

theorem compressed_iff {before after : Nat} {text : List Char}
    (hbefore : 1 ≤ before) (hafter : 1 ≤ after) :
    Compressed before after text ↔
      ∃ head tail, text = head ++ tail ∧ Before before head ∧
        After after tail := by
  constructor
  · rintro ⟨left, right, rfl, rfl, hleft, hright, rfl⟩
    refine ⟨_, _, ?_, ⟨left, rfl, hleft, rfl⟩, right, rfl, hright, rfl⟩
    rw [ended_eq (List.ne_nil_of_length_pos hbefore),
      Regex.flatten_leading (List.ne_nil_of_length_pos hafter),
      List.append_assoc]
    rfl
  · rintro ⟨_, _, rfl, ⟨left, rfl, hleft, rfl⟩, right, rfl, hright, rfl⟩
    refine ⟨left, right, rfl, rfl, hleft, hright, ?_⟩
    rw [ended_eq (List.ne_nil_of_length_pos hbefore),
      Regex.flatten_leading (List.ne_nil_of_length_pos hafter),
      List.append_assoc]
    rfl

theorem compressed_end_iff {before : Nat} {text : List Char}
    (hbefore : 1 ≤ before) :
    Compressed before 0 text ↔
      ∃ head, text = head ++ [':'] ∧ Before before head := by
  constructor
  · rintro ⟨left, right, rfl, hzero, hleft, _, rfl⟩
    obtain rfl := List.eq_nil_of_length_eq_zero hzero
    refine ⟨_, ?_, left, rfl, hleft, rfl⟩
    rw [ended_eq (List.ne_nil_of_length_pos hbefore), List.append_assoc]
    rfl
  · rintro ⟨_, rfl, left, rfl, hleft, rfl⟩
    refine ⟨left, [], rfl, rfl, hleft, List.forall_mem_nil _, ?_⟩
    rw [ended_eq (List.ne_nil_of_length_pos hbefore), List.append_assoc]
    rfl

theorem compressed_start_iff {after : Nat} {text : List Char}
    (hafter : 1 ≤ after) :
    Compressed 0 after text ↔
      ∃ tail, text = ':' :: tail ∧ After after tail := by
  constructor
  · rintro ⟨left, right, hzero, rfl, _, hright, rfl⟩
    obtain rfl := List.eq_nil_of_length_eq_zero hzero
    refine ⟨_, ?_, right, rfl, hright, rfl⟩
    rw [Regex.flatten_leading (List.ne_nil_of_length_pos hafter)]
    rfl
  · rintro ⟨_, rfl, right, rfl, hright, rfl⟩
    refine ⟨[], right, rfl, rfl, List.forall_mem_nil _, hright, ?_⟩
    rw [Regex.flatten_leading (List.ne_nil_of_length_pos hafter)]
    rfl

theorem compressed_zero_iff {text : List Char} :
    Compressed 0 0 text ↔ text = [':', ':'] := by
  constructor
  · rintro ⟨left, right, hleft, hright, _, _, rfl⟩
    rw [List.eq_nil_of_length_eq_zero hleft,
      List.eq_nil_of_length_eq_zero hright]
    rfl
  · rintro rfl
    exact ⟨[], [], rfl, rfl, List.forall_mem_nil _, List.forall_mem_nil _, rfl⟩

theorem isPlain_iff {text : List Char} : IsPlain text ↔
    Regex.Matches (.seq (.exactly 7 hextetColon) hextet) text ∨
      ∃ before after, before + after ≤ 7 ∧ Compressed before after text := by
  unfold hextetColon
  rw [Regex.matches_exactly_separated_iff]
  simp only [matches_hextet_iff]
  constructor
  · rintro (hfull | ⟨left, right, hleft, hright, hshort, htext⟩)
    · exact .inl hfull
    · exact .inr ⟨_, _, hshort, left, right, rfl, rfl, hleft, hright, htext⟩
  · rintro (hfull | ⟨_, _, hshort, left, right, rfl, rfl, hleft, hright, htext⟩)
    · exact .inl hfull
    · exact .inr ⟨left, right, hleft, hright, hshort, htext⟩

theorem both_iff {leasts mosts : Nat} {text : List Char}
    (hleasts : 1 ≤ leasts) (hmosts : 1 ≤ mosts) :
    Regex.Matches (.seq (.between 1 leasts hextetColon)
        (.between 1 mosts colonHextet)) text ↔
      ∃ before after, 1 ≤ before ∧ before ≤ leasts ∧ 1 ≤ after ∧
        after ≤ mosts ∧ Compressed before after text := by
  rw [Regex.matches_seq_iff]
  simp only [between_iff hleasts fun count => cut_hextetColon_iff,
    between_iff hmosts fun count => cut_colonHextet_iff]
  constructor
  · rintro ⟨head, tail, htext, ⟨before, hleast, hmost, hhead⟩, after,
      hafter, hlast, htail⟩
    exact ⟨before, after, hleast, hmost, hafter, hlast,
      (compressed_iff hleast hafter).mpr ⟨head, tail, htext, hhead, htail⟩⟩
  · rintro ⟨before, after, hleast, hmost, hafter, hlast, h⟩
    obtain ⟨head, tail, htext, hhead, htail⟩ :=
      (compressed_iff hleast hafter).mp h
    exact ⟨head, tail, htext, ⟨before, hleast, hmost, hhead⟩, after, hafter,
      hlast, htail⟩

theorem left_single_iff {mosts : Nat} {text : List Char} :
    Regex.Matches (.seq hextetColon (.between 1 mosts colonHextet)) text ↔
      Regex.Matches (.seq (.between 1 1 hextetColon)
        (.between 1 mosts colonHextet)) text := by
  simp only [Regex.matches_seq_iff, matches_between_one_iff]

theorem right_single_iff {leasts : Nat} {text : List Char} :
    Regex.Matches (.seq (.between 1 leasts hextetColon) colonHextet) text ↔
      Regex.Matches (.seq (.between 1 leasts hextetColon)
        (.between 1 1 colonHextet)) text := by
  simp only [Regex.matches_seq_iff, matches_between_one_iff]

theorem left_only_iff {text : List Char} :
    Regex.Matches (.seq (.between 1 7 hextetColon) (.literal ':')) text ↔
      ∃ before, 1 ≤ before ∧ before ≤ 7 ∧ Compressed before 0 text := by
  rw [Regex.matches_seq_iff]
  simp only [between_iff (by decide : 1 ≤ 7) fun count => cut_hextetColon_iff,
    Regex.matches_literal_iff]
  constructor
  · rintro ⟨head, _, rfl, ⟨before, hleast, hmost, hhead⟩, rfl⟩
    exact ⟨before, hleast, hmost,
      (compressed_end_iff hleast).mpr ⟨head, rfl, hhead⟩⟩
  · rintro ⟨before, hleast, hmost, h⟩
    obtain ⟨head, rfl, hhead⟩ := (compressed_end_iff hleast).mp h
    exact ⟨head, [':'], rfl, ⟨before, hleast, hmost, hhead⟩, rfl⟩

theorem right_only_iff {text : List Char} :
    Regex.Matches (.seq (.literal ':')
        (.alt (.between 1 7 colonHextet) (.literal ':'))) text ↔
      ∃ after, after ≤ 7 ∧ Compressed 0 after text := by
  rw [Regex.matches_seq_iff]
  simp only [Regex.matches_alt_iff,
    between_iff (by decide : 1 ≤ 7) fun count => cut_colonHextet_iff,
    Regex.matches_literal_iff]
  constructor
  · rintro ⟨_, tail, rfl, rfl, ⟨after, hleast, hmost, htail⟩ | rfl⟩
    · exact ⟨after, hmost,
        (compressed_start_iff hleast).mpr ⟨tail, rfl, htail⟩⟩
    · exact ⟨0, by decide, compressed_zero_iff.mpr rfl⟩
  · rintro ⟨after, hmost, h⟩
    rcases Nat.eq_zero_or_pos after with rfl | hleast
    · exact ⟨[':'], [':'], compressed_zero_iff.mp h, rfl, .inr rfl⟩
    · obtain ⟨tail, rfl, htail⟩ := (compressed_start_iff hleast).mp h
      exact ⟨[':'], tail, rfl, rfl, .inl ⟨after, hleast, hmost, htail⟩⟩

/-- The last alternative, of the addresses with a dotted part. -/
def mappedAddress : Regex :=
  .sequence [.literals "::",
    .optional (.sequence [.literals "ffff",
      .optional (.seq (.literal ':') (.run (· == '0') 1 (some 4))),
      .literal ':']),
    .exactly 3 (.seq mappedOctet (.literal '.')), mappedOctet]

theorem matches_ipv6Inner_iff {text : List Char} :
    Regex.Matches ipv6Inner text ↔
      IsPlain text ∨ Regex.Matches mappedAddress text := by
  rw [isPlain_iff, ipv6Inner, Regex.matches_anyOf_iff]
  simp only [List.mem_cons, List.not_mem_nil, or_false, exists_eq_or_imp,
    exists_eq_left]
  rw [left_single_iff, right_single_iff, left_only_iff, right_only_iff,
    both_iff (by decide) (by decide), both_iff (by decide) (by decide),
    both_iff (by decide) (by decide), both_iff (by decide) (by decide),
    both_iff (by decide) (by decide), both_iff (by decide) (by decide)]
  constructor
  · rintro (h | ⟨before, _, hmost, h⟩ | h | h | h | h | h | h |
      ⟨after, hmost, h⟩ | h)
    · exact .inl (.inl h)
    · exact .inl (.inr ⟨before, 0, hmost, h⟩)
    iterate 6
      obtain ⟨before, after, _, hbefore, _, hafter, h⟩ := h
      exact .inl (.inr ⟨before, after, by omega, h⟩)
    · exact .inl (.inr ⟨0, after, by omega, h⟩)
    · exact .inr h
  · rintro ((h | ⟨before, after, hshort, h⟩) | h)
    · exact .inl h
    · rcases Nat.eq_zero_or_pos before with rfl | hbefore
      · exact .inr (.inr (.inr (.inr (.inr (.inr (.inr (.inr (.inl
          ⟨after, by omega, h⟩))))))))
      · -- the alternatives go by the number of groups behind the double colon
        match after, hshort, h with
        | 0, hshort, h => exact .inr (.inl ⟨before, hbefore, hshort, h⟩)
        | 1, hshort, h =>
            exact .inr (.inr (.inl
              ⟨before, 1, hbefore, by omega, by decide, by decide, h⟩))
        | 2, hshort, h =>
            exact .inr (.inr (.inr (.inl
              ⟨before, 2, hbefore, by omega, by decide, by decide, h⟩)))
        | 3, hshort, h =>
            exact .inr (.inr (.inr (.inr (.inl
              ⟨before, 3, hbefore, by omega, by decide, by decide, h⟩))))
        | 4, hshort, h =>
            exact .inr (.inr (.inr (.inr (.inr (.inl
              ⟨before, 4, hbefore, by omega, by decide, by decide, h⟩)))))
        | 5, hshort, h =>
            exact .inr (.inr (.inr (.inr (.inr (.inr (.inl
              ⟨before, 5, hbefore, by omega, by decide, by decide, h⟩))))))
        | 6, hshort, h =>
            exact .inr (.inr (.inr (.inr (.inr (.inr (.inr (.inl
              ⟨before, 6, hbefore, by omega, by decide, by decide,
                h⟩)))))))
        | after + 7, hshort, h => omega
    · exact .inr (.inr (.inr (.inr (.inr (.inr (.inr (.inr (.inr h))))))))

/-! Addresses with a dotted part. -/

/-- A number up to 255 as it is written. -/
def IsNumber (text : List Char) : Prop :=
  ∃ n ≤ 255, text = Nat.toDigits 10 n

/-- A digit behind a zero. -/
def IsPadded (text : List Char) : Prop :=
  ∃ c : Char, c.isDigit = true ∧ text = ['0', c]

theorem isNumber_iff {text : List Char} : IsNumber text ↔
    text = ['0'] ∨ Decimal.Numeral text ∧ Decimal.value text ≤ 255 := by
  rw [← Decimal.exists_toDigits_iff]
  constructor
  · rintro ⟨n, hn, rfl⟩
    rcases Nat.eq_zero_or_pos n with rfl | hpositive
    · exact .inl rfl
    · exact .inr ⟨n, hpositive, hn, rfl⟩
  · rintro (rfl | ⟨n, _, hn, rfl⟩)
    · exact ⟨0, by decide, rfl⟩
    · exact ⟨n, hn, rfl⟩

theorem isChoices_mappedOctet : Regex.IsChoices mappedOctet
    [[(· == '2'), (· == '5'), isDigitUpTo '5'],
      [(· == '2'), isDigitUpTo '4', Char.isDigit],
      [(· == '1'), Char.isDigit, Char.isDigit],
      [Char.isDigit, Char.isDigit], [Char.isDigit]] :=
  ((Regex.isClasses_literals "25").seq
    (Regex.isClasses_one (isDigitUpTo '5'))).isChoices.alt
  ((((Regex.isClasses_one (· == '2')).seq
      (Regex.isClasses_one (isDigitUpTo '4'))).isChoices.alt
    ((Regex.isClasses_one (· == '1')).isChoices.optional.seq
      (Regex.isClasses_one Char.isDigit).isChoices)).optional.seq
    (Regex.isClasses_one Char.isDigit).isChoices)

theorem matches_mappedOctet_iff {text : List Char} :
    Regex.Matches mappedOctet text ↔ IsNumber text ∨ IsPadded text := by
  rw [isChoices_mappedOctet text, isNumber_iff, IsPadded]
  simp only [List.mem_cons, List.not_mem_nil, or_false, exists_eq_or_imp,
    exists_eq_left]
  match text with
  | [] =>
      have hnil : ¬ Decimal.Numeral [] := fun h => h.nonempty rfl
      simp [Regex.fits, hnil]
  | [a] =>
      simp [Regex.fits, numeral_cons_iff, Decimal.isDigit_iff, value_cons]
      simp only [char_eq_iff, Char.reduceToNat]
      omega
  | [a, b] =>
      simp [Regex.fits, numeral_cons_iff, Decimal.isDigit_iff, value_cons]
      simp only [char_eq_iff, Char.reduceToNat]
      omega
  | [a, b, c] =>
      simp [Regex.fits, numeral_cons_iff, isDigitUpTo_iff,
        Decimal.isDigit_iff, value_cons]
      simp only [char_eq_iff, Char.reduceToNat]
      omega
  | a :: b :: c :: d :: rest =>
      have hlarge : ¬ (Decimal.Numeral (a :: b :: c :: d :: rest) ∧
          Decimal.value (a :: b :: c :: d :: rest) ≤ 255) := by
        rintro ⟨numeral, hvalue⟩
        have hpow : 10 ^ 3 ≤ 10 ^ ((a :: b :: c :: d :: rest).length - 1) :=
          Nat.pow_le_pow_right (Nat.succ_pos 9) (by simp)
        have hbound := pow_le_value numeral
        omega
      simp [Regex.fits, hlarge]

theorem isDotted_iff {quad : List Char} : IsDotted quad ↔
    ∃ numbers, numbers.length = 4 ∧ (∀ number ∈ numbers, IsNumber number) ∧
      quad = ['.'].intercalate numbers := by
  constructor
  · rintro ⟨values, hlength, hvalues, rfl⟩
    refine ⟨_, by rw [List.length_map, hlength], ?_, rfl⟩
    intro number hnumber
    obtain ⟨n, hn, rfl⟩ := List.mem_map.mp hnumber
    exact ⟨n, hvalues n hn, rfl⟩
  · rintro ⟨numbers, hlength, hnumbers, rfl⟩
    refine ⟨numbers.map Decimal.value, by rw [List.length_map, hlength], ?_, ?_⟩
    · intro n hn
      obtain ⟨number, hnumber, rfl⟩ := List.mem_map.mp hn
      obtain ⟨n, hbound, rfl⟩ := hnumbers number hnumber
      rw [Decimal.value, Nat.ofDigitChars_ten_toDigits]
      exact hbound
    · have hmap : (numbers.map Decimal.value).map (Nat.toDigits 10) =
          numbers.map id := by
        rw [List.map_map]
        apply List.map_congr_left
        intro number hnumber
        obtain ⟨n, _, rfl⟩ := hnumbers number hnumber
        rw [Function.comp_apply, Decimal.value, Nat.ofDigitChars_ten_toDigits]
        rfl
      rw [hmap, List.map_id]

/-- The end of what may stand before a dotted part by the expression. -/
def mappedEnd : Regex :=
  .optional (.sequence [.literals "ffff",
    .optional (.seq (.literal ':') (.run (· == '0') 1 (some 4))),
    .literal ':'])

/-- `::`, `::ffff:`, or the latter with one group of zeros behind it. -/
inductive IsMappedUpper : List Char → Prop
  | compatible : IsMappedUpper "::".toList
  | mapped : IsMappedUpper "::ffff:".toList
  | translated {zeros : List Char} (nonempty : zeros ≠ [])
      (short : zeros.length ≤ 4) (all : ∀ c ∈ zeros, c = '0') :
      IsMappedUpper ("::ffff:".toList ++ zeros ++ [':'])

theorem matches_mappedEnd_iff {text : List Char} :
    Regex.Matches mappedEnd text ↔ IsMappedUpper ("::".toList ++ text) := by
  unfold mappedEnd
  simp only [Regex.matches_optional_iff, Regex.sequence, Regex.matches_seq_iff,
    Regex.matches_literals_iff, Regex.matches_literal_iff,
    Regex.matches_run_iff]
  constructor
  · rintro (⟨_, _, rfl, rfl, _, _, rfl,
        ⟨_, zeros, rfl, rfl, hall, hleast, hmost⟩ | rfl, rfl⟩ | rfl)
    · have hzeros : ∀ c ∈ zeros, c = '0' := by
        intro c hc
        exact beq_iff_eq.mp (hall c hc)
      have h := IsMappedUpper.translated (List.ne_nil_of_length_pos hleast)
        (hmost 4 rfl) hzeros
      simpa using h
    · exact .mapped
    · exact .compatible
  · intro h
    generalize hupper : "::".toList ++ text = upper at h
    cases h with
    | compatible =>
        exact .inr (List.append_cancel_left (hupper.trans
          (List.append_nil _).symm))
    | mapped =>
        have htext : text = "ffff".toList ++ ([] ++ [':']) :=
          List.append_cancel_left hupper
        exact .inl ⟨_, _, htext, rfl, [], [':'], rfl, .inr rfl, rfl⟩
    | @translated zeros nonempty short all =>
        have htext : text = "ffff".toList ++ ((':' :: zeros) ++ [':']) :=
          List.append_cancel_left hupper
        refine .inl ⟨_, _, htext, rfl, ':' :: zeros, [':'], rfl,
          .inl ⟨[':'], zeros, rfl, rfl, ?_,
            List.length_pos_of_ne_nil nonempty, ?_⟩, rfl⟩
        · intro c hc
          exact beq_iff_eq.mpr (all c hc)
        · intro bound hbound
          cases hbound
          exact short

theorem matches_mappedAddress_iff {text : List Char} :
    Regex.Matches mappedAddress text ↔
      ∃ upper numbers, IsMappedUpper upper ∧ numbers.length = 4 ∧
        (∀ number ∈ numbers, IsNumber number ∨ IsPadded number) ∧
        text = upper ++ ['.'].intercalate numbers := by
  change Regex.Matches (.seq (.literals "::") (.seq mappedEnd
    (.seq (.exactly 3 (.seq mappedOctet (.literal '.'))) mappedOctet))) text ↔
      _
  rw [Regex.matches_seq_iff]
  constructor
  · rintro ⟨_, _, rfl, hcolons, hrest⟩
    obtain ⟨zeros, quad, rfl, hend, hquad⟩ := Regex.matches_seq_iff.mp hrest
    obtain ⟨numbers, hlength, hnumbers, rfl⟩ :=
      Regex.matches_exactly_separated_iff.mp hquad
    rw [Regex.matches_literals_iff.mp hcolons, ← List.append_assoc]
    exact ⟨_, numbers, matches_mappedEnd_iff.mp hend, hlength,
      fun number hnumber => matches_mappedOctet_iff.mp
        (hnumbers number hnumber), rfl⟩
  · rintro ⟨upper, numbers, hupper, hlength, hnumbers, rfl⟩
    have hstart : ∃ rest, upper = "::".toList ++ rest := by
      cases hupper with
      | compatible => exact ⟨[], rfl⟩
      | mapped => exact ⟨"ffff:".toList, rfl⟩
      | @translated zeros _ _ _ => exact ⟨"ffff:".toList ++ zeros ++ [':'], rfl⟩
    obtain ⟨rest, rfl⟩ := hstart
    refine ⟨_, rest ++ ['.'].intercalate numbers, List.append_assoc _ _ _,
      Regex.matches_literals_iff.mpr rfl, Regex.matches_seq_iff.mpr
        ⟨rest, _, rfl, matches_mappedEnd_iff.mpr hupper, ?_⟩⟩
    exact Regex.matches_exactly_separated_iff.mpr ⟨numbers, hlength,
      fun number hnumber => matches_mappedOctet_iff.mpr
        (hnumbers number hnumber), rfl⟩

/-! The names with an address in brackets. -/

theorem isUpper_of_isMappedUpper {upper : List Char}
    (h : IsMappedUpper upper) : IsUpper upper := by
  have hffff : IsGroup "ffff".toList := by
    exact ⟨by decide, by decide, List.all_eq_true.mp (by decide)⟩
  cases h with
  | compatible =>
      exact .inr ⟨[], [], List.forall_mem_nil _, List.forall_mem_nil _,
        by decide, rfl⟩
  | mapped =>
      exact .inr ⟨[], ["ffff".toList], List.forall_mem_nil _,
        List.forall_mem_singleton.mpr hffff, by decide, rfl⟩
  | @translated zeros nonempty short all =>
      have hzeros : IsGroup zeros := by
        refine ⟨nonempty, short, ?_⟩
        intro c hc
        rw [all c hc]
        rfl
      refine .inr ⟨[], ["ffff".toList, zeros], List.forall_mem_nil _, ?_,
        Nat.le_succ_of_le (Nat.le_succ_of_le (Nat.le_succ 2)), ?_⟩
      · simpa using ⟨hffff, hzeros⟩
      · simp [ended, joined]

theorem not_isNumber_of_isPadded {number : List Char} (h : IsPadded number) :
    ¬ IsNumber number := by
  obtain ⟨c, _, rfl⟩ := h
  rw [isNumber_iff]
  rintro (hzero | ⟨numeral, _⟩)
  · cases hzero
  · exact numeral.lead rfl

theorem dot_not_mem_number {number : List Char}
    (h : IsNumber number ∨ IsPadded number) : '.' ∉ number := by
  rcases h with ⟨n, _, rfl⟩ | ⟨c, hc, rfl⟩
  · intro hdot
    exact absurd (Nat.isDigit_of_mem_toDigits (by decide) (by decide) hdot)
      (by decide)
  · simp only [List.mem_cons, List.not_mem_nil, or_false, not_or]
    refine ⟨by decide, ?_⟩
    rintro rfl
    exact absurd hc (by decide)

theorem toList_bracketed (address : String) :
    ("[" ++ address ++ "]").toList = '[' :: (address.toList ++ [']']) := by
  simp [String.toList_append]

theorem bracket_not_mem {text : List Char}
    (matched : Regex.Matches ipv6Inner text) : ']' ∉ text :=
  Regex.not_mem_of_rejects matched (by decide)

theorem not_isValidPort_of_bracket {portPart : List Char}
    (h : ']' ∈ portPart) : isValidPort portPart = false := by
  rw [Bool.eq_false_iff]
  intro valid
  exact not_mem_of_validPort (by decide) valid h

theorem isValidServerName_bracketed {address : String} :
    isValidServerName ("[" ++ address ++ "]") = true ↔
      Regex.Matches ipv6Inner address.toList := by
  have hbracket : ']' ∈ '[' :: (address.toList ++ [']']) := by simp
  unfold isValidServerName
  dsimp only
  rw [toList_bracketed, List.isEmpty_cons, if_neg Bool.false_ne_true,
    List.head?_cons, if_pos rfl, if_pos hbracket, Bool.and_eq_true]
  by_cases hinner : ']' ∈ address.toList
  · obtain ⟨before, after, hsplit, hbefore⟩ :=
      List.eq_append_cons_of_mem hinner
    have hindex : ('[' :: (address.toList ++ [']'])).idxOf ']' =
        before.length + 1 := by
      rw [List.idxOf_cons_ne _ (by decide), hsplit, List.append_assoc,
        List.idxOf_append_of_notMem hbefore]
      simp
    have hport : isValidPort (('[' :: (address.toList ++ [']'])).drop
        (('[' :: (address.toList ++ [']'])).idxOf ']' + 1)) = false := by
      apply not_isValidPort_of_bracket
      rw [hindex, hsplit]
      simp
    rw [hport]
    constructor
    · intro h
      cases h.2
    · intro h
      exact absurd hinner (bracket_not_mem h)
  · have hindex : ('[' :: (address.toList ++ [']'])).idxOf ']' =
        address.toList.length + 1 := by
      rw [List.idxOf_cons_ne _ (by decide), List.idxOf_append_of_notMem hinner]
      simp
    have htake : ('[' :: (address.toList ++ [']'])).take
        (address.toList.length + 1 + 1) =
          '[' :: (address.toList ++ [']']) := by
      apply List.take_of_length_le
      simp
    have hdrop : ('[' :: (address.toList ++ [']'])).drop
        (address.toList.length + 1 + 1) = [] := by
      apply List.drop_of_length_le
      simp
    rw [hindex, htake, hdrop, Regex.acceptsList_iff, matches_ipv6Regex_iff]
    exact and_iff_left rfl

/-- Four numbers behind one of the three beginnings; the expression lets a
digit stand behind a zero. -/
def IsMappedAddress (text : List Char) : Prop :=
  ∃ upper numbers, IsMappedUpper upper ∧ numbers.length = 4 ∧
    (∀ number ∈ numbers, IsNumber number ∨ IsPadded number) ∧
    text = upper ++ ['.'].intercalate numbers

/-- A dotted part behind other groups than those of the three beginnings. -/
def HasOtherUpper (text : List Char) : Prop :=
  ∃ upper quad, IsUpper upper ∧ ¬ IsMappedUpper upper ∧ IsDotted quad ∧
    text = upper ++ quad

def HasPadded (text : List Char) : Prop :=
  ∃ upper numbers, IsMappedUpper upper ∧ numbers.length = 4 ∧
    (∀ number ∈ numbers, IsNumber number ∨ IsPadded number) ∧
    (∃ number ∈ numbers, IsPadded number) ∧
    text = upper ++ ['.'].intercalate numbers

theorem isValidServerName_bracketed_iff {address : String} :
    isValidServerName ("[" ++ address ++ "]") = true ↔
      IsPlain address.toList ∨ IsMappedAddress address.toList := by
  rw [isValidServerName_bracketed, matches_ipv6Inner_iff,
    matches_mappedAddress_iff]
  rfl

theorem colon_not_mem_numbers {numbers : List (List Char)}
    (all : ∀ number ∈ numbers, IsNumber number ∨ IsPadded number) :
    ':' ∉ ['.'].intercalate numbers := by
  intro hcolon
  rcases mem_intercalate hcolon with hdot | ⟨number, hnumber, hin⟩
  · exact absurd hdot (by decide)
  · rcases all number hnumber with ⟨n, _, rfl⟩ | ⟨c, hc, rfl⟩
    · exact absurd (Nat.isDigit_of_mem_toDigits (by decide) (by decide) hin)
        (by decide)
    · simp only [List.mem_cons, List.not_mem_nil, or_false] at hin
      rcases hin with hzero | rfl
      · exact absurd hzero (by decide)
      · exact absurd hc (by decide)

theorem upper_inj {upper other quad another : List Char}
    (hupper : IsUpper upper) (hother : IsUpper other) (hquad : ':' ∉ quad)
    (hanother : ':' ∉ another) (h : upper ++ quad = other ++ another) :
    upper = other ∧ quad = another := by
  obtain ⟨before, rfl⟩ := eq_concat_of_isUpper hupper
  obtain ⟨after, rfl⟩ := eq_concat_of_isUpper hother
  rw [List.append_assoc, List.append_assoc] at h
  obtain ⟨rfl, hrest⟩ := Regex.last_separator_inj hquad hanother h
  exact ⟨rfl, hrest⟩

theorem numbers_inj {numbers others : List (List Char)}
    (hlength : numbers.length = 4) (hother : others.length = 4)
    (all : ∀ number ∈ numbers, IsNumber number ∨ IsPadded number)
    (others_all : ∀ number ∈ others, IsNumber number ∨ IsPadded number)
    (h : ['.'].intercalate numbers = ['.'].intercalate others) :
    numbers = others := by
  have hsplit := congrArg (List.splitOn '.') h
  rw [List.splitOn_intercalate '.'
      (fun number hnumber => dot_not_mem_number (all number hnumber))
      (List.ne_nil_of_length_pos (by omega)),
    List.splitOn_intercalate '.'
      (fun number hnumber => dot_not_mem_number (others_all number hnumber))
      (List.ne_nil_of_length_pos (by omega))] at hsplit
  exact hsplit

theorem dot_mem_of_isMappedAddress {text : List Char}
    (h : IsMappedAddress text) : '.' ∈ text := by
  obtain ⟨upper, numbers, _, hlength, _, rfl⟩ := h
  match numbers, hlength with
  | [a, b, c, d], _ =>
      simp only [List.intercalate_cons_cons]
      simp

/-- A name in brackets is an address just when it is valid, apart from two
kinds of texts with a dotted part. -/
theorem bracketed_isAddress_iff (address : String) :
    (isValidServerName ("[" ++ address ++ "]") = true ↔
        IsAddress address.toList) ↔
      ¬ HasOtherUpper address.toList ∧ ¬ HasPadded address.toList := by
  rw [isValidServerName_bracketed_iff, isAddress_iff]
  constructor
  · intro same
    constructor
    · rintro ⟨upper, quad, hupper, hother, hquad, htext⟩
      rcases same.mpr (.inr ⟨upper, quad, htext, hupper, hquad⟩) with
        hplain | ⟨mapped, numbers, hmapped, _, hnumbers, hsame⟩
      · apply dot_not_mem_of_isPlain hplain
        rw [htext]
        exact List.mem_append_right _ (dot_mem_of_isDotted hquad)
      · obtain ⟨rfl, _⟩ := upper_inj hupper (isUpper_of_isMappedUpper hmapped)
          (colon_not_mem_of_isDotted hquad) (colon_not_mem_numbers hnumbers)
          (htext.symm.trans hsame)
        exact hother hmapped
    · rintro ⟨upper, numbers, hupper, hlength, hnumbers,
        ⟨number, hnumber, hpadded⟩, htext⟩
      have haddress : IsMappedAddress address.toList :=
        ⟨upper, numbers, hupper, hlength, hnumbers, htext⟩
      rcases same.mp (.inr haddress) with
        hplain | ⟨other, quad, hsame, hother, hquad⟩
      · exact dot_not_mem_of_isPlain hplain
          (dot_mem_of_isMappedAddress haddress)
      · obtain ⟨_, hrest⟩ := upper_inj (isUpper_of_isMappedUpper hupper) hother
          (colon_not_mem_numbers hnumbers) (colon_not_mem_of_isDotted hquad)
          (htext.symm.trans hsame)
        obtain ⟨others, hfour, hothers, rfl⟩ := isDotted_iff.mp hquad
        obtain rfl := numbers_inj hlength hfour hnumbers
          (fun other hmem => .inl (hothers other hmem)) hrest
        exact not_isNumber_of_isPadded hpadded (hothers number hnumber)
  · rintro ⟨hother, hpadded⟩
    constructor
    · rintro (hplain | ⟨upper, numbers, hupper, hlength, hnumbers, htext⟩)
      · exact .inl hplain
      · refine .inr ⟨upper, _, htext, isUpper_of_isMappedUpper hupper,
          isDotted_iff.mpr ⟨numbers, hlength, ?_, rfl⟩⟩
        intro number hnumber
        refine (hnumbers number hnumber).resolve_right fun h => ?_
        exact hpadded ⟨upper, numbers, hupper, hlength, hnumbers,
          ⟨number, hnumber, h⟩, htext⟩
    · rintro (hplain | ⟨upper, quad, htext, hupper, hquad⟩)
      · exact .inl hplain
      · have hmapped : IsMappedUpper upper := by
          by_contra hnot
          exact hother ⟨upper, quad, hupper, hnot, hquad, htext⟩
        obtain ⟨numbers, hlength, hnumbers, rfl⟩ := isDotted_iff.mp hquad
        exact .inr ⟨upper, numbers, hmapped, hlength,
          fun number hnumber => .inl (hnumbers number hnumber), htext⟩

/-- An address of the NAT64 prefix with its dotted part. -/
def translatedAddress : String := "64:ff9b::192.0.2.33"

theorem isAddress_translatedAddress :
    IsAddress translatedAddress.toList := by
  have hgroups : ∀ group ∈ ["64".toList, "ff9b".toList], IsGroup group := by
    simp only [List.forall_mem_cons, List.not_mem_nil, false_imp_iff,
      implies_true, and_true]
    exact ⟨⟨by decide, by decide, List.all_eq_true.mp (by decide)⟩,
      by decide, by decide, List.all_eq_true.mp (by decide)⟩
  have hquad : IsDotted "192.0.2.33".toList :=
    ⟨[192, 0, 2, 33], rfl, by decide, by decide⟩
  exact .compressed hgroups (.dotted hquad) (by decide)

theorem translatedAddress_refused :
    ¬ (isValidServerName ("[" ++ translatedAddress ++ "]") = true ↔
      IsAddress translatedAddress.toList) := by
  intro same
  have hinvalid : isValidServerName ("[" ++ translatedAddress ++ "]") =
      false := by
    decide
  have hvalid := same.mpr isAddress_translatedAddress
  rw [hinvalid] at hvalid
  cases hvalid

end TwakeKickstart.Utils
