import TwakeKickstart.Library.Decimal
import TwakeKickstart.Library.RegexLanguage
import TwakeKickstart.Library.Text

namespace TwakeKickstart.Library.Ipv6Text

/-! The texts of IPv6 addresses: eight groups of hexadecimal digits, of which
one run of zeros may be left out and the last two written as decimal numbers. -/

def isHexDigit (c : Char) : Bool :=
  c.isDigit || ('a' ≤ c && c ≤ 'f') || ('A' ≤ c && c ≤ 'F')

/-- 1 to 4 hexadecimal digits. -/
structure IsGroup (text : List Char) : Prop where
  nonempty : text ≠ []
  length_le : text.length ≤ 4
  all : ∀ c ∈ text, isHexDigit c = true

/-- Four decimal numbers of a byte each. -/
def IsDotted (text : List Char) : Prop :=
  ∃ numbers : List Nat, numbers.length = 4 ∧ (∀ n ∈ numbers, n ≤ 255) ∧
    text = ['.'].intercalate (numbers.map (Nat.toDigits 10))

/-- What stands between the colons, and for how many groups.  A dotted part
comes last. -/
inductive Pieces : List (List Char) → Nat → Prop
  | nil : Pieces [] 0
  | dotted {quad : List Char} (isDotted : IsDotted quad) : Pieces [quad] 2
  | group {text : List Char} {rest : List (List Char)} {count : Nat}
      (isGroup : IsGroup text) (others : Pieces rest count) :
      Pieces (text :: rest) (count + 1)

def joined (pieces : List (List Char)) : List Char := [':'].intercalate pieces

inductive IsAddress : List Char → Prop
  | full {pieces : List (List Char)} (all : Pieces pieces 8) :
      IsAddress (joined pieces)
  | compressed {left right : List (List Char)} {count : Nat}
      (before : ∀ text ∈ left, IsGroup text) (after : Pieces right count)
      (short : left.length + count ≤ 7) :
      IsAddress (joined left ++ ':' :: ':' :: joined right)

/-! Addresses with and without a dotted part. -/

def IsPlain (text : List Char) : Prop :=
  (∃ groups, groups.length = 8 ∧ (∀ group ∈ groups, IsGroup group) ∧
      text = joined groups) ∨
    ∃ left right, (∀ group ∈ left, IsGroup group) ∧
      (∀ group ∈ right, IsGroup group) ∧ left.length + right.length ≤ 7 ∧
      text = joined left ++ ':' :: ':' :: joined right

/-- Each group with its colon. -/
def ended (groups : List (List Char)) : List Char :=
  (groups.map (· ++ [':'])).flatten

/-- The upper 96 bits of an address, as they stand before a dotted part. -/
def IsUpper (text : List Char) : Prop :=
  (∃ groups, groups.length = 6 ∧ (∀ group ∈ groups, IsGroup group) ∧
      text = ended groups) ∨
    ∃ left right, (∀ group ∈ left, IsGroup group) ∧
      (∀ group ∈ right, IsGroup group) ∧ left.length + right.length ≤ 5 ∧
      text = joined left ++ ':' :: ':' :: ended right

theorem joined_concat (groups : List (List Char)) (last : List Char) :
    joined (groups ++ [last]) = ended groups ++ last :=
  (Regex.flatten_append_last groups last).symm

theorem pieces_of_groups {groups : List (List Char)}
    (all : ∀ group ∈ groups, IsGroup group) :
    Pieces groups groups.length := by
  induction groups with
  | nil => exact .nil
  | cons group rest ih =>
      rw [List.forall_mem_cons] at all
      exact .group all.1 (ih all.2)

theorem pieces_of_concat {groups : List (List Char)} {quad : List Char}
    (all : ∀ group ∈ groups, IsGroup group) (isDotted : IsDotted quad) :
    Pieces (groups ++ [quad]) (groups.length + 2) := by
  induction groups with
  | nil => exact .dotted isDotted
  | cons group rest ih =>
      rw [List.forall_mem_cons] at all
      rw [List.length_cons, Nat.add_right_comm]
      exact .group all.1 (ih all.2)

theorem Pieces.cases {pieces : List (List Char)} {count : Nat}
    (h : Pieces pieces count) :
    ((∀ group ∈ pieces, IsGroup group) ∧ count = pieces.length) ∨
      ∃ groups quad, pieces = groups ++ [quad] ∧
        (∀ group ∈ groups, IsGroup group) ∧ IsDotted quad ∧
        count = groups.length + 2 := by
  induction h with
  | nil => exact .inl ⟨List.forall_mem_nil _, rfl⟩
  | @dotted quad hquad =>
      exact .inr ⟨[], quad, rfl, List.forall_mem_nil _, hquad, rfl⟩
  | @group text rest count hgroup _ ih =>
      rcases ih with ⟨hall, rfl⟩ | ⟨groups, quad, rfl, hall, hquad, rfl⟩
      · exact .inl ⟨List.forall_mem_cons.mpr ⟨hgroup, hall⟩, rfl⟩
      · refine .inr ⟨text :: groups, quad, rfl,
          List.forall_mem_cons.mpr ⟨hgroup, hall⟩, hquad, ?_⟩
        rw [List.length_cons, Nat.add_right_comm]

theorem isAddress_iff {text : List Char} : IsAddress text ↔
    IsPlain text ∨ ∃ upper quad, text = upper ++ quad ∧ IsUpper upper ∧
      IsDotted quad := by
  constructor
  · intro h
    cases h with
    | full all =>
        rcases all.cases with ⟨hall, hcount⟩ |
          ⟨groups, quad, rfl, hall, hquad, hcount⟩
        · exact .inl (.inl ⟨_, hcount.symm, hall, rfl⟩)
        · exact .inr ⟨ended groups, quad, joined_concat groups quad,
            .inl ⟨groups, by omega, hall, rfl⟩, hquad⟩
    | @compressed left right count before after short =>
        rcases after.cases with ⟨hall, rfl⟩ |
          ⟨groups, quad, rfl, hall, hquad, rfl⟩
        · exact .inl (.inr ⟨left, right, before, hall, short, rfl⟩)
        · refine .inr ⟨joined left ++ ':' :: ':' :: ended groups, quad, ?_,
            .inr ⟨left, groups, before, hall, by omega, rfl⟩, hquad⟩
          rw [joined_concat, List.append_assoc]
          rfl
  · rintro (hplain | ⟨upper, quad, rfl, hupper, hquad⟩)
    · rcases hplain with ⟨groups, hlength, hall, rfl⟩ |
        ⟨left, right, hleft, hright, hshort, rfl⟩
      · exact .full (hlength ▸ pieces_of_groups hall)
      · exact .compressed hleft (pieces_of_groups hright) hshort
    · rcases hupper with ⟨groups, hlength, hall, rfl⟩ |
        ⟨left, right, hleft, hright, hshort, rfl⟩
      · rw [← joined_concat]
        have hpieces := pieces_of_concat hall hquad
        rw [hlength] at hpieces
        exact .full hpieces
      · rw [List.append_assoc, List.cons_append, List.cons_append,
          ← joined_concat]
        exact .compressed hleft (pieces_of_concat hright hquad) (by omega)

/-! The characters of the parts. -/

theorem not_mem_of_isGroup {c : Char} {group : List Char} (h : IsGroup group)
    (hc : isHexDigit c = false) : c ∉ group := by
  intro hmem
  rw [h.all c hmem] at hc
  cases hc

theorem not_mem_joined {c : Char} {groups : List (List Char)}
    (all : ∀ group ∈ groups, IsGroup group) (hc : isHexDigit c = false)
    (hne : c ≠ ':') : c ∉ joined groups := by
  intro hmem
  rcases mem_intercalate hmem with hcolon | ⟨group, hgroup, hin⟩
  · exact hne hcolon
  · exact not_mem_of_isGroup (all group hgroup) hc hin

theorem dot_not_mem_of_isPlain {text : List Char} (h : IsPlain text) :
    '.' ∉ text := by
  rcases h with ⟨groups, _, hall, rfl⟩ | ⟨left, right, hleft, hright, _, rfl⟩
  · exact not_mem_joined hall (by decide) (by decide)
  · have hbefore := not_mem_joined hleft (by decide : isHexDigit '.' = false)
      (by decide)
    have hafter := not_mem_joined hright (by decide : isHexDigit '.' = false)
      (by decide)
    simp [hbefore, hafter]

theorem eq_concat_of_ended {groups : List (List Char)} (h : groups ≠ []) :
    ∃ init, ended groups = init ++ [':'] := by
  obtain ⟨init, last, rfl⟩ : ∃ init last, groups = init ++ [last] :=
    ⟨_, _, (List.dropLast_append_getLast h).symm⟩
  refine ⟨ended init ++ last, ?_⟩
  rw [ended, List.map_append, List.flatten_append]
  simp [ended]

theorem eq_concat_of_isUpper {upper : List Char} (h : IsUpper upper) :
    ∃ init, upper = init ++ [':'] := by
  rcases h with ⟨groups, hlength, _, rfl⟩ | ⟨left, right, _, _, _, rfl⟩
  · apply eq_concat_of_ended
    rintro rfl
    cases hlength
  · by_cases hright : right = []
    · refine ⟨joined left ++ [':'], ?_⟩
      simp [hright, ended]
    · obtain ⟨init, hinit⟩ := eq_concat_of_ended hright
      refine ⟨joined left ++ ':' :: ':' :: init, ?_⟩
      simp [hinit]

theorem colon_not_mem_of_isDotted {quad : List Char} (h : IsDotted quad) :
    ':' ∉ quad := by
  obtain ⟨numbers, _, _, rfl⟩ := h
  intro hcolon
  rcases mem_intercalate hcolon with hdot | ⟨number, hnumber, hin⟩
  · exact absurd hdot (by decide)
  · obtain ⟨n, _, rfl⟩ := List.mem_map.mp hnumber
    exact absurd (Nat.isDigit_of_mem_toDigits (by decide) (by decide) hin)
      (by decide)

theorem dot_mem_of_isDotted {quad : List Char} (h : IsDotted quad) :
    '.' ∈ quad := by
  obtain ⟨numbers, hlength, _, rfl⟩ := h
  match numbers, hlength with
  | [a, b, c, d], _ =>
      simp only [List.map_cons, List.intercalate_cons_cons]
      simp

end TwakeKickstart.Library.Ipv6Text
