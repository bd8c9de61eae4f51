import TwakeKickstart.Library.Text

namespace TwakeKickstart.CalendarApp

open Library

/-! Mail addresses by the grammar of the mail transport. -/

def isAtext (c : Char) : Bool :=
  c.isAlphanum || "!#$%&'*+-/=?^_\x60\x7b|\x7d~".toList.contains c

def isPrintable (c : Char) : Bool := decide (32 ≤ c.toNat ∧ c.toNat ≤ 126)

structure Atom where
  text : List Char
  nonempty : text ≠ []
  chars : ∀ c ∈ text, isAtext c = true

inductive QuotedChar where
  | plain (c : Char) (safe : (isPrintable c && c != '"' && c != '\\') = true)
  | escaped (c : Char) (safe : isPrintable c = true)

def QuotedChar.text : QuotedChar → List Char
  | plain c _ => [c]
  | escaped c _ => ['\\', c]

inductive LocalPart where
  | dotted (first : Atom) (others : List Atom)
  | quoted (chars : List QuotedChar)

def LocalPart.text : LocalPart → List Char
  | dotted first others =>
      first.text ++ others.flatMap fun atom => '.' :: atom.text
  | quoted chars => '"' :: (chars.flatMap QuotedChar.text ++ ['"'])

def isLabelChar (c : Char) : Bool := c.isAlphanum || c == '-'

structure Label where
  text : List Char
  nonempty : text ≠ []
  chars : ∀ c ∈ text, isLabelChar c = true
  first : text.head? ≠ some '-'
  last : text.getLast? ≠ some '-'

def isLiteralChar (c : Char) : Bool :=
  isPrintable c && c != ' ' && c != '[' && c != ']' && c != '\\'

inductive Domain where
  | labels (first : Label) (others : List Label)
  | literal (text : List Char) (chars : ∀ c ∈ text, isLiteralChar c = true)

def Domain.text : Domain → List Char
  | labels first others =>
      first.text ++ others.flatMap fun label => '.' :: label.text
  | literal text _ => '[' :: (text ++ [']'])

structure EmailAddress where
  localPart : LocalPart
  domain : Domain

def EmailAddress.text (address : EmailAddress) : List Char :=
  address.localPart.text ++ '@' :: address.domain.text

/-! The characters of an address. -/

/-- A printable character other than a blank and a colon. -/
def IsSolid (c : Char) : Prop := isPrintable c = true ∧ c ≠ ' ' ∧ c ≠ ':'

theorem isSolid_of_isAlphanum {c : Char} (h : c.isAlphanum = true) :
    IsSolid c := by
  have hrange := range_of_isAlphanum h
  refine ⟨decide_eq_true (by omega), ?_, ?_⟩
  · rintro rfl
    have : (' ' : Char).toNat = 32 := rfl
    omega
  · rintro rfl
    have : (':' : Char).toNat = 58 := rfl
    omega

theorem isSolid_of_isAtext {c : Char} (h : isAtext c = true) : IsSolid c := by
  rw [isAtext, Bool.or_eq_true] at h
  obtain h | h := h
  · exact isSolid_of_isAlphanum h
  · have hall : "!#$%&'*+-/=?^_\x60\x7b|\x7d~".toList.all
        (fun c => isPrintable c && c != ' ' && c != ':') = true := by
      decide
    have hc := List.all_eq_true.mp hall c (List.contains_iff_mem.mp h)
    simpa [IsSolid, and_assoc] using hc

theorem isSolid_of_isLabelChar {c : Char} (h : isLabelChar c = true) :
    IsSolid c := by
  rw [isLabelChar, Bool.or_eq_true, beq_iff_eq] at h
  obtain h | rfl := h
  · exact isSolid_of_isAlphanum h
  · exact ⟨by decide, by decide, by decide⟩

theorem isSolid_dot : IsSolid '.' := ⟨by decide, by decide, by decide⟩

theorem forall_mem_joined {property : Char → Prop} {first : List Char}
    {others : List (List Char)} {d : Char} (hd : property d)
    (all : ∀ text ∈ first :: others, ∀ c ∈ text, property c) :
    ∀ c ∈ first ++ others.flatMap (d :: ·), property c := by
  intro c hc
  obtain hc | hc := List.mem_append.mp hc
  · exact all first List.mem_cons_self c hc
  · obtain ⟨text, htext, hc⟩ := List.mem_flatMap.mp hc
    obtain rfl | hc := List.mem_cons.mp hc
    · exact hd
    · exact all text (List.mem_cons_of_mem _ htext) c hc

theorem isSolid_dotted (first : Atom) (others : List Atom) :
    ∀ c ∈ (LocalPart.dotted first others).text, IsSolid c := by
  have htext : (LocalPart.dotted first others).text =
      first.text ++ (others.map Atom.text).flatMap ('.' :: ·) := by
    rw [LocalPart.text, List.flatMap_map]
  rw [htext]
  apply forall_mem_joined isSolid_dot
  intro text htext c hc
  obtain rfl | htext := List.mem_cons.mp htext
  · exact isSolid_of_isAtext (first.chars c hc)
  · obtain ⟨atom, _, rfl⟩ := List.mem_map.mp htext
    exact isSolid_of_isAtext (atom.chars c hc)

theorem isSolid_labels (first : Label) (others : List Label) :
    ∀ c ∈ (Domain.labels first others).text, IsSolid c := by
  have htext : (Domain.labels first others).text =
      first.text ++ (others.map Label.text).flatMap ('.' :: ·) := by
    rw [Domain.text, List.flatMap_map]
  rw [htext]
  apply forall_mem_joined isSolid_dot
  intro text htext c hc
  obtain rfl | htext := List.mem_cons.mp htext
  · exact isSolid_of_isLabelChar (first.chars c hc)
  · obtain ⟨label, _, rfl⟩ := List.mem_map.mp htext
    exact isSolid_of_isLabelChar (label.chars c hc)

theorem isPrintable_quoted (chars : List QuotedChar) :
    ∀ c ∈ (LocalPart.quoted chars).text, isPrintable c = true := by
  intro c hc
  obtain rfl | hc := List.mem_cons.mp hc
  · decide
  obtain hc | hc := List.mem_append.mp hc
  · obtain ⟨quoted, _, hc⟩ := List.mem_flatMap.mp hc
    cases quoted with
    | plain d safe =>
        rw [List.mem_singleton.mp hc]
        simp only [Bool.and_eq_true] at safe
        exact safe.1.1
    | escaped d safe =>
        obtain rfl | hc := List.mem_cons.mp hc
        · decide
        · rwa [List.mem_singleton.mp hc]
  · rw [List.mem_singleton.mp hc]
    decide

namespace EmailAddress

theorem isPrintable_text (address : EmailAddress) :
    ∀ c ∈ address.text, isPrintable c = true := by
  intro c hc
  obtain hc | hc := List.mem_append.mp hc
  · cases hlocal : address.localPart with
    | dotted first others =>
        rw [hlocal] at hc
        exact (isSolid_dotted first others c hc).1
    | quoted chars =>
        rw [hlocal] at hc
        exact isPrintable_quoted chars c hc
  obtain rfl | hc := List.mem_cons.mp hc
  · decide
  cases hdomain : address.domain with
  | labels first others =>
      rw [hdomain] at hc
      exact (isSolid_labels first others c hc).1
  | literal text chars =>
      rw [hdomain] at hc
      obtain rfl | hc := List.mem_cons.mp hc
      · decide
      obtain hc | hc := List.mem_append.mp hc
      · have hchar := chars c hc
        simp only [isLiteralChar, Bool.and_eq_true] at hchar
        exact hchar.1.1.1.1
      · rw [List.mem_singleton.mp hc]
        decide

theorem head_text (address : EmailAddress) :
    ∃ c, address.text.head? = some c ∧ c ≠ ' ' := by
  rw [text]
  cases address.localPart with
  | dotted first others =>
      obtain ⟨c, rest, hfirst⟩ := List.exists_cons_of_ne_nil first.nonempty
      refine ⟨c, ?_, (isSolid_of_isAtext (first.chars c ?_)).2.1⟩
      · rw [LocalPart.text, hfirst]
        rfl
      · rw [hfirst]
        exact List.mem_cons_self
  | quoted chars => exact ⟨'"', rfl, by decide⟩

theorem getLast?_text (address : EmailAddress) :
    ∃ c, address.text.getLast? = some c ∧ c ≠ ' ' := by
  have hdomain : ∃ c, address.domain.text.getLast? = some c ∧ c ≠ ' ' := by
    cases address.domain with
    | labels first others =>
        have hne : (Domain.labels first others).text ≠ [] := by
          intro h
          exact first.nonempty (List.append_eq_nil_iff.mp h).1
        have hlast := List.getLast?_eq_some_getLast hne
        exact ⟨_, hlast, (isSolid_labels first others _
          (List.mem_of_getLast? hlast)).2.1⟩
    | literal text chars =>
        refine ⟨']', ?_, by decide⟩
        rw [Domain.text, ← List.cons_append, List.getLast?_concat]
  obtain ⟨c, hlast, hc⟩ := hdomain
  refine ⟨c, ?_, hc⟩
  rw [text, List.getLast?_append, List.getLast?_cons, hlast]
  rfl

end EmailAddress

/-! The prefix of a link to an address. -/

def mailto : List Char := "mailto:".toList

def startsWithMailto (text : List Char) : Bool :=
  (text.take 7).map Char.toLower == mailto

theorem toLower_ne_colon {c : Char} (h : c ≠ ':') : c.toLower ≠ ':' := by
  intro hc
  obtain hsame | ⟨hlow, _, hval⟩ := toLower_cases c
  · exact h (hsame.symm.trans hc)
  · rw [hc] at hval
    have : (':' : Char).toNat = 58 := rfl
    omega

theorem startsWithMailto_eq_false {text : List Char} (rest : List Char)
    (h : ∀ c ∈ text, c ≠ ':') :
    startsWithMailto (text ++ '@' :: rest) = false := by
  rw [startsWithMailto, beq_eq_false_iff_ne]
  intro heq
  obtain hshort | hlong := Nat.lt_or_ge text.length 7
  · -- the at sign is within the prefix
    obtain ⟨k, hk⟩ := Nat.exists_eq_add_of_lt hshort
    have hmem : '@' ∈ mailto := by
      rw [← heq]
      refine List.mem_map.mpr ⟨'@', ?_, by decide⟩
      rw [hk, Nat.add_assoc, List.take_length_add_append, List.take_succ_cons]
      exact List.mem_append_right _ List.mem_cons_self
    revert hmem
    decide
  · have hmem : ':' ∈ ((text ++ '@' :: rest).take 7).map Char.toLower := by
      rw [heq]
      decide
    rw [List.take_append_of_le_length hlong] at hmem
    obtain ⟨c, hc, hlower⟩ := List.mem_map.mp hmem
    exact toLower_ne_colon (h c (List.mem_of_mem_take hc)) hlower

/-- No address begins like a link to one. -/
theorem EmailAddress.not_startsWithMailto (address : EmailAddress) :
    startsWithMailto address.text = false := by
  rw [text]
  cases address.localPart with
  | dotted first others =>
      exact startsWithMailto_eq_false _ fun c hc =>
        (isSolid_dotted first others c hc).2.2
  | quoted chars =>
      rw [startsWithMailto, beq_eq_false_iff_ne]
      intro heq
      have hhead := congrArg List.head? heq
      revert hhead
      rw [LocalPart.text, List.cons_append, List.take_succ_cons, List.map_cons,
        List.head?_cons]
      decide

end TwakeKickstart.CalendarApp
