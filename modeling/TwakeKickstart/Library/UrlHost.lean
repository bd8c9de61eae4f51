import TwakeKickstart.Library.Ipv6Text
import TwakeKickstart.Library.RegexLanguage

namespace TwakeKickstart.Library

/-! The host and the port of an `https` URL, by the generic syntax of URIs
(RFC 3986). -/

namespace UrlHost

def isUnreserved (c : Char) : Bool :=
  c.isAlphanum || "-._~".toList.contains c

def isSubDelim (c : Char) : Bool := "!$&'()*+,;=".toList.contains c

inductive IsRegName : List Char → Prop
  | nil : IsRegName []
  | plain {c : Char} {rest : List Char}
      (allowed : (isUnreserved c || isSubDelim c) = true)
      (others : IsRegName rest) : IsRegName (c :: rest)
  | encoded {high low : Char} {rest : List Char}
      (isHigh : Ipv6Text.isHexDigit high = true)
      (isLow : Ipv6Text.isHexDigit low = true)
      (others : IsRegName rest) : IsRegName ('%' :: high :: low :: rest)

/-- What may stand in brackets. -/
inductive IsLiteral : List Char → Prop
  | address {text : List Char} (isAddress : Ipv6Text.IsAddress text) :
      IsLiteral text
  | future {version text : List Char} (hversion : version ≠ [])
      (digits : ∀ c ∈ version, Ipv6Text.isHexDigit c = true)
      (htext : text ≠ [])
      (allowed : ∀ c ∈ text,
        (isUnreserved c || isSubDelim c || c == ':') = true) :
      IsLiteral ('v' :: version ++ '.' :: text)

/-- A host that is not empty. -/
inductive IsHost : List Char → Prop
  | name {text : List Char} (nonempty : text ≠ []) (isName : IsRegName text) :
      IsHost text
  | literal {text : List Char} (isLiteral : IsLiteral text) :
      IsHost ('[' :: (text ++ [']']))

def IsAuthority (text : List Char) : Prop :=
  IsHost text ∨
    ∃ host port, IsHost host ∧ (∀ c ∈ port, c.isDigit = true) ∧
      text = host ++ ':' :: port

/-- The URL of a server: its scheme, its authority and the root path. -/
def IsBaseUrl (url : String) : Prop :=
  ∃ authority, IsAuthority authority ∧
    url.toList = "https://".toList ++ authority ++ ['/']

theorem colon_not_mem_of_isRegName {text : List Char} (h : IsRegName text) :
    ':' ∉ text := by
  induction h with
  | nil => exact List.not_mem_nil
  | plain allowed _ ih =>
      rw [List.mem_cons, not_or]
      refine ⟨?_, ih⟩
      rintro rfl
      exact absurd allowed (by decide)
  | encoded isHigh isLow _ ih =>
      simp only [List.mem_cons, not_or]
      refine ⟨by decide, ?_, ?_, ih⟩
      · rintro rfl
        exact absurd isHigh (by decide)
      · rintro rfl
        exact absurd isLow (by decide)

theorem bracketed_of_colon {host : List Char} (h : IsHost host)
    (colon : ':' ∈ host) : ∃ text, host = '[' :: (text ++ [']']) := by
  cases h with
  | name _ isName => exact absurd colon (colon_not_mem_of_isRegName isName)
  | literal _ => exact ⟨_, rfl⟩

theorem isHost_of_unreserved {text : List Char} (nonempty : text ≠ [])
    (all : ∀ c ∈ text, isUnreserved c = true) : IsHost text := by
  refine .name nonempty ?_
  clear nonempty
  induction text with
  | nil => exact .nil
  | cons c rest ih =>
      rw [List.forall_mem_cons] at all
      refine .plain ?_ (ih all.2)
      rw [all.1, Bool.true_or]

section Port

variable {host port : List Char}

theorem not_isHost_joined (nonempty : port ≠ [])
    (digits : ∀ c ∈ port, c.isDigit = true) : ¬ IsHost (host ++ ':' :: port) := by
  intro h
  obtain ⟨text, htext⟩ := bracketed_of_colon h (by simp)
  have hlast := congrArg List.getLast? htext
  rw [List.getLast?_append_of_ne_nil _ (List.cons_ne_nil _ _),
    List.getLast?_cons_of_ne_nil nonempty, ← List.cons_append,
    List.getLast?_concat] at hlast
  have hdigit := digits ']' (List.mem_of_getLast? hlast)
  exact absurd hdigit (by decide)

theorem isAuthority_joined_iff (nonempty : port ≠ [])
    (digits : ∀ c ∈ port, c.isDigit = true) :
    IsAuthority (host ++ ':' :: port) ↔ IsHost host := by
  have hport : ∀ digits : List Char, (∀ c ∈ digits, c.isDigit = true) →
      ':' ∉ digits := by
    intro digits hdigits hcolon
    exact absurd (hdigits ':' hcolon) (by decide)
  constructor
  · rintro (hhost | ⟨other, another, hother, hanother, hsame⟩)
    · exact absurd hhost (not_isHost_joined nonempty digits)
    · obtain ⟨rfl, _⟩ := Regex.last_separator_inj (hport port digits)
        (hport another hanother) hsame
      exact hother
  · intro h
    exact .inr ⟨host, port, h, digits, rfl⟩

end Port

theorem isBaseUrl_iff {url : String} {authority : List Char}
    (h : url.toList = "https://".toList ++ authority ++ ['/']) :
    IsBaseUrl url ↔ IsAuthority authority := by
  constructor
  · rintro ⟨other, hother, hsame⟩
    have hjoined := hsame.symm.trans h
    rw [List.append_left_inj, List.append_right_inj] at hjoined
    rw [← hjoined]
    exact hother
  · intro hauthority
    exact ⟨authority, hauthority, h⟩

end UrlHost

end TwakeKickstart.Library
