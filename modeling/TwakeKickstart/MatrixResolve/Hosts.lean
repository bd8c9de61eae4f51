import TwakeKickstart.Library.UrlHost
import TwakeKickstart.MatrixResolve.Resolve
import TwakeKickstart.Utils.IsMatrixId
import TwakeKickstart.Utils.ServerName

namespace TwakeKickstart.MatrixResolve

open Library Utils

/-! The expressions of hosts: what they match, and which of it may stand in a
URL. -/

def portText : Option String → List Char
  | none => []
  | some digits => ':' :: digits.toList

def IsPortText (port : Option String) : Prop :=
  ∀ digits, port = some digits →
    digits.toList ≠ [] ∧ ∀ c ∈ digits.toList, c.isDigit = true

section Host

variable {host : Regex} {guarded : Bool} {name : String}
  {port : Option String}

theorem portGroup_eq_some {text rest : List Char}
    (h : portGroup guarded text rest = some port) :
    rest = portText port ∧ IsPortText port := by
  unfold portGroup at h
  split at h
  · cases h
    exact ⟨rfl, fun _ hnone => nomatch hnone⟩
  · split at h
    · rename_i hguard
      cases h
      obtain ⟨rfl, hnonempty, hall, _⟩ := hguard
      refine ⟨by rw [portText, String.toList_ofList], ?_⟩
      intro digits hdigits
      cases hdigits
      rw [String.toList_ofList]
      exact ⟨hnonempty, List.all_eq_true.mp hall⟩
    · cases h

theorem portGroup_portText {head : List Char} (isPort : IsPortText port)
    (hguard : guarded = true → head.getLast? ≠ some ':') :
    portGroup guarded (head ++ portText port) (portText port) = some port := by
  cases port with
  | none => rfl
  | some digits =>
      obtain ⟨hnonempty, hall⟩ := isPort digits rfl
      unfold portGroup
      rw [portText]
      dsimp only
      have hlength : (head ++ ':' :: digits.toList).length -
          (':' :: digits.toList).length = head.length := by
        rw [List.length_append, Nat.add_sub_cancel]
      rw [hlength, List.take_left, if_pos ⟨rfl, hnonempty,
        List.all_eq_true.mpr hall, hguard⟩, String.ofList_toList]

theorem matchHost_eq_some (h : matchHost host guarded name = some port) :
    ∃ head, Regex.Matches host head ∧ name.toList = head ++ portText port ∧
      IsPortText port := by
  obtain ⟨rest, hrest, hport⟩ := List.exists_of_findSome?_eq_some h
  obtain ⟨head, htext, hhead⟩ := Regex.mem_ways_iff.mp hrest
  obtain ⟨rfl, hdigits⟩ := portGroup_eq_some hport
  exact ⟨head, hhead, htext, hdigits⟩

theorem matchHost_isSome {head : List Char} (matched : Regex.Matches host head)
    (htext : name.toList = head ++ portText port) (isPort : IsPortText port)
    (hguard : guarded = true → head.getLast? ≠ some ':') :
    ∃ found, matchHost host guarded name = some found := by
  rw [← Option.isSome_iff_exists, matchHost, List.findSome?_isSome_iff]
  refine ⟨portText port, Regex.mem_ways_iff.mpr ⟨head, htext, matched⟩, ?_⟩
  rw [htext, portGroup_portText isPort hguard]
  rfl

/-- A text has no second reading with a host that has no colon. -/
theorem parts_inj {head other : List Char} {port another : Option String}
    (hhead : ':' ∉ head) (hother : ':' ∉ other)
    (h : head ++ portText port = other ++ portText another) :
    head = other ∧ port = another := by
  cases port with
  | none =>
      cases another with
      | none => exact ⟨List.append_cancel_right h, rfl⟩
      | some digits =>
          rw [portText, portText, List.append_nil] at h
          rw [h] at hhead
          exact absurd (by simp) hhead
  | some digits =>
      cases another with
      | none =>
          rw [portText, portText, List.append_nil] at h
          rw [← h] at hother
          exact absurd (by simp) hother
      | some digits =>
          obtain ⟨rfl, hdigits⟩ := Regex.first_separator_inj hhead hother h
          rw [String.toList_injective hdigits]
          exact ⟨rfl, rfl⟩

/-- A host whose expression has no colon is found together with its port. -/
theorem matchHost_of_matches {head : List Char}
    (noColon : host.rejects ':' = true) (matched : Regex.Matches host head)
    (htext : name.toList = head ++ portText port) (isPort : IsPortText port) :
    matchHost host false name = some port := by
  obtain ⟨found, hfound⟩ := matchHost_isSome matched htext isPort
    (fun h => nomatch h : false = true → head.getLast? ≠ some ':')
  obtain ⟨other, hother, hsame, _⟩ := matchHost_eq_some hfound
  obtain ⟨_, rfl⟩ := parts_inj (Regex.not_mem_of_rejects matched noColon)
    (Regex.not_mem_of_rejects hother noColon) (htext.symm.trans hsame)
  exact hfound

end Host

/-! The expression of an IPv4 address. -/

def IsIpv4 (host : List Char) : Prop :=
  ∃ numbers, numbers.length = 4 ∧
    (∀ number ∈ numbers,
      IsShortNumeral number ∧ Decimal.value number ≤ 255) ∧
    host = ['.'].intercalate numbers

theorem matches_twoDigits_iff {text : List Char} :
    Regex.Matches (.run Char.isDigit 1 (some 2)) text ↔
      Regex.Matches (.seq (.one Char.isDigit) (.optional (.one Char.isDigit)))
        text := by
  simp only [Regex.matches_run_iff, Regex.matches_seq_iff,
    Regex.matches_one_iff, Regex.matches_optional_iff]
  constructor
  · rintro ⟨hall, hleast, hmost⟩
    have hlength := hmost 2 rfl
    have hcount : text.length = 1 ∨ text.length = 2 := by omega
    rcases hcount with hone | htwo
    · obtain ⟨a, rfl⟩ := List.length_eq_one_iff.mp hone
      exact ⟨[a], [], rfl, ⟨a, hall a (by simp), rfl⟩, .inr rfl⟩
    · obtain ⟨a, b, rfl⟩ := List.length_eq_two.mp htwo
      exact ⟨[a], [b], rfl, ⟨a, hall a (by simp), rfl⟩,
        .inl ⟨b, hall b (by simp), rfl⟩⟩
  · rintro ⟨_, _, rfl, ⟨a, ha, rfl⟩, ⟨b, hb, rfl⟩ | rfl⟩
    · refine ⟨by simp [ha, hb], by simp, ?_⟩
      intro bound hbound
      cases hbound
      exact Nat.le_refl 2
    · refine ⟨by simp [ha], by simp, ?_⟩
      intro bound hbound
      cases hbound
      exact Nat.le_succ 1

theorem matches_octet_iff {text : List Char} : Regex.Matches octet text ↔
    IsShortNumeral text ∧ Decimal.value text ≤ 255 := by
  rw [← matches_ipv4Octet_iff]
  unfold octet ipv4Octet
  simp only [Regex.anyOf, Regex.matches_alt_iff]
  apply or_congr_right
  apply or_congr_right
  simp only [Regex.sequence, Regex.matches_seq_iff, matches_twoDigits_iff]

theorem matches_ipv4_iff {text : List Char} :
    Regex.Matches ipv4 text ↔ IsIpv4 text := by
  unfold ipv4
  simp only [Regex.matches_sequence_cons_iff, matches_octet_iff,
    Regex.matches_literal_iff]
  simp only [Regex.sequence, Regex.matches_epsilon_iff]
  constructor
  · rintro ⟨a, _, rfl, ha, _, _, rfl, rfl, b, _, rfl, hb, _, _, rfl, rfl, c, _,
      rfl, hc, _, _, rfl, rfl, d, _, rfl, hd, rfl⟩
    refine ⟨[a, b, c, d], rfl, by simp [ha, hb, hc, hd], ?_⟩
    simp [List.intercalate_cons_cons]
  · rintro ⟨numbers, hlength, hall, rfl⟩
    obtain ⟨a, b, c, d, rfl⟩ := List.length_eq_four.mp hlength
    simp only [List.forall_mem_cons] at hall
    obtain ⟨ha, hb, hc, hd, _⟩ := hall
    refine ⟨a, _, ?_, ha, ['.'], _, rfl, rfl, b, _, rfl, hb, ['.'], _, rfl,
      rfl, c, _, rfl, hc, ['.'], _, rfl, rfl, d, [], rfl, hd, rfl⟩
    simp [List.intercalate_cons_cons]

/-! An IPv6 address has more separators than a server name can. -/

def isSeparator (c : Char) : Bool := c == ':' || c == '%'

section Separators

variable {counted : Char → Bool} (hcolon : counted ':' = true)

include hcolon

theorem atLeast_groupColon : Regex.AtLeast counted 1 groupColon :=
  (Regex.atLeast_literal hcolon).after

theorem atLeast_colonGroup : Regex.AtLeast counted 1 colonGroup :=
  (Regex.atLeast_literal hcolon).before

theorem atLeast_groups (most : Nat) :
    Regex.AtLeast counted 1 (.between 1 most groupColon) :=
  (atLeast_groupColon hcolon).between 1 most

theorem atLeast_colons (most : Nat) :
    Regex.AtLeast counted 1 (.between 1 most colonGroup) :=
  (atLeast_colonGroup hcolon).between 1 most

end Separators

theorem atLeast_literals {counted : Char → Bool} {literal : String}
    {count : Nat} (h : count ≤ literal.toList.countP counted) :
    Regex.AtLeast counted count (.literals literal) := by
  intro text matched
  rw [Regex.matches_literals_iff.mp matched]
  exact h

theorem atLeast_ipv6 : Regex.AtLeast isSeparator 2 ipv6 := by
  have hcolon : isSeparator ':' = true := rfl
  have hgroups := atLeast_groups hcolon
  have hcolons := atLeast_colons hcolon
  have hliteral : Regex.AtLeast isSeparator 1 (.literal ':') :=
    Regex.atLeast_literal hcolon
  apply Regex.AtLeast.anyOf
  simp only [List.forall_mem_cons, List.not_mem_nil, false_imp_iff,
    implies_true, and_true]
  refine ⟨?_, (hgroups 7).seq hliteral,
    (hgroups 6).seq (atLeast_colonGroup hcolon),
    (hgroups 5).seq (hcolons 2), (hgroups 4).seq (hcolons 3),
    (hgroups 3).seq (hcolons 4), (hgroups 2).seq (hcolons 5),
    (atLeast_groupColon hcolon).seq (hcolons 6),
    hliteral.seq ((hcolons 7).alt hliteral), ?_,
    (atLeast_literals (by decide)).before,
    (hgroups 4).seq hliteral.before⟩
  · intro text h
    exact Nat.le_trans (by decide)
      (((atLeast_groupColon hcolon).exactly 7).before text h)
  · have hpercent : Regex.AtLeast isSeparator 1 (.literal '%') :=
      Regex.atLeast_literal rfl
    exact (atLeast_literals (by decide : 1 ≤ _)).seq hpercent.before.after

theorem colon_mem_of_ipv6 {text : List Char} (h : Regex.Matches ipv6 text) :
    ':' ∈ text := by
  have hcolon : (':' == ':') = true := rfl
  have hgroups := @atLeast_groups (· == ':') hcolon
  have hliteral : Regex.AtLeast (· == ':') 1 (.literal ':') :=
    Regex.atLeast_literal hcolon
  have hcount : Regex.AtLeast (· == ':') 1 ipv6 := by
    apply Regex.AtLeast.anyOf
    simp only [List.forall_mem_cons, List.not_mem_nil, false_imp_iff,
      implies_true, and_true]
    refine ⟨?_, (hgroups 7).before, (hgroups 6).before, (hgroups 5).before,
      (hgroups 4).before, (hgroups 3).before, (hgroups 2).before,
      (@atLeast_groupColon (· == ':') hcolon).before, hliteral.before,
      (atLeast_literals (by decide)).before,
      (atLeast_literals (by decide)).before, (hgroups 4).before⟩
    intro seven hseven
    exact Nat.le_trans (by decide)
      (((@atLeast_groupColon (· == ':') hcolon).exactly 7).before seven hseven)
  obtain ⟨c, hc, hequal⟩ := List.countP_pos_iff.mp (hcount text h)
  rw [beq_iff_eq.mp hequal] at hc
  exact hc

theorem mem_of_isIpv4 {host : List Char} {c : Char} (h : IsIpv4 host)
    (hc : c ∈ host) : c.isDigit = true ∨ c = '.' := by
  obtain ⟨numbers, _, hall, rfl⟩ := h
  rcases mem_intercalate hc with hdot | ⟨number, hnumber, hin⟩
  · exact .inr hdot
  · exact .inl ((hall number hnumber).1.all c hin)

theorem colon_not_mem_of_isIpv4 {host : List Char} (h : IsIpv4 host) :
    ':' ∉ host := by
  intro hcolon
  exact absurd (mem_of_isIpv4 h hcolon) (by decide)

theorem isIpv4_ne_nil {host : List Char} (h : IsIpv4 host) : host ≠ [] := by
  rintro rfl
  exact absurd (matches_ipv4_iff.mpr h) (by
    rw [← Regex.acceptsList_iff]
    decide)

theorem isUnreserved_of_isDigit {c : Char} (h : c.isDigit = true) :
    UrlHost.isUnreserved c = true := by
  rw [UrlHost.isUnreserved, Char.isAlphanum, h, Bool.or_true, Bool.true_or]

theorem isHost_of_isIpv4 {host : List Char} (h : IsIpv4 host) :
    UrlHost.IsHost host := by
  apply UrlHost.isHost_of_unreserved (isIpv4_ne_nil h)
  intro c hc
  rcases mem_of_isIpv4 h hc with hdigit | rfl
  · exact isUnreserved_of_isDigit hdigit
  · rfl

/-- An IPv6 address without brackets is no host of a URL. -/
theorem isHost_literal_iff {text : List Char}
    (matched : Regex.Matches (.alt ipv4 ipv6) text) :
    UrlHost.IsHost text ↔ IsIpv4 text := by
  constructor
  · intro hhost
    rcases Regex.matches_alt_iff.mp matched with hfour | hsix
    · exact matches_ipv4_iff.mp hfour
    · obtain ⟨inner, hinner⟩ :=
        UrlHost.bracketed_of_colon hhost (colon_mem_of_ipv6 hsix)
      have hbracket : '[' ∉ text :=
        Regex.not_mem_of_rejects matched (by decide)
      rw [hinner] at hbracket
      exact absurd List.mem_cons_self hbracket
  · exact isHost_of_isIpv4

/-! Literals with a port. -/

def IsIpv4Literal (name : String) : Prop :=
  ∃ host port, IsIpv4 host ∧ IsPortText port ∧
    name.toList = host ++ portText port

theorem countP_portText {port : Option String} (isPort : IsPortText port) :
    (portText port).countP isSeparator ≤ 1 := by
  cases port with
  | none => exact Nat.zero_le 1
  | some digits =>
      have hdigits : digits.toList.countP isSeparator = 0 := by
        rw [List.countP_eq_zero]
        intro c hc hseparator
        have hdigit := (isPort digits rfl).2 c hc
        simp only [isSeparator, Bool.or_eq_true, beq_iff_eq] at hseparator
        rcases hseparator with rfl | rfl
        · exact absurd hdigit (by decide)
        · exact absurd hdigit (by decide)
      rw [portText, List.countP_cons, hdigits]
      decide

section Literal

variable {name : String} {host : List Char} {port found : Option String}

/-- Whatever host without separators stands before the port, it is the literal
that is recognised. -/
theorem ipv4_of_isIpLiteral (plain : ∀ c ∈ host, isSeparator c = false)
    (htext : name.toList = host ++ portText port) (isPort : IsPortText port)
    (h : isIpLiteral name = some found) : IsIpv4 host ∧ found = port := by
  obtain ⟨head, hhead, hfound, _⟩ := matchHost_eq_some h
  rcases Regex.matches_alt_iff.mp hhead with hfour | hsix
  · have hipv4 := matches_ipv4_iff.mp hfour
    have hcolon : ':' ∉ host := by
      intro hcolon
      exact absurd (plain ':' hcolon) (by decide)
    obtain ⟨rfl, rfl⟩ := parts_inj (colon_not_mem_of_isIpv4 hipv4) hcolon
      (hfound.symm.trans htext)
    exact ⟨hipv4, rfl⟩
  · have hcount := atLeast_ipv6 head hsix
    have hhost : host.countP isSeparator = 0 := by
      rw [List.countP_eq_zero]
      intro c hc
      rw [plain c hc]
      exact Bool.false_ne_true
    have hsame := congrArg (List.countP isSeparator)
      (hfound.symm.trans htext)
    rw [List.countP_append, List.countP_append, hhost] at hsame
    have hport := countP_portText isPort
    omega

theorem plain_of_isIpv4 (h : IsIpv4 host) :
    ∀ c ∈ host, isSeparator c = false := by
  intro c hc
  rw [Bool.eq_false_iff]
  intro hseparator
  simp only [isSeparator, Bool.or_eq_true, beq_iff_eq] at hseparator
  have hclass := mem_of_isIpv4 h hc
  rcases hseparator with rfl | rfl
  · exact absurd hclass (by decide)
  · exact absurd hclass (by decide)

theorem isIpLiteral_of_isIpv4 (h : IsIpv4 host)
    (htext : name.toList = host ++ portText port) (isPort : IsPortText port) :
    isIpLiteral name = some port := by
  obtain ⟨found, hfound⟩ := matchHost_isSome
    (Regex.matches_alt_iff.mpr (.inl (matches_ipv4_iff.mpr h))) htext isPort
    (fun _ hlast =>
      colon_not_mem_of_isIpv4 h (List.mem_of_getLast? hlast))
  obtain ⟨_, rfl⟩ :=
    ipv4_of_isIpLiteral (plain_of_isIpv4 h) htext isPort hfound
  exact hfound

def portDigits : Option String → List Char
  | none => "8448".toList
  | some digits => digits.toList

theorem isDigit_of_mem_portDigits (isPort : IsPortText port) :
    portDigits port ≠ [] ∧ ∀ c ∈ portDigits port, c.isDigit = true := by
  cases port with
  | none => exact ⟨by decide, List.all_eq_true.mp (by decide)⟩
  | some digits => exact isPort digits rfl

theorem toList_literalUrl (htext : name.toList = host ++ portText port) :
    (literalUrl name port).toList =
      "https://".toList ++ (host ++ ':' :: portDigits port) ++ ['/'] := by
  cases port with
  | none =>
      rw [literalUrl, String.toList_append, String.toList_append, htext]
      simp [portText, portDigits]
  | some digits =>
      rw [literalUrl, String.toList_append, String.toList_append, htext]
      simp [portText, portDigits]

theorem isBaseUrl_joined_iff {url : String} (isPort : IsPortText port)
    (hurl : url.toList =
      "https://".toList ++ (host ++ ':' :: portDigits port) ++ ['/']) :
    UrlHost.IsBaseUrl url ↔ UrlHost.IsHost host := by
  obtain ⟨hnonempty, hdigits⟩ := isDigit_of_mem_portDigits isPort
  rw [UrlHost.isBaseUrl_iff hurl,
    UrlHost.isAuthority_joined_iff hnonempty hdigits]

theorem isBaseUrl_literalUrl_iff (h : isIpLiteral name = some port) :
    UrlHost.IsBaseUrl (literalUrl name port) ↔ IsIpv4Literal name := by
  obtain ⟨head, hhead, htext, hport⟩ := matchHost_eq_some h
  rw [isBaseUrl_joined_iff hport (toList_literalUrl htext),
    isHost_literal_iff hhead]
  constructor
  · intro hipv4
    exact ⟨head, port, hipv4, hport, htext⟩
  · rintro ⟨other, another, hipv4, hanother, hsame⟩
    obtain ⟨_, rfl⟩ :=
      ipv4_of_isIpLiteral (plain_of_isIpv4 hipv4) hsame hanother h
    rw [List.append_cancel_right (htext.symm.trans hsame)]
    exact hipv4

end Literal

/-! Names of hosts. -/

theorem isUnreserved_of_isLabelChar {c : Char} (h : isLabelChar c = true) :
    UrlHost.isUnreserved c = true := by
  rw [isLabelChar, Bool.or_eq_true, beq_iff_eq] at h
  rcases h with halphanum | rfl
  · rw [UrlHost.isUnreserved, halphanum, Bool.true_or]
  · rfl

theorem isHost_of_isHost {host : List Char} (h : IsHost host) :
    UrlHost.IsHost host := by
  apply UrlHost.isHost_of_unreserved (host_ne_nil h)
  intro c hc
  rcases mem_host h hc with hlabel | rfl
  · exact isUnreserved_of_isLabelChar hlabel
  · rfl

def topLabel (host : List Char) : List Char :=
  (host.reverse.takeWhile (· != '.')).reverse

theorem topLabel_labels {init : List (List Char)} {last : List Char}
    (hlast : '.' ∉ last) :
    topLabel (['.'].intercalate (init ++ [last])) = last := by
  have hreverse : '.' ∉ last.reverse := mt List.mem_reverse.mp hlast
  have hall : ∀ c ∈ last.reverse, (c != '.') = true := by
    intro c hc
    rw [bne_iff_ne]
    rintro rfl
    exact hreverse hc
  rw [← Regex.flatten_append_last, topLabel, List.reverse_append,
    List.takeWhile_append_of_pos hall]
  cases init using List.reverseRecOn with
  | nil => simp
  | append_singleton before item => simp

theorem matches_label {text : List Char} (h : IsLabel text) :
    Regex.Matches label text := by
  simp only [label, Regex.matches_seq_iff, Regex.matches_optional_iff,
    Regex.matches_one_iff, Regex.many, Regex.matches_run_iff]
  cases text using List.reverseRecOn with
  | nil => exact absurd rfl h.nonempty
  | append_singleton before last =>
      have hlast : last.isAlphanum = true := by
        apply isAlphanum_of_ne (h.all last (by simp))
        have := h.last
        rw [List.getLast?_concat] at this
        exact fun hhyphen => this (congrArg some hhyphen)
      refine ⟨before, [last], rfl, ?_, last, hlast, rfl⟩
      cases before with
      | nil => exact .inr rfl
      | cons first middle =>
          have hfirst : first.isAlphanum = true := by
            apply isAlphanum_of_ne (h.all first (by simp))
            have := h.first
            exact fun hhyphen => this (congrArg some hhyphen)
          refine .inl ⟨[first], middle, rfl, ⟨first, hfirst, rfl⟩, ?_,
            Nat.zero_le _, ?_⟩
          · intro c hc
            exact h.all c (by simp [hc])
          · intro bound hbound
            cases hbound

theorem matches_lastLabel_iff {text : List Char} (h : IsLabel text) :
    Regex.Matches lastLabel text ↔ text.head?.any Char.isAlpha = true := by
  simp only [lastLabel, Regex.sequence, Regex.matches_alt_iff,
    Regex.matches_seq_iff, Regex.matches_one_iff, Regex.many,
    Regex.matches_run_iff]
  constructor
  · rintro (⟨_, _, rfl, ⟨c, hc, rfl⟩, _⟩ | ⟨c, hc, rfl⟩)
    · exact hc
    · exact hc
  · intro halpha
    cases text with
    | nil => exact absurd rfl h.nonempty
    | cons first rest =>
        have hfirst : first.isAlpha = true := halpha
        cases rest using List.reverseRecOn with
        | nil => exact .inr ⟨first, hfirst, rfl⟩
        | append_singleton middle last =>
            have hlast : last.isAlphanum = true := by
              apply isAlphanum_of_ne (h.all last (by simp))
              have := h.last
              rw [← List.cons_append, List.getLast?_concat] at this
              exact fun hhyphen => this (congrArg some hhyphen)
            refine .inl ⟨[first], middle ++ [last], rfl, ⟨first, hfirst, rfl⟩,
              middle, [last], rfl, ⟨?_, Nat.zero_le _,
                fun _ hnone => nomatch hnone⟩, last, hlast, rfl⟩
            intro c hc
            exact h.all c (by simp [hc])

theorem char_of_hostname {text : List Char} {c : Char}
    (matched : Regex.Matches hostname text) (hc : c ∈ text) :
    UrlHost.isUnreserved c = true := by
  by_contra hreserved
  have hclass : c.isAlphanum = false ∧ c ≠ '-' ∧ c ≠ '.' := by
    rw [UrlHost.isUnreserved, Bool.or_eq_true, not_or,
      Bool.not_eq_true] at hreserved
    refine ⟨hreserved.1, ?_, ?_⟩
    · rintro rfl
      exact hreserved.2 (by decide)
    · rintro rfl
      exact hreserved.2 (by decide)
  obtain ⟨halphanum, hhyphen, hdot⟩ := hclass
  have halpha : c.isAlpha = false := by
    rw [Char.isAlphanum, Bool.or_eq_false_iff] at halphanum
    exact halphanum.1
  refine Regex.not_mem_of_rejects matched ?_ hc
  simp [hostname, label, lastLabel, Regex.sequence, Regex.rejects,
    Regex.optional, Regex.many, Regex.one, Regex.literal, isLabelChar,
    halphanum, hhyphen, hdot, halpha]

theorem dot_not_mem_lastLabel {text : List Char}
    (h : Regex.Matches lastLabel text) : '.' ∉ text :=
  Regex.not_mem_of_rejects h (by decide)

/-- A host of a server name is a hostname just when its last label starts with
a letter. -/
theorem matches_hostname_iff {host : List Char} (h : IsHost host) :
    Regex.Matches hostname host ↔
      (topLabel host).head?.any Char.isAlpha = true := by
  obtain ⟨labels, hnonempty, hall, rfl, _⟩ := h
  obtain ⟨init, last, rfl⟩ : ∃ init last, labels = init ++ [last] :=
    ⟨_, _, (List.dropLast_append_getLast hnonempty).symm⟩
  have hlast := hall last (by simp)
  rw [topLabel_labels (dot_not_mem hlast), ← matches_lastLabel_iff hlast]
  simp only [hostname, Regex.sequence, Regex.matches_seq_iff,
    Regex.matches_star_iff, Regex.matches_optional_iff,
    Regex.matches_literal_iff]
  constructor
  · rintro ⟨front, _, hsame, ⟨parts, hparts⟩, final, dot, rfl, hfinal, hdot⟩
    obtain ⟨items, _, rfl, rfl⟩ := Regex.cut_separator_iff.mp hparts
    have htop : topLabel (['.'].intercalate (items ++ [final])) = final :=
      topLabel_labels (dot_not_mem_lastLabel hfinal)
    rcases hdot with rfl | rfl
    · rw [← Regex.flatten_append_last, ← List.append_assoc] at hsame
      have hends := congrArg List.getLast? hsame
      rw [List.getLast?_append_of_ne_nil _ hlast.nonempty,
        List.getLast?_concat] at hends
      exact absurd (List.mem_of_getLast? hends) (dot_not_mem hlast)
    · rw [List.append_nil, Regex.flatten_append_last] at hsame
      have hlabel := @topLabel_labels init last (dot_not_mem hlast)
      rw [hsame, htop] at hlabel
      rw [← hlabel]
      exact hfinal
  · intro hmatched
    refine ⟨_, _, (Regex.flatten_append_last init last).symm,
      ⟨_, Regex.cut_separator_iff.mpr ⟨init, ?_, rfl, rfl⟩⟩, last, [],
      (List.append_nil _).symm, hmatched, .inr rfl⟩
    intro one hone
    exact matches_label (hall one (by simp [hone]))

end TwakeKickstart.MatrixResolve
