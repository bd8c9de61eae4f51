import TwakeKickstart.Library.LdapFilter
import TwakeKickstart.Library.Utf8

namespace TwakeKickstart.Library

namespace Ldap

/-! What a filter asks, apart from how it is written. -/

/-- The bytes to compare with; `none` is an asterisk, which stands for any
number of them.  An asterisk alone asks for a value. -/
abbrev Assertion := List (Option UInt8)

inductive Tree where
  | and (parts : List Tree)
  | or (parts : List Tree)
  | not (part : Tree)
  | test (key rule : List Char) (assertion : Assertion)

def hexDigit (c : Char) : Nat :=
  if c.isDigit then c.toNat - '0'.toNat
  else if 'a' ≤ c then c.toNat - 'a'.toNat + 10
  else c.toNat - 'A'.toNat + 10

def hexByte (high low : Char) : UInt8 :=
  UInt8.ofNat (16 * hexDigit high + hexDigit low)

def charBytes (c : Char) : Assertion :=
  (String.utf8EncodeChar c).map some

/-- A backslash and two digits are a byte. -/
def decode : List Char → Assertion
  | '\\' :: high :: low :: rest => some (hexByte high low) :: decode rest
  | '*' :: rest => none :: decode rest
  | c :: rest => charBytes c ++ decode rest
  | [] => []

mutual

def Filter.meaning : Filter → Tree
  | .and parts => .and parts.meanings
  | .or parts => .or parts.meanings
  | .not part => .not part.meaning
  | .item item => .test item.key item.rule (decode item.value)

def Filters.meanings : Filters → List Tree
  | .last filter => [filter.meaning]
  | .more filter rest => filter.meaning :: rest.meanings

end

def Filters.toList : Filters → List Filter
  | .last filter => [filter]
  | .more filter rest => filter :: rest.toList

theorem Filters.text_toList (parts : Filters) :
    parts.text = parts.toList.flatMap Filter.text := by
  induction parts using Filters.toList.induct with
  | case1 filter => simp [Filters.text, Filters.toList]
  | case2 filter rest ih => simp [Filters.text, Filters.toList, ih]

theorem Filters.meanings_toList (parts : Filters) :
    parts.meanings = parts.toList.map Filter.meaning := by
  induction parts using Filters.toList.induct with
  | case1 filter => simp [Filters.meanings, Filters.toList]
  | case2 filter rest ih => simp [Filters.meanings, Filters.toList, ih]

/-! The filter that a text begins with is the only one, and a text that is
parsed is the text of what it is parsed to. -/

theorem text_inj {filter other : Filter} {rest after : List Char}
    (h : filter.text ++ rest = other.text ++ after) :
    filter = other ∧ rest = after := by
  have hfilter := parseFilter_text filter other.cost rest
  have hother := parseFilter_text other filter.cost after
  rw [h, Nat.add_comm, hother] at hfilter
  cases hfilter
  exact ⟨rfl, rfl⟩

theorem dropWhile_stop {p : Char → Bool} {chars rest : List Char} {stop : Char}
    (h : chars.dropWhile p = stop :: rest) :
    chars = chars.takeWhile p ++ stop :: rest ∧ p stop = false := by
  induction chars with
  | nil => cases h
  | cons c chars ih =>
      rw [List.dropWhile_cons] at h
      rw [List.takeWhile_cons]
      cases hc : p c with
      | false =>
          rw [hc] at h
          cases h
          exact ⟨rfl, hc⟩
      | true =>
          rw [hc] at h
          obtain ⟨heq, hstop⟩ := ih h
          refine ⟨?_, hstop⟩
          rw [if_pos rfl, List.cons_append, ← heq]

theorem body_of_parseBody {body : List Char} {item : Item}
    (h : parseBody body = some item) : item.body = body := by
  unfold parseBody at h
  cases hvalue : (body.dropWhile isKeyChar).dropWhile (· != '=') with
  | nil =>
      simp only [hvalue] at h
      cases h
  | cons stop value =>
      simp only [hvalue] at h
      obtain ⟨hrest, hstop⟩ := dropWhile_stop hvalue
      have hequals : stop = '=' := by simpa using hstop
      split at h
      · cases h
        subst hequals
        rw [Item.body, ← hrest]
        exact List.takeWhile_append_dropWhile
      · cases h

theorem text_of_parseItem {text rest : List Char} {filter : Filter}
    (h : parseItem text = some (filter, rest)) :
    '(' :: text = filter.text ++ rest := by
  unfold parseItem at h
  cases hrest : text.dropWhile (· != ')') with
  | nil =>
      rw [hrest] at h
      cases h
  | cons stop after =>
      rw [hrest] at h
      obtain ⟨htext, hstop⟩ := dropWhile_stop hrest
      have hcloses : stop = ')' := by simpa using hstop
      obtain ⟨item, hitem, heq⟩ := Option.map_eq_some_iff.mp h
      cases heq
      rw [Filter.text, body_of_parseBody hitem]
      rw [hcloses] at htext
      simpa using htext

mutual

theorem text_of_parseFilter (fuel : Nat) {text rest : List Char}
    {filter : Filter} (h : parseFilter fuel text = some (filter, rest)) :
    text = filter.text ++ rest := by
  unfold parseFilter at h
  split at h
  · cases h
  · rename_i fuel text
    obtain ⟨parts, hparts, heq⟩ := Option.map_eq_some_iff.mp h
    cases heq
    have htext := text_of_parseFilters fuel hparts
    rw [htext, Filter.text]
    simp
  · rename_i fuel text
    obtain ⟨parts, hparts, heq⟩ := Option.map_eq_some_iff.mp h
    cases heq
    have htext := text_of_parseFilters fuel hparts
    rw [htext, Filter.text]
    simp
  · rename_i fuel text
    obtain ⟨part, hpart, heq⟩ := Option.bind_eq_some_iff.mp h
    split at heq
    · cases heq
      have htext := text_of_parseFilter fuel hpart
      rw [htext, Filter.text]
      simp
    · cases heq
  · exact text_of_parseItem h
  · cases h

theorem text_of_parseFilters (fuel : Nat) {text rest : List Char}
    {parts : Filters} (h : parseFilters fuel text = some (parts, rest)) :
    text = parts.text ++ ')' :: rest := by
  unfold parseFilters at h
  split at h
  · cases h
  · rename_i fuel
    obtain ⟨part, hpart, heq⟩ := Option.bind_eq_some_iff.mp h
    have htext := text_of_parseFilter fuel hpart
    split at heq
    · cases heq
      rw [htext, Filters.text]
    · rename_i filter after _
      obtain ⟨others, hothers, hmore⟩ := Option.map_eq_some_iff.mp heq
      cases hmore
      rw [htext, Filters.text, text_of_parseFilters fuel hothers,
        List.append_assoc]

end

theorem text_of_parse {text : List Char} {filter : Filter}
    (h : parse text = some filter) : filter.text = text := by
  unfold parse at h
  split at h
  · rename_i hparse
    cases h
    rw [text_of_parseFilter _ hparse, List.append_nil]
  · cases h

/-! What is written for a value, and what it is read as. -/

theorem encode_cons (c : Char) (rest : List Char) :
    Utf8.encode (c :: rest) = String.utf8EncodeChar c ++ Utf8.encode rest :=
  rfl

theorem encode_append (front back : List Char) :
    Utf8.encode (front ++ back) = Utf8.encode front ++ Utf8.encode back :=
  List.flatMap_append

theorem length_charBytes_pos (c : Char) : 0 < (charBytes c).length := by
  rw [charBytes, List.length_map, String.length_utf8EncodeChar]
  exact c.utf8Size_pos

theorem length_charBytes (c : Char) :
    (charBytes c).length = (String.utf8EncodeChar c).length :=
  List.length_map _

theorem length_encode_cons (c : Char) (rest : List Char) :
    (Utf8.encode (c :: rest)).length =
      (charBytes c).length + (Utf8.encode rest).length := by
  rw [encode_cons, List.length_append, length_charBytes]

theorem length_decode_le (value : List Char) :
    (decode value).length ≤ (Utf8.encode value).length := by
  induction value using decode.induct with
  | case1 high low rest ih =>
      have hlow := length_charBytes_pos low
      rw [decode, List.length_cons, length_encode_cons, length_encode_cons,
        length_encode_cons]
      have hescape := length_charBytes_pos '\\'
      omega
  | case2 rest ih =>
      have hstar := length_charBytes_pos '*'
      rw [decode, List.length_cons, length_encode_cons]
      omega
  | case3 c rest _ _ ih =>
      rw [decode, List.length_append, length_encode_cons]
      · omega
      · assumption
      · assumption
  | case4 => exact Nat.le_refl 0

theorem length_decode_lt {value : List Char}
    (escapes : escapesWell value = true) (h : '\\' ∈ value) :
    (decode value).length < (Utf8.encode value).length := by
  induction value using decode.induct with
  | case1 high low rest ih =>
      have hrest := length_decode_le rest
      have hescape := length_charBytes_pos '\\'
      have hhigh := length_charBytes_pos high
      rw [decode, List.length_cons, length_encode_cons, length_encode_cons,
        length_encode_cons]
      omega
  | case2 rest ih =>
      have hmem : '\\' ∈ rest := by simpa using h
      rw [escapesWell, Bool.and_eq_true] at escapes
      have hrest := ih escapes.2 hmem
      have hstar := length_charBytes_pos '*'
      rw [decode, List.length_cons, length_encode_cons]
      omega
  | case3 c rest hescape _ ih =>
      rw [escapesWell, Bool.and_eq_true] at escapes
      rw [List.mem_cons] at h
      cases h with
      | inl heq =>
          subst heq
          have hdigits : (rest.take 2).length = 2 := by
            have hfirst := escapes.1
            simp only [bne_self_eq_false, Bool.false_or, Bool.and_eq_true,
              beq_iff_eq] at hfirst
            exact hfirst.1
          cases rest with
          | nil => cases hdigits
          | cons high rest =>
              cases rest with
              | nil => cases hdigits
              | cons low rest => exact (hescape high low rest rfl rfl).elim
      | inr hmem =>
          have hrest := ih escapes.2 hmem
          rw [decode, List.length_append, length_encode_cons]
          · omega
          · assumption
          · assumption
  | case4 => cases h

section Unescaped

variable {value : List Char}

theorem decode_cons {c : Char} (unescaped : c ≠ '\\') (rest : List Char) :
    decode (c :: rest) =
      (if c = '*' then [none] else charBytes c) ++ decode rest := by
  by_cases hstar : c = '*'
  · subst hstar
    rw [decode, if_pos rfl]
    rfl
  · rw [decode, if_neg hstar]
    · intro high low _ heq _
      exact unescaped heq
    · exact hstar

theorem decode_append (unescaped : '\\' ∉ value) (rest : List Char) :
    decode (value ++ rest) = decode value ++ decode rest := by
  induction value with
  | nil => simp [decode]
  | cons c value ih =>
      rw [List.mem_cons, not_or] at unescaped
      have hc := Ne.symm unescaped.1
      rw [List.cons_append, decode_cons hc, decode_cons hc,
        ih unescaped.2, List.append_assoc]

theorem escapesWell_of_unescaped (unescaped : '\\' ∉ value) :
    escapesWell value = true := by
  induction value with
  | nil => rfl
  | cons c rest ih =>
      rw [List.mem_cons, not_or] at unescaped
      have hc : (c != '\\') = true := bne_iff_ne.mpr (Ne.symm unescaped.1)
      rw [escapesWell, hc, ih unescaped.2]
      rfl

/-- The assertion of a value as it is. -/
def literally (value : List Char) : Assertion :=
  (Utf8.encode value).map some

theorem decode_eq_literally (unescaped : '\\' ∉ value) :
    decode value = literally value ↔ '*' ∉ value := by
  constructor
  · intro h hstar
    have hnone : none ∈ decode value := by
      obtain ⟨front, back, hvalue⟩ := List.append_of_mem hstar
      rw [hvalue, List.mem_append, not_or] at unescaped
      rw [hvalue, decode_append unescaped.1, decode_cons (by decide),
        if_pos rfl]
      simp
    rw [h, literally] at hnone
    simp at hnone
  · intro hstar
    induction value with
    | nil => simp [decode, literally, Utf8.encode]
    | cons c rest ih =>
        rw [List.mem_cons, not_or] at unescaped hstar
        rw [decode_cons (Ne.symm unescaped.1), if_neg (Ne.symm hstar.1),
          ih unescaped.2 hstar.2, literally, literally, encode_cons,
          List.map_append]
        rfl

end Unescaped

/-! What a text is read as, wherever it stands. -/

/-- The text is written for the tree when `plain` holds, and where it is read
as the tree, `plain` does hold. -/
structure ReadAs (text : List Char) (tree : Tree) (plain : Prop) : Prop where
  written : plain → ∃ filter : Filter,
    filter.text = text ∧ filter.meaning = tree
  read : ∀ (filter : Filter) (rest after : List Char),
    filter.meaning = tree → filter.text ++ rest = text ++ after →
      plain ∧ rest = after

theorem ReadAs.congr {text : List Char} {tree : Tree} {plain plain' : Prop}
    (h : ReadAs text tree plain) (iff : plain ↔ plain') :
    ReadAs text tree plain' :=
  propext iff ▸ h

def itemText (key spelled : List Char) : List Char :=
  '(' :: (key ++ '=' :: spelled) ++ [')']

theorem of_meaning_test {filter : Filter} {key rule : List Char}
    {assertion : Assertion} (h : filter.meaning = .test key rule assertion) :
    ∃ item : Item, filter = .item item ∧ item.key = key ∧ item.rule = rule ∧
      decode item.value = assertion := by
  cases filter with
  | and parts =>
      rw [Filter.meaning] at h
      cases h
  | or parts =>
      rw [Filter.meaning] at h
      cases h
  | not part =>
      rw [Filter.meaning] at h
      cases h
  | item item =>
      rw [Filter.meaning] at h
      cases h
      exact ⟨item, rfl, rfl, rfl, rfl⟩

theorem of_meaning_and {filter : Filter} {trees : List Tree}
    (h : filter.meaning = .and trees) :
    ∃ parts, filter = .and parts ∧
      parts.toList.map Filter.meaning = trees := by
  cases filter with
  | and parts =>
      rw [Filter.meaning] at h
      cases h
      exact ⟨parts, rfl, parts.meanings_toList.symm⟩
  | or parts =>
      rw [Filter.meaning] at h
      cases h
  | not part =>
      rw [Filter.meaning] at h
      cases h
  | item item =>
      rw [Filter.meaning] at h
      cases h

theorem of_meaning_or {filter : Filter} {trees : List Tree}
    (h : filter.meaning = .or trees) :
    ∃ parts, filter = .or parts ∧
      parts.toList.map Filter.meaning = trees := by
  cases filter with
  | and parts =>
      rw [Filter.meaning] at h
      cases h
  | or parts =>
      rw [Filter.meaning] at h
      cases h
      exact ⟨parts, rfl, parts.meanings_toList.symm⟩
  | not part =>
      rw [Filter.meaning] at h
      cases h
  | item item =>
      rw [Filter.meaning] at h
      cases h

/-- A text without the bracket that ends with it is the other one, or the other
one goes on. -/
theorem close_inj {value spelled rest after : List Char}
    (open_ : ')' ∉ value)
    (h : value ++ ')' :: rest = spelled ++ ')' :: after) :
    value = spelled ∧ rest = after ∨
      ∃ more, spelled = value ++ ')' :: more := by
  rw [List.append_eq_append_iff] at h
  cases h with
  | inl h =>
      obtain ⟨more, hspelled, hrest⟩ := h
      cases more with
      | nil =>
          rw [List.append_nil] at hspelled
          cases hrest
          exact .inl ⟨hspelled.symm, rfl⟩
      | cons c more =>
          cases hrest
          exact .inr ⟨more, hspelled⟩
  | inr h =>
      obtain ⟨more, hvalue, hafter⟩ := h
      cases more with
      | nil =>
          rw [List.append_nil] at hvalue
          cases hafter
          exact .inl ⟨hvalue, rfl⟩
      | cons c more =>
          cases hafter
          rw [hvalue] at open_
          exact absurd (List.mem_append_right _ List.mem_cons_self) open_

/-- An item is read as an assertion of as many bytes only where it is written
without escapes. -/
theorem readAs_item {key spelled : List Char} {assertion : Assertion}
    (named : key ≠ []) (keyChars : key.all isKeyChar = true)
    (length : assertion.length = (Utf8.encode spelled).length) :
    ReadAs (itemText key spelled) (.test key [] assertion)
      (spelled.all isValueChar = true ∧ '\\' ∉ spelled ∧
        decode spelled = assertion) := by
  constructor
  · intro plain
    obtain ⟨hchars, hunescaped, hdecode⟩ := plain
    refine ⟨.item ⟨key, [], spelled, named, keyChars, ruleChars_nil,
      ruleStart_nil, hchars, escapesWell_of_unescaped hunescaped⟩, ?_, ?_⟩
    · simp [Filter.text, Item.body, itemText]
    · rw [Filter.meaning, ← hdecode]
  · intro filter rest after hmeaning htext
    obtain ⟨item, rfl, rfl, hrule, hdecode⟩ := of_meaning_test hmeaning
    have hvalue : item.value ++ ')' :: rest = spelled ++ ')' :: after := by
      simpa [Filter.text, Item.body, itemText, hrule] using htext
    have hopen : ')' ∉ item.value := by
      intro hmem
      exact absurd (List.all_eq_true.mp item.valueChars _ hmem) (by decide)
    cases close_inj hopen hvalue with
    | inl h =>
        obtain ⟨hspelled, hrest⟩ := h
        rw [hspelled] at hdecode
        refine ⟨⟨hspelled ▸ item.valueChars, ?_, hdecode⟩, hrest⟩
        intro hescape
        have hshort := length_decode_lt (hspelled ▸ item.escapes) hescape
        rw [hdecode, length] at hshort
        exact absurd hshort (Nat.lt_irrefl _)
    | inr h =>
        obtain ⟨more, hspelled⟩ := h
        have hshort := length_decode_le item.value
        have hcloses := length_charBytes_pos ')'
        rw [hdecode, length, hspelled, encode_append, List.length_append,
          length_encode_cons] at hshort
        omega

/-- A character that a value can have without an escape, and that stands for
itself. -/
def isLiteralChar (c : Char) : Bool :=
  isValueChar c && c != '\\' && c != '*'

theorem all_isLiteralChar {value : List Char} :
    value.all isLiteralChar = true ↔
      value.all isValueChar = true ∧ '\\' ∉ value ∧ '*' ∉ value := by
  induction value with
  | nil => simp
  | cons c rest ih =>
      rw [List.all_cons, List.all_cons, Bool.and_eq_true, Bool.and_eq_true,
        ih, List.mem_cons, List.mem_cons, not_or, not_or, isLiteralChar,
        Bool.and_eq_true, Bool.and_eq_true, bne_iff_ne, bne_iff_ne,
        ne_comm (a := c), ne_comm (a := c)]
      tauto

section Items

variable {key : List Char} (named : key ≠ [])
variable (keyChars : key.all isKeyChar = true)

include named keyChars

theorem readAs_equal (value : List Char) :
    ReadAs (itemText key value) (.test key [] (literally value))
      (value.all isLiteralChar = true) := by
  refine (readAs_item named keyChars (List.length_map _)).congr ?_
  rw [all_isLiteralChar]
  apply and_congr_right
  intro _
  apply and_congr_right
  exact decode_eq_literally

theorem readAs_present :
    ReadAs (itemText key ['*']) (.test key [] [none]) True := by
  refine (readAs_item named keyChars rfl).congr ?_
  refine iff_of_true ⟨by decide, by decide, ?_⟩ trivial
  rw [decode, decode]

theorem readAs_containing (value : List Char) :
    ReadAs (itemText key ('*' :: (value ++ ['*'])))
      (.test key [] (none :: (literally value ++ [none])))
      (value.all isLiteralChar = true) := by
  have hlength : (none :: (literally value ++ [none]) : Assertion).length =
      (Utf8.encode ('*' :: (value ++ ['*']))).length := by
    rw [length_encode_cons, encode_append, List.length_append,
      List.length_cons, List.length_append, literally, List.length_map]
    exact Nat.add_comm _ 1
  refine (readAs_item named keyChars hlength).congr ?_
  rw [all_isLiteralChar]
  have hchars : ('*' :: (value ++ ['*'])).all isValueChar = true ↔
      value.all isValueChar = true := by
    rw [List.all_cons, List.all_append]
    simp [isValueChar]
  have hescape : '\\' ∉ '*' :: (value ++ ['*']) ↔ '\\' ∉ value := by
    simp
  rw [hchars, hescape]
  apply and_congr_right
  intro _
  apply and_congr_right
  intro hunescaped
  rw [← decode_eq_literally hunescaped, decode, decode_append hunescaped,
    List.cons.injEq, decode, decode]
  simp

end Items

/-! Texts one after the other. -/

/-- A part of a filter, with its text when it is written at all. -/
structure Part where
  text : List Char
  tree : Tree
  kept : Bool
  plain : Prop

/-- A part that is not written cannot be mistaken for the other one. -/
def Part.Apart (part other : Part) : Prop :=
  part.kept = false → ∀ (filter : Filter) (rest after : List Char),
    filter.meaning = part.tree → filter.text ++ rest ≠ other.text ++ after

theorem Filter.text_cons (filter : Filter) :
    ∃ rest, filter.text = '(' :: rest := by
  obtain ⟨rest, h⟩ := (Filters.last filter).text_cons
  rw [Filters.text] at h
  exact ⟨rest, h⟩

theorem read_parts {parts : List Part}
    (reads : ∀ part ∈ parts, part.kept = true →
      ReadAs part.text part.tree part.plain)
    (apart : parts.Pairwise Part.Apart)
    {filters : List Filter} {rest after : List Char}
    (meanings : filters.map Filter.meaning = parts.map Part.tree)
    (h : filters.flatMap Filter.text ++ ')' :: rest =
      (parts.filter Part.kept).flatMap Part.text ++ ')' :: after) :
    (∀ part ∈ parts, part.kept = true ∧ part.plain) ∧ rest = after := by
  induction parts generalizing filters with
  | nil =>
      rw [List.map_nil, List.map_eq_nil_iff] at meanings
      subst meanings
      cases h
      exact ⟨List.forall_mem_nil _, rfl⟩
  | cons part parts ih =>
      obtain ⟨filter, filters, rfl, hmeaning, hmeanings⟩ :=
        List.map_eq_cons_iff.mp meanings
      rw [List.pairwise_cons] at apart
      rw [List.flatMap_cons, List.append_assoc] at h
      have hothers := fun other hother =>
        reads other (List.mem_cons_of_mem part hother)
      cases hkept : part.kept with
      | true =>
          rw [List.filter_cons_of_pos hkept, List.flatMap_cons,
            List.append_assoc] at h
          obtain ⟨hplain, hrest⟩ :=
            (reads part List.mem_cons_self hkept).read filter _ _ hmeaning h
          obtain ⟨hparts, heq⟩ := ih hothers apart.2 hmeanings hrest
          exact ⟨List.forall_mem_cons.mpr ⟨⟨hkept, hplain⟩, hparts⟩, heq⟩
      | false =>
          rw [List.filter_cons_of_neg (Bool.eq_false_iff.mp hkept)] at h
          cases hnext : parts.filter Part.kept with
          | nil =>
              obtain ⟨text, htext⟩ := filter.text_cons
              rw [hnext, htext] at h
              cases h
          | cons other others =>
              have hother : other ∈ parts.filter Part.kept := by
                rw [hnext]
                exact List.mem_cons_self
              rw [hnext, List.flatMap_cons, List.append_assoc] at h
              exact absurd h (apart.1 other (List.mem_of_mem_filter hother)
                hkept filter _ _ hmeaning)

theorem write_parts {parts : List Part} (nonempty : parts ≠ [])
    (reads : ∀ part ∈ parts, part.kept = true →
      ReadAs part.text part.tree part.plain)
    (plain : ∀ part ∈ parts, part.kept = true ∧ part.plain) :
    ∃ filters : Filters, filters.text =
        (parts.filter Part.kept).flatMap Part.text ∧
      filters.meanings = parts.map Part.tree := by
  induction parts with
  | nil => exact absurd rfl nonempty
  | cons part parts ih =>
      obtain ⟨hkept, hplain⟩ := plain part List.mem_cons_self
      obtain ⟨filter, htext, hmeaning⟩ :=
        (reads part List.mem_cons_self hkept).written hplain
      rw [List.filter_cons_of_pos hkept, List.flatMap_cons, ← htext,
        List.map_cons, ← hmeaning]
      cases parts with
      | nil =>
          refine ⟨.last filter, ?_, ?_⟩
          · rw [Filters.text]
            exact (List.append_nil _).symm
          · rw [Filters.meanings]
            rfl
      | cons other parts =>
          obtain ⟨filters, htexts, hmeanings⟩ := ih (List.cons_ne_nil _ _)
            (fun part hpart => reads part (List.mem_cons_of_mem _ hpart))
            (fun part hpart => plain part (List.mem_cons_of_mem _ hpart))
          refine ⟨.more filter filters, ?_, ?_⟩
          · rw [Filters.text, htexts]
          · rw [Filters.meanings, hmeanings]

section Groups

variable {parts : List Part} (nonempty : parts ≠ [])
variable (reads : ∀ part ∈ parts, part.kept = true →
  ReadAs part.text part.tree part.plain)
variable (apart : parts.Pairwise Part.Apart)

include nonempty reads apart

theorem readAs_and :
    ReadAs ('(' :: '&' ::
        ((parts.filter Part.kept).flatMap Part.text ++ [')']))
      (.and (parts.map Part.tree))
      (∀ part ∈ parts, part.kept = true ∧ part.plain) := by
  constructor
  · intro plain
    obtain ⟨filters, htext, hmeanings⟩ := write_parts nonempty reads plain
    refine ⟨.and filters, ?_, ?_⟩
    · rw [Filter.text, htext]
    · rw [Filter.meaning, hmeanings]
  · intro filter rest after hmeaning h
    obtain ⟨filters, rfl, hmeanings⟩ := of_meaning_and hmeaning
    apply read_parts reads apart hmeanings
    rw [Filter.text, filters.text_toList] at h
    simpa using h

theorem readAs_or :
    ReadAs ('(' :: '|' ::
        ((parts.filter Part.kept).flatMap Part.text ++ [')']))
      (.or (parts.map Part.tree))
      (∀ part ∈ parts, part.kept = true ∧ part.plain) := by
  constructor
  · intro plain
    obtain ⟨filters, htext, hmeanings⟩ := write_parts nonempty reads plain
    refine ⟨.or filters, ?_, ?_⟩
    · rw [Filter.text, htext]
    · rw [Filter.meaning, hmeanings]
  · intro filter rest after hmeaning h
    obtain ⟨filters, rfl, hmeanings⟩ := of_meaning_or hmeaning
    apply read_parts reads apart hmeanings
    rw [Filter.text, filters.text_toList] at h
    simpa using h

end Groups

theorem ReadAs.parse_iff {text : List Char} {tree : Tree} {plain : Prop}
    (h : ReadAs text tree plain) :
    (∃ filter, parse text = some filter ∧ filter.meaning = tree) ↔ plain := by
  constructor
  · intro parsed
    obtain ⟨filter, hparse, hmeaning⟩ := parsed
    have htext := text_of_parse hparse
    exact (h.read filter [] [] hmeaning (by rw [htext])).1
  · intro hplain
    obtain ⟨filter, htext, hmeaning⟩ := h.written hplain
    refine ⟨filter, ?_, hmeaning⟩
    rw [← htext]
    exact parse_text filter

theorem readAs_text (filter : Filter) :
    ReadAs filter.text filter.meaning True := by
  constructor
  · intro _
    exact ⟨filter, rfl, rfl⟩
  · intro other rest after _ h
    exact ⟨trivial, (text_inj h).2⟩

/-! Where the first characters tell texts apart. -/

theorem key_inj {key other a b : List Char}
    (keyChars : key.all isKeyChar = true)
    (otherChars : other.all isKeyChar = true)
    (h : key ++ '=' :: a = other ++ '=' :: b) : key = other ∧ a = b := by
  have hstop : isKeyChar '=' = false := by decide
  obtain ⟨hkey, hrest⟩ := takeWhile_stop keyChars hstop a
  obtain ⟨hother, hafter⟩ := takeWhile_stop otherChars hstop b
  rw [h] at hkey hrest
  rw [hother] at hkey
  rw [hafter] at hrest
  exact ⟨hkey.symm, (List.cons.inj hrest).2.symm⟩

theorem key_of_read {key other spelled rest after : List Char}
    {assertion : Assertion} {filter : Filter}
    (otherChars : other.all isKeyChar = true)
    (meaning : filter.meaning = .test key [] assertion)
    (h : filter.text ++ rest = itemText other spelled ++ after) :
    key = other := by
  obtain ⟨item, rfl, rfl, hrule, _⟩ := of_meaning_test meaning
  have hitem : item.key ++ '=' :: (item.value ++ ')' :: rest) =
      other ++ '=' :: (spelled ++ ')' :: after) := by
    simpa [Filter.text, Item.body, itemText, hrule] using h
  exact (key_inj item.keyChars otherChars hitem).1

theorem itemText_cons {key : List Char} (named : key ≠ [])
    (keyChars : key.all isKeyChar = true) (spelled : List Char) :
    ∃ c rest, itemText key spelled = '(' :: c :: rest ∧
      isKeyChar c = true := by
  cases key with
  | nil => exact absurd rfl named
  | cons c rest =>
      rw [List.all_cons, Bool.and_eq_true] at keyChars
      exact ⟨c, rest ++ '=' :: spelled ++ [')'], rfl, keyChars.1⟩

theorem text_of_and {filter : Filter} {trees : List Tree}
    (h : filter.meaning = .and trees) :
    ∃ rest, filter.text = '(' :: '&' :: rest := by
  obtain ⟨parts, rfl, _⟩ := of_meaning_and h
  rw [Filter.text]
  exact ⟨_, rfl⟩

theorem text_of_or {filter : Filter} {trees : List Tree}
    (h : filter.meaning = .or trees) :
    ∃ rest, filter.text = '(' :: '|' :: rest := by
  obtain ⟨parts, rfl, _⟩ := of_meaning_or h
  rw [Filter.text]
  exact ⟨_, rfl⟩

theorem text_of_test {filter : Filter} {key rule : List Char}
    {assertion : Assertion} (h : filter.meaning = .test key rule assertion) :
    ∃ c rest, filter.text = '(' :: c :: rest ∧ isKeyChar c = true := by
  obtain ⟨item, rfl, _, _, _⟩ := of_meaning_test h
  obtain ⟨c, rest, hbody, hc⟩ := body_cons item
  refine ⟨c, rest ++ [')'], ?_, hc⟩
  rw [Filter.text, hbody]
  rfl

theorem decode_of_read {key other spelled rest after : List Char}
    {assertion : Assertion} {filter : Filter}
    (otherChars : other.all isKeyChar = true) (closed : ')' ∉ spelled)
    (meaning : filter.meaning = .test key [] assertion)
    (h : filter.text ++ rest = itemText other spelled ++ after) :
    decode spelled = assertion := by
  obtain ⟨item, rfl, _, hrule, hdecode⟩ := of_meaning_test meaning
  have hitem : item.key ++ '=' :: (item.value ++ ')' :: rest) =
      other ++ '=' :: (spelled ++ ')' :: after) := by
    simpa [Filter.text, Item.body, itemText, hrule] using h
  have hopen : ')' ∉ item.value := by
    intro hmem
    exact absurd (List.all_eq_true.mp item.valueChars _ hmem) (by decide)
  cases close_inj hopen (key_inj item.keyChars otherChars hitem).2 with
  | inl h =>
      rw [← h.1]
      exact hdecode
  | inr h =>
      obtain ⟨more, hspelled⟩ := h
      rw [hspelled] at closed
      exact absurd (List.mem_append_right _ List.mem_cons_self) closed

end Ldap

end TwakeKickstart.Library
