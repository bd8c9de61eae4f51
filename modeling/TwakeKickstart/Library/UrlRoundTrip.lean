import Mathlib.Data.List.TakeWhile
import TwakeKickstart.Library.Url

namespace TwakeKickstart.Library

/-! A URL that has been parsed is parsed again as itself, and relative texts are
put behind the path of their base. -/

namespace Url

section Texts

theorem dropWhile_of_none {p : Char → Bool} {text : List Char}
    (h : ∀ c ∈ text, p c = false) : text.dropWhile p = text := by
  cases text with
  | nil => rfl
  | cons first rest =>
      have hfirst := h first List.mem_cons_self
      exact List.dropWhile_cons_of_neg (by rw [hfirst]; exact Bool.false_ne_true)

theorem not_isBreak_of_solid {c : Char} (solid : 0x21 ≤ c.toNat) :
    (!isBreak c) = true := by
  have hne : ∀ d : Char, d.toNat < 0x21 → (c == d) = false := by
    intro d hd
    rw [beq_eq_false_iff_ne]
    rintro rfl
    exact absurd solid (Nat.not_le.mpr hd)
  rw [isBreak, hne '\t' (by decide), hne '\n' (by decide),
    hne '\r' (by decide)]
  rfl

theorem cleaned_eq_self {text : List Char}
    (solid : ∀ c ∈ text, 0x21 ≤ c.toNat) : cleaned text = text := by
  have hcontrol : ∀ c ∈ text, isControl c = false := fun c hc =>
    decide_eq_false (Nat.not_le.mpr (solid c hc))
  rw [cleaned, dropWhile_of_none hcontrol, dropWhile_of_none fun c hc =>
    hcontrol c (List.mem_reverse.mp hc), List.reverse_reverse,
    List.filter_eq_self.mpr fun c hc => not_isBreak_of_solid (solid c hc)]

theorem schemeText_href (scheme : Scheme) (rest : List Char) :
    schemeText (schemeName scheme ++ ':' :: rest) =
      some (schemeName scheme, rest) := by
  cases scheme with
  | http => simp [schemeText, schemeName]
  | https => simp [schemeText, schemeName]

theorem schemeOf_schemeName (scheme : Scheme) :
    schemeOf (schemeName scheme) = some scheme := by
  cases scheme <;> rfl

theorem solid_of_not_isEncoded {others : String} {c : Char}
    (h : isEncoded others c = false) : 0x21 ≤ c.toNat := by
  rw [isEncoded, Bool.or_eq_false_iff, Bool.or_eq_false_iff] at h
  exact Nat.not_lt.mp (of_decide_eq_false h.1.1)

theorem isPathEnd_of_not_isEncoded {c : Char}
    (h : isEncoded pathSet c = false) : isPathEnd c = false := by
  have hquery : c ≠ '?' := by
    rintro rfl
    exact absurd h (by decide)
  have hfragment : c ≠ '#' := by
    rintro rfl
    exact absurd h (by decide)
  simp [isPathEnd, hquery, hfragment]

theorem encode_solid (others : String) (text : List Char) :
    ∀ c ∈ encode others text, 0x21 ≤ c.toNat := by
  intro c hc
  rcases mem_encode hc with ⟨_, hplain⟩ | rfl | ⟨n, hn, rfl⟩
  · exact solid_of_not_isEncoded hplain
  · decide
  · exact solid_of_not_isEncoded (hexDigit_plain n hn).1

theorem queryText_solid {text query : List Char}
    (h : queryText text = some query) : ∀ c ∈ query, 0x21 ≤ c.toNat := by
  rw [queryText] at h
  split at h
  · rw [← Option.some.inj h]
    exact encode_solid _ _
  · exact nomatch h

theorem fragmentText_solid {text fragment : List Char}
    (h : fragmentText text = some fragment) :
    ∀ c ∈ fragment, 0x21 ≤ c.toNat := by
  rw [fragmentText] at h
  split at h
  · rw [← Option.some.inj h]
    exact encode_solid _ _
  · exact nomatch h

section Plain

variable {text : List Char} (plain : ∀ c ∈ text, isPathEnd c = false)

include plain

theorem pathText_of_plain (rest : List Char) :
    pathText (text ++ rest) = text ++ pathText rest := by
  apply List.takeWhile_append_of_pos
  intro c hc
  rw [plain c hc]
  rfl

theorem queryText_of_plain : queryText text = none := by
  have hends : ∀ c ∈ text, (!isPathEnd c) = true := by
    intro c hc
    rw [plain c hc]
    rfl
  rw [queryText, List.dropWhile_eq_nil_iff.mpr hends]

theorem fragmentText_of_plain : fragmentText text = none := by
  have hmarks : ∀ c ∈ text, (c != '#') = true := by
    intro c hc
    have hend := plain c hc
    rw [isPathEnd, Bool.or_eq_false_iff] at hend
    rw [bne, hend.2]
    rfl
  rw [fragmentText, List.dropWhile_eq_nil_iff.mpr hmarks]

end Plain

end Texts

/-- What a URL is that has been parsed. -/
structure WellFormed (authorities : Authorities) (url : Url) : Prop where
  authority : authorities.parse url.authority = some url.authority
  nonempty : url.path ≠ []
  clean : ∀ segment ∈ url.path, IsClean segment
  query : ∀ query ∈ url.query, ∀ c ∈ query, 0x21 ≤ c.toNat
  fragment : ∀ fragment ∈ url.fragment, ∀ c ∈ fragment, 0x21 ≤ c.toNat

section WellFormed

variable {authorities : Authorities} {url : Url}

theorem parseAuthority_wellFormed {scheme : Scheme} {text : List Char}
    (h : parseAuthority authorities scheme text = some url) :
    WellFormed authorities url := by
  rw [parseAuthority, Option.map_eq_some_iff] at h
  obtain ⟨authority, hauthority, rfl⟩ := h
  constructor
  · exact authorities.again _ _ hauthority
  · exact parsePath_ne_nil _ _
  · exact parsePath_isClean _ nofun
  · exact fun query => queryText_solid
  · exact fun fragment => fragmentText_solid

theorem parse_wellFormed {text : String}
    (h : parse authorities text = some url) : WellFormed authorities url := by
  rw [parse, parseAbsolute] at h
  split at h
  · exact nomatch h
  · obtain ⟨scheme, _, hparse⟩ := Option.bind_eq_some_iff.mp h
    exact parseAuthority_wellFormed hparse

namespace WellFormed

theorem mem_pathname (wellFormed : WellFormed authorities url) {c : Char}
    (hc : c ∈ url.pathname) :
    c = '/' ∨ isSlash c = false ∧ isEncoded pathSet c = false := by
  rw [pathname, List.mem_flatMap] at hc
  obtain ⟨segment, hsegment, hc⟩ := hc
  obtain rfl | hc := List.mem_cons.mp hc
  · exact .inl rfl
  · have clean := wellFormed.clean segment hsegment
    exact .inr ⟨clean.slash c hc, clean.encoded c hc⟩

theorem solid (wellFormed : WellFormed authorities url) :
    ∀ c ∈ url.hrefText, 0x21 ≤ c.toNat := by
  have hscheme : ∀ c ∈ schemeName url.scheme, 0x21 ≤ c.toNat := by
    cases url.scheme <;> simp [schemeName]
  have hauthority : ∀ c ∈ url.authority, 0x21 ≤ c.toNat := fun c hc =>
    (authorities.plain _ _ wellFormed.authority c hc).1
  have hpath : ∀ c ∈ url.pathname, 0x21 ≤ c.toNat := by
    intro c hc
    rcases wellFormed.mem_pathname hc with rfl | ⟨_, hplain⟩
    · decide
    · exact solid_of_not_isEncoded hplain
  have htail : ∀ c ∈ url.tailText, 0x21 ≤ c.toNat := by
    intro c hc
    rw [tailText, List.mem_append] at hc
    rcases hc with hc | hc
    · cases hquery : url.query with
      | none =>
          rw [hquery] at hc
          exact absurd hc List.not_mem_nil
      | some query =>
          rw [hquery] at hc
          obtain rfl | hc := List.mem_cons.mp hc
          · decide
          · exact wellFormed.query query hquery c hc
    · cases hfragment : url.fragment with
      | none =>
          rw [hfragment] at hc
          exact absurd hc List.not_mem_nil
      | some fragment =>
          rw [hfragment] at hc
          obtain rfl | hc := List.mem_cons.mp hc
          · decide
          · exact wellFormed.fragment fragment hfragment c hc
  intro c hc
  rw [hrefText] at hc
  simp only [List.mem_append, List.mem_cons] at hc
  rcases hc with hc | rfl | rfl | rfl | hc | hc | hc
  · exact hscheme c hc
  · decide
  · decide
  · decide
  · exact hauthority c hc
  · exact hpath c hc
  · exact htail c hc

theorem pathname_plain (wellFormed : WellFormed authorities url) :
    ∀ c ∈ url.pathname, isPathEnd c = false := by
  intro c hc
  rcases wellFormed.mem_pathname hc with rfl | ⟨_, hplain⟩
  · rfl
  · exact isPathEnd_of_not_isEncoded hplain

theorem pathText_pathname (wellFormed : WellFormed authorities url) :
    pathText (url.pathname ++ url.tailText) = url.pathname := by
  have htail : pathText url.tailText = [] := by
    rw [pathText, tailText]
    cases url.query with
    | some query => exact List.takeWhile_cons_of_neg (by decide)
    | none =>
        cases url.fragment with
        | some fragment => exact List.takeWhile_cons_of_neg (by decide)
        | none => rfl
  rw [pathText_of_plain wellFormed.pathname_plain, htail, List.append_nil]

theorem parse_href (wellFormed : WellFormed authorities url) :
    parse authorities url.href =
      some { url with
        query := queryText (url.pathname ++ url.tailText)
        fragment := fragmentText (url.pathname ++ url.tailText) } := by
  have hends : ∀ c ∈ url.authority, (!isAuthorityEnd c) = true := fun c hc => by
    rw [(authorities.plain _ _ wellFormed.authority c hc).2]
    rfl
  have hslashes : ('/' :: '/' :: (url.authority ++
      (url.pathname ++ url.tailText))).dropWhile isSlash =
        url.authority ++ (url.pathname ++ url.tailText) := by
    cases hauthority : url.authority with
    | nil =>
        exact absurd hauthority (authorities.nonempty _ _ wellFormed.authority)
    | cons first rest =>
        have hfirst := (authorities.plain _ _ wellFormed.authority first
          (by rw [hauthority]; exact List.mem_cons_self)).2
        rw [isAuthorityEnd, Bool.or_eq_false_iff] at hfirst
        rw [List.cons_append, List.dropWhile_cons_of_pos rfl,
          List.dropWhile_cons_of_pos rfl, List.dropWhile_cons_of_neg
            (by rw [hfirst.1]; exact Bool.false_ne_true)]
  have hstop : (url.pathname ++ url.tailText).takeWhile
      (fun c => !isAuthorityEnd c) = [] ∧
      (url.pathname ++ url.tailText).dropWhile
        (fun c => !isAuthorityEnd c) = url.pathname ++ url.tailText := by
    rw [pathname_eq wellFormed.nonempty]
    exact ⟨rfl, rfl⟩
  rw [parse, href, String.toList_ofList, cleaned_eq_self wellFormed.solid,
    parseAbsolute, hrefText, schemeText_href]
  change (schemeOf (schemeName url.scheme)).bind _ = _
  rw [schemeOf_schemeName, Option.bind_some, parseAuthority, hslashes,
    List.takeWhile_append_of_pos hends, List.dropWhile_append_of_pos hends,
    hstop.1, hstop.2, List.append_nil, wellFormed.authority, Option.map_some,
    wellFormed.pathText_pathname,
    parsePath_pathname wellFormed.nonempty wellFormed.clean]

theorem parse_href_of_bare (wellFormed : WellFormed authorities url)
    (hquery : url.query = none) (hfragment : url.fragment = none) :
    parse authorities url.href = some url := by
  have htail : url.tailText = [] := by
    rw [tailText, hquery, hfragment]
    rfl
  have plain := wellFormed.pathname_plain
  rw [wellFormed.parse_href, htail, List.append_nil, queryText_of_plain plain,
    fragmentText_of_plain plain]
  obtain ⟨scheme, authority, path, query, fragment⟩ := url
  cases hquery
  cases hfragment
  rfl

theorem withPathname_slash (wellFormed : WellFormed authorities url) :
    url.withPathname (String.ofList (url.pathname ++ ['/'])) =
      { url with path := url.path ++ [[]] } := by
  have hclean : ∀ segment ∈ url.path ++ [[]], IsClean segment := by
    rw [List.forall_mem_append, List.forall_mem_singleton]
    exact ⟨wellFormed.clean, isClean_nil⟩
  have hbreaks : (url.pathname ++ ['/']).filter (fun c => !isBreak c) =
      url.pathname ++ ['/'] := by
    rw [List.filter_eq_self]
    intro c hc
    apply not_isBreak_of_solid
    rcases List.mem_append.mp hc with hc | hc
    · rcases wellFormed.mem_pathname hc with rfl | ⟨_, hplain⟩
      · decide
      · exact solid_of_not_isEncoded hplain
    · rw [List.mem_singleton.mp hc]
      decide
  have hpath : url.pathname ++ ['/'] =
      pathname { url with path := url.path ++ [[]] } := by
    rw [pathname, pathname, List.flatMap_append]
    rfl
  rw [withPathname, String.toList_ofList, hbreaks, hpath,
    parsePath_pathname (List.concat_ne_nil _ _) hclean]

end WellFormed

/-- A text that is neither a URL of its own nor begins at the root, and has no
query. -/
structure IsRelativePath (text : List Char) : Prop where
  noScheme : schemeText text = none
  first : ∃ c, text.head? = some c ∧ isSlash c = false
  plain : ∀ c ∈ text, 0x21 ≤ c.toNat ∧ isPathEnd c = false

theorem IsRelativePath.resolve_eq {text : List Char}
    (relative : IsRelativePath text) (base : Url) :
    resolve authorities (String.ofList text) base =
      some { base with
        path := parsePath base.path.dropLast text
        query := none
        fragment := none } := by
  obtain ⟨first, hhead, hslash⟩ := relative.first
  obtain ⟨rest, rfl⟩ := List.head?_eq_some_iff.mp hhead
  have plain : ∀ c ∈ first :: rest, isPathEnd c = false :=
    fun c hc => (relative.plain c hc).2
  have hfirst := plain first List.mem_cons_self
  rw [isPathEnd, Bool.or_eq_false_iff, beq_eq_false_iff_ne,
    beq_eq_false_iff_ne] at hfirst
  have hpath : pathText (first :: rest) = first :: rest := by
    have happend := pathText_of_plain plain []
    rw [List.append_nil] at happend
    exact happend.trans (List.append_nil _)
  rw [resolve, String.toList_ofList,
    cleaned_eq_self fun c hc => (relative.plain c hc).1]
  simp only [relative.noScheme]
  rw [Url.relative, queryText_of_plain plain, fragmentText_of_plain plain, hpath,
    if_neg (by rw [hslash]; exact Bool.false_ne_true)]
  · exact hfirst.1
  · exact hfirst.2

theorem WellFormed.resolve_href (wellFormed : WellFormed authorities url)
    (base : Url) :
    resolve authorities url.href base = parse authorities url.href := by
  have hscheme : schemeText (cleaned url.hrefText) =
      some (schemeName url.scheme, '/' :: '/' ::
        (url.authority ++ (url.pathname ++ url.tailText))) := by
    rw [cleaned_eq_self wellFormed.solid, hrefText, schemeText_href]
  rw [parse, resolve, href, String.toList_ofList]
  simp only [hscheme]
  rw [if_neg]
  rw [Bool.and_eq_true, not_and]
  intro _ h
  simp at h

end WellFormed

/-- Authorities that are taken as they stand. -/
def Authorities.verbatim : Authorities where
  parse text :=
    if !text.isEmpty && text.all fun c =>
        decide (0x21 ≤ c.toNat) && !isAuthorityEnd c then
      some text
    else none
  again text authority h := by
    split at h
    · rename_i plain
      obtain rfl := Option.some.inj h
      exact if_pos plain
    · exact nomatch h
  nonempty text authority h := by
    split at h
    · rename_i plain
      obtain rfl := Option.some.inj h
      simp only [Bool.and_eq_true, Bool.not_eq_true', List.isEmpty_eq_false_iff]
        at plain
      exact plain.1
    · exact nomatch h
  plain text authority h c hc := by
    split at h
    · rename_i plain
      obtain rfl := Option.some.inj h
      simp only [Bool.and_eq_true, List.all_eq_true, decide_eq_true_eq,
        Bool.not_eq_true'] at plain
      exact plain.2 c hc
    · exact nomatch h

theorem percentDecode_of_plain {segment : List Char} (h : '%' ∉ segment) :
    percentDecode segment = Utf8.encode segment := by
  induction segment with
  | nil => rfl
  | cons c rest ih =>
      rw [List.mem_cons, not_or] at h
      rw [percentDecode, ih h.2]
      · rfl
      · exact fun high low others hc => absurd hc.symm h.1

theorem decodedSegment_of_plain {segment : List Char} (h : '%' ∉ segment) :
    decodedSegment segment = segment := by
  rw [decodedSegment, percentDecode_of_plain h, Utf8.decode_encode]

end Url

end TwakeKickstart.Library
