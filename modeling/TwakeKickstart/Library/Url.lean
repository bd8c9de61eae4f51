import TwakeKickstart.Library.Text
import TwakeKickstart.Library.Utf8

namespace TwakeKickstart.Library

/-! URLs of `http` and `https`, read as the URL standard reads them: what stands
for a slash, which characters are percent-encoded, and how dot segments go. -/

inductive Scheme where
  | http
  | https
deriving DecidableEq

structure Url where
  scheme : Scheme
  authority : List Char
  path : List (List Char)
  query : Option (List Char)
  fragment : Option (List Char)
  deriving DecidableEq

namespace Url

def schemeName : Scheme → List Char
  | .http => "http".toList
  | .https => "https".toList

/-! Percent-encoding. -/

def hexDigit (n : Nat) : Char := (Nat.digitChar n).toUpper

def percentEncoded (c : Char) : List Char :=
  (String.utf8EncodeChar c).flatMap fun byte =>
    ['%', hexDigit (byte.toNat / 16), hexDigit (byte.toNat % 16)]

/-- Controls, what is not ASCII and the space belong to every set. -/
def isEncoded (others : String) (c : Char) : Bool :=
  decide (c.toNat < 0x21) || decide (0x7E < c.toNat) ||
    others.toList.contains c

def pathSet : String := "\"#<>?^`\x7b\x7d"

def querySet : String := "\"#<>'"

def fragmentSet : String := "\"<>`"

def encode (others : String) (text : List Char) : List Char :=
  text.flatMap fun c => if isEncoded others c then percentEncoded c else [c]

/-! Paths. -/

def isSlash (c : Char) : Bool := c == '/' || c == '\\'

def unslash (c : Char) : Char := if c = '\\' then '/' else c

def segments (text : List Char) : List (List Char) :=
  (text.map unslash).splitOn '/'

def isSingleDot (segment : List Char) : Bool :=
  [".", "%2e"].contains (String.ofList (segment.map Char.toLower))

def isDoubleDot (segment : List Char) : Bool :=
  ["..", ".%2e", "%2e.", "%2e%2e"].contains
    (String.ofList (segment.map Char.toLower))

def enter (path : List (List Char)) (segment : List Char) :
    List (List Char) :=
  if isDoubleDot segment then path.dropLast
  else if isSingleDot segment then path
  else path ++ [segment]

/-- A path that ends in dots ends in a slash. -/
def leave (path : List (List Char)) (last : List Char) : List (List Char) :=
  if isDoubleDot last || isSingleDot last then enter path last ++ [[]]
  else enter path last

def normalise (path rest : List (List Char)) : List (List Char) :=
  match rest.getLast? with
  | none => path
  | some last => leave (rest.dropLast.foldl enter path) last

def parsePath (path : List (List Char)) (text : List Char) :
    List (List Char) :=
  normalise path ((segments text).map (encode pathSet))

def pathname (url : Url) : List Char :=
  url.path.flatMap fun segment => '/' :: segment

/-! Texts. -/

def isControl (c : Char) : Bool := decide (c.toNat ≤ 0x20)

def isBreak (c : Char) : Bool := c == '\t' || c == '\n' || c == '\r'

/-- Controls and spaces at both ends and breaks anywhere do not count. -/
def cleaned (text : List Char) : List Char :=
  ((text.dropWhile isControl).reverse.dropWhile isControl).reverse.filter
    fun c => !isBreak c

def dropSlash : List Char → List Char
  | [] => []
  | c :: rest => if isSlash c then rest else c :: rest

def isPathEnd (c : Char) : Bool := c == '?' || c == '#'

def pathText (text : List Char) : List Char :=
  text.takeWhile fun c => !isPathEnd c

def queryText (text : List Char) : Option (List Char) :=
  match text.dropWhile fun c => !isPathEnd c with
  | '?' :: rest => some (encode querySet (rest.takeWhile (· != '#')))
  | _ => none

def fragmentText (text : List Char) : Option (List Char) :=
  match text.dropWhile (· != '#') with
  | '#' :: rest => some (encode fragmentSet rest)
  | _ => none

def isAuthorityEnd (c : Char) : Bool := isSlash c || isPathEnd c

/-- How user, host and port are read.  What has been read is read again as
itself; it is not empty, and has no character that ends it. -/
structure Authorities where
  parse : List Char → Option (List Char)
  again : ∀ text authority, parse text = some authority →
    parse authority = some authority
  nonempty : ∀ text authority, parse text = some authority → authority ≠ []
  plain : ∀ text authority, parse text = some authority →
    ∀ c ∈ authority, 0x21 ≤ c.toNat ∧ isAuthorityEnd c = false

variable (authorities : Authorities)

/-- The letters, digits and marks before the first colon, in lower case. -/
def schemeText (text : List Char) : Option (List Char × List Char) :=
  match text with
  | [] => none
  | first :: _ =>
      if first.isAlpha then
        let isSchemeChar := fun c : Char =>
          c.isAlphanum || "+-.".toList.contains c
        match text.dropWhile isSchemeChar with
        | ':' :: rest =>
            some ((text.takeWhile isSchemeChar).map Char.toLower, rest)
        | _ => none
      else none

def schemeOf (name : List Char) : Option Scheme :=
  if name = schemeName .http then some .http
  else if name = schemeName .https then some .https
  else none

def parseAuthority (scheme : Scheme) (text : List Char) : Option Url :=
  let text := text.dropWhile isSlash
  let rest := text.dropWhile fun c => !isAuthorityEnd c
  (authorities.parse (text.takeWhile fun c => !isAuthorityEnd c)).map
    fun authority =>
      { scheme
        authority
        path := parsePath [] (dropSlash (pathText rest))
        query := queryText rest
        fragment := fragmentText rest }

def parseAbsolute (text : List Char) : Option Url :=
  match schemeText text with
  | none => none
  | some (name, rest) =>
      (schemeOf name).bind fun scheme => parseAuthority authorities scheme rest

/-- `new URL(text)`, for the two schemes. -/
def parse (text : String) : Option Url :=
  parseAbsolute authorities (cleaned text.toList)

def relative (base : Url) (text : List Char) : Option Url :=
  let query := queryText text
  let fragment := fragmentText text
  match text with
  | [] => some { base with fragment }
  | '?' :: _ => some { base with query, fragment }
  | '#' :: _ => some { base with fragment }
  | first :: rest =>
      if isSlash first then
        if isSlash (rest.headD ' ') then
          parseAuthority authorities base.scheme rest
        else
          some { base with path := parsePath [] (pathText rest), query, fragment }
      else
        some { base with
          path := parsePath base.path.dropLast (pathText text)
          query
          fragment }

/-- `new URL(text, base)`, for the two schemes. -/
def resolve (text : String) (base : Url) : Option Url :=
  let text := cleaned text.toList
  match schemeText text with
  | none => relative authorities base text
  | some (name, rest) =>
      if name = schemeName base.scheme && !"//".toList.isPrefixOf rest then
        relative authorities base rest
      else parseAbsolute authorities text

/-- What stands behind the path. -/
def tailText (url : Url) : List Char :=
  url.query.elim [] ('?' :: ·) ++ url.fragment.elim [] ('#' :: ·)

def hrefText (url : Url) : List Char :=
  schemeName url.scheme ++ ':' :: '/' :: '/' ::
    (url.authority ++ (url.pathname ++ url.tailText))

def href (url : Url) : String := String.ofList url.hrefText

/-- The setter of `pathname`: here nothing ends the path. -/
def withPathname (url : Url) (text : String) : Url :=
  { url with
    path := parsePath [] (dropSlash (text.toList.filter fun c => !isBreak c)) }

/-! What a server reads of a segment. -/

def hexValue (c : Char) : Option Nat :=
  if c.isDigit then some (c.toNat - '0'.toNat)
  else if 'a' ≤ c ∧ c ≤ 'f' then some (c.toNat - 'a'.toNat + 10)
  else if 'A' ≤ c ∧ c ≤ 'F' then some (c.toNat - 'A'.toNat + 10)
  else none

def percentDecode : List Char → List UInt8
  | [] => []
  | '%' :: high :: low :: rest =>
      match hexValue high, hexValue low with
      | some h, some l => UInt8.ofNat (16 * h + l) :: percentDecode rest
      | _, _ => String.utf8EncodeChar '%' ++ percentDecode (high :: low :: rest)
  | c :: rest => String.utf8EncodeChar c ++ percentDecode rest

def decodedSegment (segment : List Char) : List Char :=
  Utf8.decode (percentDecode segment)

/-! What the parser makes of a path. -/

section Encoding

theorem hexDigit_plain : ∀ n < 16,
    isEncoded pathSet (hexDigit n) = false ∧
      isEncoded querySet (hexDigit n) = false ∧
      isEncoded fragmentSet (hexDigit n) = false ∧
      isSlash (hexDigit n) = false := by
  decide

theorem mem_percentEncoded {c d : Char} (h : d ∈ percentEncoded c) :
    d = '%' ∨ ∃ n < 16, d = hexDigit n := by
  rw [percentEncoded, List.mem_flatMap] at h
  obtain ⟨byte, _, hd⟩ := h
  have hbyte := byte.toNat_lt
  simp only [List.mem_cons, List.not_mem_nil, or_false] at hd
  rcases hd with hd | hd | hd
  · exact .inl hd
  · exact .inr ⟨_, by omega, hd⟩
  · exact .inr ⟨_, by omega, hd⟩

theorem mem_encode {others : String} {text : List Char} {d : Char}
    (h : d ∈ encode others text) :
    (d ∈ text ∧ isEncoded others d = false) ∨ d = '%' ∨
      ∃ n < 16, d = hexDigit n := by
  rw [encode, List.mem_flatMap] at h
  obtain ⟨c, hc, hd⟩ := h
  by_cases hencoded : isEncoded others c = true
  · rw [if_pos hencoded] at hd
    exact .inr (mem_percentEncoded hd)
  · rw [if_neg hencoded, List.mem_singleton] at hd
    subst hd
    exact .inl ⟨hc, Bool.not_eq_true _ ▸ hencoded⟩

theorem encode_of_plain {others : String} {text : List Char}
    (plain : ∀ c ∈ text, isEncoded others c = false) :
    encode others text = text := by
  induction text with
  | nil => rfl
  | cons c rest ih =>
      have hc := plain c List.mem_cons_self
      rw [encode, List.flatMap_cons, hc]
      exact congrArg (c :: ·)
        (ih fun d hd => plain d (List.mem_cons_of_mem c hd))

end Encoding

section Paths

/-- A segment that the parser leaves as it is. -/
structure IsPlain (segment : List Char) : Prop where
  slash : ∀ c ∈ segment, isSlash c = false
  encoded : ∀ c ∈ segment, isEncoded pathSet c = false

structure IsClean (segment : List Char) : Prop extends IsPlain segment where
  single : isSingleDot segment = false
  double : isDoubleDot segment = false

theorem isClean_nil : IsClean [] := ⟨⟨nofun, nofun⟩, by decide, by decide⟩

theorem not_isDot {first : Char} (hdot : first.toLower ≠ '.')
    (hpercent : first.toLower ≠ '%') (rest : List Char) :
    isSingleDot (first :: rest) = false ∧
      isDoubleDot (first :: rest) = false := by
  have hother : ∀ dots : List String,
      (∀ text ∈ dots, text.toList.head? = some '.' ∨
        text.toList.head? = some '%') →
      dots.contains (String.ofList ((first :: rest).map Char.toLower)) =
        false := by
    intro dots hdots
    rw [Bool.eq_false_iff]
    intro hmem
    have hhead := hdots _ (List.contains_iff_mem.mp hmem)
    rw [String.toList_ofList, List.map_cons, List.head?_cons] at hhead
    exact hhead.elim (fun h => hdot (Option.some.inj h))
      fun h => hpercent (Option.some.inj h)
  exact ⟨hother _ (by decide), hother _ (by decide)⟩

theorem encode_isPlain {segment : List Char}
    (slash : ∀ c ∈ segment, isSlash c = false) :
    IsPlain (encode pathSet segment) := by
  constructor
  · intro d hd
    rcases mem_encode hd with ⟨hmem, _⟩ | rfl | ⟨n, hn, rfl⟩
    · exact slash d hmem
    · decide
    · exact (hexDigit_plain n hn).2.2.2
  · intro d hd
    rcases mem_encode hd with ⟨_, hplain⟩ | rfl | ⟨n, hn, rfl⟩
    · exact hplain
    · decide
    · exact (hexDigit_plain n hn).1

theorem mem_of_mem_segments {text segment : List Char} {c : Char}
    (h : segment ∈ segments text) (hc : c ∈ segment) :
    c ∈ text ∧ isSlash c = false := by
  obtain ⟨hmem, hslash⟩ := mem_of_mem_splitOn h hc
  obtain ⟨d, hd, hunslash⟩ := List.mem_map.mp hmem
  rw [unslash] at hunslash
  split at hunslash
  · exact absurd hunslash.symm hslash
  · rename_i hback
    subst hunslash
    exact ⟨hd, by simp [isSlash, hslash, hback]⟩

theorem enter_of_isClean {segment : List Char} (clean : IsClean segment)
    (path : List (List Char)) : enter path segment = path ++ [segment] := by
  rw [enter, clean.double, clean.single]
  rfl

theorem enter_isClean {path : List (List Char)} {segment : List Char}
    (hpath : ∀ segment ∈ path, IsClean segment) (plain : IsPlain segment) :
    ∀ other ∈ enter path segment, IsClean other := by
  intro other hother
  rw [enter] at hother
  split at hother
  · exact hpath other (List.dropLast_subset path hother)
  · rename_i hdouble
    split at hother
    · exact hpath other hother
    · rename_i hsingle
      rcases List.mem_append.mp hother with hold | hnew
      · exact hpath other hold
      · rw [List.mem_singleton.mp hnew]
        exact ⟨plain, Bool.eq_false_iff.mpr hsingle,
          Bool.eq_false_iff.mpr hdouble⟩

theorem foldl_enter_isClean {path segments : List (List Char)}
    (hpath : ∀ segment ∈ path, IsClean segment)
    (plain : ∀ segment ∈ segments, IsPlain segment) :
    ∀ other ∈ segments.foldl enter path, IsClean other := by
  induction segments generalizing path with
  | nil => exact hpath
  | cons segment rest ih =>
      rw [List.foldl_cons]
      apply ih
      · exact enter_isClean hpath (plain segment List.mem_cons_self)
      · exact fun other hother =>
          plain other (List.mem_cons_of_mem segment hother)

theorem normalise_isClean {path rest : List (List Char)}
    (hpath : ∀ segment ∈ path, IsClean segment)
    (plain : ∀ segment ∈ rest, IsPlain segment) :
    ∀ segment ∈ normalise path rest, IsClean segment := by
  rw [normalise]
  cases hlast : rest.getLast? with
  | none => exact hpath
  | some last =>
      have hpassed := foldl_enter_isClean hpath fun segment h =>
        plain segment (List.dropLast_subset rest h)
      have hentered := enter_isClean hpassed
        (plain last (List.mem_of_getLast? hlast))
      intro segment hsegment
      change segment ∈ leave _ last at hsegment
      rw [leave] at hsegment
      split at hsegment
      · rcases List.mem_append.mp hsegment with hold | hnew
        · exact hentered segment hold
        · rw [List.mem_singleton.mp hnew]
          exact isClean_nil
      · exact hentered segment hsegment

theorem leave_ne_nil (path : List (List Char)) (last : List Char) :
    leave path last ≠ [] := by
  rw [leave]
  split
  · exact List.concat_ne_nil _ _
  · rename_i h
    rw [Bool.not_eq_true, Bool.or_eq_false_iff] at h
    rw [enter, h.1, h.2]
    exact List.concat_ne_nil _ _

theorem normalise_ne_nil {path rest : List (List Char)} (h : rest ≠ []) :
    normalise path rest ≠ [] := by
  rw [normalise]
  cases hlast : rest.getLast? with
  | none => exact absurd (List.getLast?_eq_none_iff.mp hlast) h
  | some last => exact leave_ne_nil _ last

theorem foldl_enter_of_isClean {path segments : List (List Char)}
    (clean : ∀ segment ∈ segments, IsClean segment) :
    segments.foldl enter path = path ++ segments := by
  induction segments generalizing path with
  | nil => exact (List.append_nil path).symm
  | cons segment rest ih =>
      rw [List.foldl_cons, enter_of_isClean (clean segment List.mem_cons_self),
        ih fun other hother => clean other (List.mem_cons_of_mem segment hother),
        List.append_assoc, List.singleton_append]

theorem normalise_of_isClean {path rest : List (List Char)}
    (clean : ∀ segment ∈ rest, IsClean segment) :
    normalise path rest = path ++ rest := by
  rw [normalise]
  cases hlast : rest.getLast? with
  | none => rw [List.getLast?_eq_none_iff.mp hlast, List.append_nil]
  | some last =>
      have hclean := clean last (List.mem_of_getLast? hlast)
      change leave _ last = _
      rw [leave, hclean.double, hclean.single, Bool.or_false,
        if_neg Bool.false_ne_true, enter_of_isClean hclean,
        foldl_enter_of_isClean fun segment h =>
          clean segment (List.dropLast_subset rest h),
        List.append_assoc, List.dropLast_append_getLast? last hlast]

/-- A path that began as another one, with segments of a kind after it. -/
def Grown (kind : List Char → Prop) (base path : List (List Char)) : Prop :=
  ∃ kept added, path = base.take kept ++ added ∧ ∀ segment ∈ added, kind segment

section Grown

variable {kind : List Char → Prop} {base path : List (List Char)}

theorem Grown.refl : Grown kind base base :=
  ⟨base.length, [], by rw [List.take_length, List.append_nil], nofun⟩

theorem Grown.concat (grown : Grown kind base path) {segment : List Char}
    (h : kind segment) : Grown kind base (path ++ [segment]) := by
  obtain ⟨kept, added, rfl, hadded⟩ := grown
  refine ⟨kept, added ++ [segment], List.append_assoc .., ?_⟩
  rw [List.forall_mem_append, List.forall_mem_singleton]
  exact ⟨hadded, h⟩

theorem Grown.dropLast (grown : Grown kind base path) :
    Grown kind base path.dropLast := by
  obtain ⟨kept, added, rfl, hadded⟩ := grown
  by_cases hnil : added = []
  · subst hnil
    refine ⟨min ((base.take kept).length - 1) kept, [], ?_, nofun⟩
    rw [List.append_nil, List.append_nil, List.dropLast_eq_take, List.take_take]
  · exact ⟨kept, added.dropLast, List.dropLast_append_of_ne_nil hnil,
      fun segment h => hadded segment (List.dropLast_subset added h)⟩

theorem Grown.enter (grown : Grown kind base path) {segment : List Char}
    (h : kind segment) : Grown kind base (Url.enter path segment) := by
  rw [Url.enter]
  split
  · exact grown.dropLast
  · split
    · exact grown
    · exact grown.concat h

theorem Grown.foldl_enter (grown : Grown kind base path)
    {segments : List (List Char)} (h : ∀ segment ∈ segments, kind segment) :
    Grown kind base (segments.foldl Url.enter path) := by
  induction segments generalizing path with
  | nil => exact grown
  | cons segment rest ih =>
      rw [List.foldl_cons]
      apply ih
      · exact grown.enter (h segment List.mem_cons_self)
      · exact fun other hother => h other (List.mem_cons_of_mem segment hother)

theorem Grown.kind_of_append (grown : Grown kind base path)
    {rest : List (List Char)} (h : path = base ++ rest) :
    ∀ segment ∈ rest, kind segment := by
  obtain ⟨kept, added, rfl, hadded⟩ := grown
  intro segment hsegment
  rcases List.append_eq_append_iff.mp h with
    ⟨others, _, hothers⟩ | ⟨others, htake, hothers⟩
  · apply hadded
    rw [hothers]
    exact List.mem_append_right others hsegment
  · have hlength := congrArg List.length htake
    rw [List.length_append, List.length_take] at hlength
    have hnil : others = [] := List.eq_nil_of_length_eq_zero (by omega)
    rw [hothers, hnil, List.nil_append] at hsegment
    exact hadded segment hsegment

theorem grown_normalise {rest : List (List Char)} (hnil : kind [])
    (h : ∀ segment ∈ rest, kind segment) :
    Grown kind base (normalise base rest) := by
  rw [normalise]
  cases hlast : rest.getLast? with
  | none => exact .refl
  | some last =>
      have hpassed := (Grown.refl : Grown kind base base).foldl_enter
        fun segment hmem => h segment (List.dropLast_subset rest hmem)
      have hentered := hpassed.enter (h last (List.mem_of_getLast? hlast))
      change Grown kind base (leave _ last)
      rw [leave]
      split
      · exact hentered.concat hnil
      · exact hentered

end Grown

theorem segments_ne_nil (text : List Char) : segments text ≠ [] :=
  List.splitOn_ne_nil _ _

theorem parsePath_isClean {path : List (List Char)} (text : List Char)
    (hpath : ∀ segment ∈ path, IsClean segment) :
    ∀ segment ∈ parsePath path text, IsClean segment := by
  apply normalise_isClean hpath
  rw [List.forall_mem_map]
  exact fun segment h => encode_isPlain fun c hc => (mem_of_mem_segments h hc).2

theorem parsePath_ne_nil (path : List (List Char)) (text : List Char) :
    parsePath path text ≠ [] := by
  apply normalise_ne_nil
  rw [Ne, List.map_eq_nil_iff]
  exact segments_ne_nil text

theorem unslash_of_ne {c : Char} (h : c ≠ '\\') : unslash c = c := if_neg h

theorem segments_intercalate {path : List (List Char)} (hne : path ≠ [])
    (h : ∀ segment ∈ path, ∀ c ∈ segment, isSlash c = false) :
    segments (['/'].intercalate path) = path := by
  have hslash : ∀ segment ∈ path, '/' ∉ segment := fun segment hmem hc =>
    absurd (h segment hmem '/' hc) (by decide)
  have hsame : (['/'].intercalate path).map unslash =
      ['/'].intercalate path := by
    refine (List.map_congr_left fun c hc => ?_).trans (List.map_id _)
    rcases mem_intercalate hc with hseparator | ⟨segment, hsegment, hmem⟩
    · rw [hseparator]
      rfl
    · apply unslash_of_ne
      rintro rfl
      exact absurd (h segment hsegment _ hmem) (by decide)
  rw [segments, hsame, List.splitOn_intercalate '/' hslash hne]

theorem pathname_eq {url : Url} (hne : url.path ≠ []) :
    url.pathname = '/' :: ['/'].intercalate url.path := by
  rw [pathname]
  generalize url.path = path at hne
  induction path with
  | nil => exact absurd rfl hne
  | cons first rest ih =>
      cases rest with
      | nil => simp
      | cons second rest =>
          rw [List.flatMap_cons, ih nofun, List.intercalate_cons_cons,
            List.cons_append, List.append_assoc, List.singleton_append]

theorem parsePath_intercalate {added : List (List Char)} (hne : added ≠ [])
    (clean : ∀ segment ∈ added, IsClean segment) (path : List (List Char)) :
    parsePath path (['/'].intercalate added) = path ++ added := by
  have hencode : added.map (encode pathSet) = added := by
    refine (List.map_congr_left fun segment h => ?_).trans (List.map_id _)
    exact encode_of_plain (clean segment h).encoded
  rw [parsePath,
    segments_intercalate hne fun segment h => (clean segment h).slash, hencode,
    normalise_of_isClean clean]

theorem parsePath_pathname {url : Url} (hne : url.path ≠ [])
    (clean : ∀ segment ∈ url.path, IsClean segment) :
    parsePath [] (dropSlash url.pathname) = url.path := by
  rw [pathname_eq hne]
  exact parsePath_intercalate hne clean []

end Paths

end Url

end TwakeKickstart.Library
