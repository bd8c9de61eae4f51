import TwakeKickstart.Library.Text
import TwakeKickstart.Library.UrlRoundTrip
import TwakeKickstart.TomServer.BuildUrl
import TwakeKickstart.Utils.IsMatrixId

namespace TwakeKickstart.TomServer

open Library Utils

/-! The URLs of the admin operations on a user, which the services put together
from the user's Matrix ID. -/

namespace AdminUrls

/-- The class `URL` for the two schemes that `buildUrl` lets a base have. -/
def urlClass (authorities : Url.Authorities) : UrlClass Url where
  parse := Url.parse authorities
  resolve text base :=
    (Url.parse authorities base).bind (Url.resolve authorities text)
  pathname url := String.ofList url.pathname
  withPathname := Url.withPathname
  href := Url.href

section UrlClass

variable (authorities : Url.Authorities)

@[simp] theorem urlClass_parse (text : String) :
    (urlClass authorities).parse text = Url.parse authorities text := rfl

@[simp] theorem urlClass_resolve (text base : String) :
    (urlClass authorities).resolve text base =
      (Url.parse authorities base).bind (Url.resolve authorities text) := rfl

@[simp] theorem urlClass_pathname (url : Url) :
    (urlClass authorities).pathname url = String.ofList url.pathname := rfl

@[simp] theorem urlClass_withPathname (url : Url) (pathname : String) :
    (urlClass authorities).withPathname url pathname =
      url.withPathname pathname := rfl

@[simp] theorem urlClass_href (url : Url) :
    (urlClass authorities).href url = url.href := rfl

end UrlClass

inductive Operation where
  | deleteUserMedia
  | disableUserAccount
  | updateUserInformation

namespace Operation

def path (userId : String) : Operation → String
  | deleteUserMedia => "/_synapse/admin/v1/users/" ++ userId ++ "/media"
  | disableUserAccount => "/_synapse/admin/v1/deactivate/" ++ userId
  | updateUserInformation => "/_synapse/admin/v2/users/" ++ userId

variable (authorities : Url.Authorities) (matrix_server userId : String)

/-- The URL that is fetched.  The admin settings service builds it twice. -/
def requested : Operation → Option String
  | updateUserInformation =>
      (buildUrl (urlClass authorities) matrix_server
        (updateUserInformation.path userId)).bind
          (buildUrl (urlClass authorities) matrix_server)
  | operation =>
      buildUrl (urlClass authorities) matrix_server (operation.path userId)

/-! Where the operations are to go. -/

/-- The segments before the user's, and those after it. -/
def before : Operation → List (List Char)
  | deleteUserMedia => ["_synapse", "admin", "v1", "users"].map String.toList
  | disableUserAccount =>
      ["_synapse", "admin", "v1", "deactivate"].map String.toList
  | updateUserInformation =>
      ["_synapse", "admin", "v2", "users"].map String.toList

def after : Operation → List (List Char)
  | deleteUserMedia => ["media".toList]
  | _ => []

end Operation

/-- The path of the homeserver, without the slash at its end. -/
def directory (base : Url) : List (List Char) :=
  if base.path.getLast? = some [] then base.path.dropLast else base.path

/-- The base with a slash at the end of its path. -/
def slashed (base : Url) : Url :=
  { base with path := directory base ++ [[]] }

/-- What is fetched has the intended path, with one segment for the user. -/
def Targets (authorities : Url.Authorities) (base : Url)
    (operation : Operation) (userId : String) (requested : Option String) :
    Prop :=
  ∃ href url segment, requested = some href ∧
    Url.parse authorities href = some url ∧
    url.scheme = base.scheme ∧ url.authority = base.authority ∧
    url.path =
      directory base ++ (operation.before ++ segment :: operation.after) ∧
    Url.decodedSegment segment = userId.toList

/-! The characters of a Matrix ID. -/

def isIdChar (c : Char) : Bool :=
  c.isAlphanum || "@:_-.=/+[]".toList.contains c

theorem serverNameRegexes_rejects {c : Char} (h : isIdChar c = false) :
    ∀ expression ∈ serverNameRegexes, expression.rejects c = true := by
  have hother : ∀ d : Char, isIdChar d = true → (c == d) = false := by
    intro d hd
    rw [beq_eq_false_iff_ne]
    rintro rfl
    rw [h] at hd
    exact Bool.false_ne_true hd
  have halphanum : c.isAlphanum = false := (Bool.or_eq_false_iff.mp h).1
  have hclasses := halphanum
  rw [isAlphanum_eq, Bool.or_eq_false_iff, Bool.or_eq_false_iff] at hclasses
  obtain ⟨⟨hupper, hlower⟩, hdigit⟩ := hclasses
  have hbetween : ∀ least most : Char, '0' ≤ least → most ≤ '9' →
      (decide (least ≤ c) && decide (c ≤ most)) = false := by
    intro least most hleast hmost
    rw [Bool.eq_false_iff]
    intro hin
    rw [Bool.and_eq_true, decide_eq_true_iff, decide_eq_true_iff] at hin
    have hvalue : c.isDigit = true := by
      rw [Char.isDigit, Bool.and_eq_true, decide_eq_true_iff,
        decide_eq_true_iff]
      exact ⟨Char.le_trans hleast hin.1, Char.le_trans hin.2 hmost⟩
    rw [hdigit] at hvalue
    exact Bool.false_ne_true hvalue
  have hhex : isHexDigit c = false := by
    rw [isHexDigit, hdigit, Bool.false_or, Bool.or_eq_false_iff,
      Bool.eq_false_iff, Bool.eq_false_iff]
    constructor
    · intro hin
      rw [Bool.and_eq_true, decide_eq_true_iff, decide_eq_true_iff] at hin
      have hvalue : c.isLower = true := by
        delta Char.isLower
        rw [Bool.and_eq_true, decide_eq_true_iff, decide_eq_true_iff]
        exact ⟨hin.1, Char.le_trans hin.2 (by decide : 'f' ≤ 'z')⟩
      rw [hlower] at hvalue
      exact Bool.false_ne_true hvalue
    · intro hin
      rw [Bool.and_eq_true, decide_eq_true_iff, decide_eq_true_iff] at hin
      have hvalue : c.isUpper = true := by
        delta Char.isUpper
        rw [decide_eq_true_iff]
        exact ⟨hin.1, Char.le_trans hin.2 (by decide : 'F' ≤ 'Z')⟩
      rw [hupper] at hvalue
      exact Bool.false_ne_true hvalue
  have hupTo : ∀ most, most ≤ '9' → isDigitUpTo most c = false :=
    fun most => hbetween '0' most (by decide)
  simp [serverNameRegexes, ipv6Regex, ipv4Regex, dnsNameRegex, portRegex,
    Regex.rejects, Regex.sequence, Regex.anyOf, Regex.literal, Regex.one,
    Regex.exactly, Regex.between, Regex.atMost, Regex.optional,
    Regex.literals, hextet, hextetColon, colonHextet, mappedOctet, dnsLabel,
    ipv4Octet, isLabelChar, nonZeroDigit, hdigit, halphanum, hhex, hupTo,
    hbetween, hother '[' rfl, hother ']' rfl, hother ':' rfl, hother '.' rfl,
    hother '-' rfl, hother '0' rfl, hother '1' rfl, hother '2' rfl,
    hother '3' rfl, hother '5' rfl, hother '6' rfl, hother 'f' rfl]

theorem isIdChar_of_isMatrixId {userId : String}
    (valid : isMatrixId userId = true) :
    ∀ c ∈ userId.toList, isIdChar c = true := by
  obtain ⟨localpart, serverName, built⟩ := toMatrixId_of_isMatrixId valid
  obtain ⟨_, _, hregex, hserver, _, rfl⟩ := toMatrixId_eq_ok_iff.mp built
  rw [toList_joined]
  intro c hc
  simp only [List.mem_cons, List.mem_append] at hc
  rcases hc with rfl | hlocal | rfl | hname
  · decide
  · have hclass := isLocalpartChar_of_mem hregex hlocal
    rw [isLocalpartChar, Bool.or_eq_true, Bool.or_eq_true] at hclass
    rw [isIdChar, isAlphanum_eq]
    rcases hclass with (hlower | hdigit) | hsymbol
    · rw [hlower, Bool.or_true]
      rfl
    · rw [hdigit, Bool.or_true]
      rfl
    · have hsymbols : "_-.=/+".toList.all
          ("@:_-.=/+[]".toList.contains ·) = true := by decide
      have hsame := List.all_eq_true.mp hsymbols c
        (List.contains_iff_mem.mp hsymbol)
      rw [hsame, Bool.or_true]
  · decide
  · by_contra hother
    exact not_mem_of_validServerName
      (serverNameRegexes_rejects (Bool.eq_false_iff.mpr hother)) hserver hname

theorem plain_of_isIdChar {c : Char} (h : isIdChar c = true) :
    Url.isEncoded Url.pathSet c = false ∧ c ≠ '\\' ∧ c ≠ '%' := by
  have hset : Url.pathSet.toList.contains c = false := by
    rw [Bool.eq_false_iff]
    intro hmem
    have hnone : Url.pathSet.toList.all (fun d => !isIdChar d) = true := by
      decide
    have hc := List.all_eq_true.mp hnone c (List.contains_iff_mem.mp hmem)
    rw [h] at hc
    exact Bool.false_ne_true hc
  have hrange : 0x21 ≤ c.toNat ∧ c.toNat ≤ 0x7E := by
    rw [isIdChar, Bool.or_eq_true] at h
    rcases h with halphanum | hsymbol
    · have hascii := range_of_isAlphanum halphanum
      omega
    · have hall : "@:_-.=/+[]".toList.all
          (fun d => 0x21 ≤ d.toNat ∧ d.toNat ≤ 0x7E) = true := by decide
      exact of_decide_eq_true
        (List.all_eq_true.mp hall c (List.contains_iff_mem.mp hsymbol))
  refine ⟨?_, ?_, ?_⟩
  · rw [Url.isEncoded, hset, decide_eq_false (Nat.not_lt.mpr hrange.1),
      decide_eq_false (Nat.not_lt.mpr hrange.2)]
    rfl
  · rintro rfl
    exact absurd h (by decide)
  · rintro rfl
    exact absurd h (by decide)

/-! What `buildUrl` makes of them. -/

section Built

variable {authorities : Url.Authorities} {matrix_server : String} {base : Url}

theorem pathname_ends {url : Url}
    (wellFormed : Url.WellFormed authorities url) :
    "/".toList.isSuffixOf url.pathname = true ↔
      url.path.getLast? = some [] := by
  have hslash : "/".toList = ['/'] := rfl
  cases hlast : url.path.getLast? with
  | none => exact absurd (List.getLast?_eq_none_iff.mp hlast) wellFormed.nonempty
  | some last =>
  have hpathname : url.pathname =
      url.path.dropLast.flatMap ('/' :: ·) ++ '/' :: last := by
    calc
      url.pathname = (url.path.dropLast ++ [last]).flatMap ('/' :: ·) := by
        rw [List.dropLast_append_getLast? last hlast, Url.pathname]
      _ = url.path.dropLast.flatMap ('/' :: ·) ++ '/' :: last := by
        rw [List.flatMap_append, List.flatMap_singleton]
  rw [List.isSuffixOf_iff_suffix, hslash, hpathname]
  rcases List.eq_nil_or_concat last with rfl | ⟨front, c, rfl⟩
  · exact ⟨fun _ => rfl, fun _ => List.suffix_append _ _⟩
  · rw [List.concat_eq_append] at hlast ⊢
    have hc := (wellFormed.clean _ (List.mem_of_getLast? hlast)).slash c
      (List.mem_append_right _ (List.mem_singleton_self c))
    constructor
    · intro hsuffix
      obtain ⟨others, hothers⟩ := hsuffix
      rw [← List.cons_append, ← List.append_assoc] at hothers
      obtain ⟨_, hsame⟩ := List.append_inj' hothers rfl
      rw [← List.singleton_inj.mp hsame] at hc
      cases hc
    · intro hnil
      exact absurd (Option.some.inj hnil) (List.concat_ne_nil c front)

theorem baseUrl_eq
    (hbase : Url.parse authorities (formattedUrl matrix_server) = some base) :
    baseUrl (urlClass authorities) matrix_server =
      some (slashed base) := by
  have wellFormed := Url.parse_wellFormed hbase
  rw [baseUrl, urlClass_parse, hbase, Option.map_some, slashed, directory]
  apply congrArg some
  dsimp only
  have htext : (String.ofList base.pathname).toList = base.pathname :=
    String.toList_ofList
  rw [urlClass_pathname, urlClass_withPathname, htext]
  by_cases hends : base.path.getLast? = some []
  · rw [if_pos ((pathname_ends wellFormed).mpr hends), if_pos hends,
      List.dropLast_append_getLast? [] hends]
  · have hslash : String.ofList base.pathname ++ "/" =
        String.ofList (base.pathname ++ ['/']) := by
      rw [String.ofList_append]
    rw [if_neg fun h => hends ((pathname_ends wellFormed).mp h), if_neg hends,
      hslash, wellFormed.withPathname_slash]

/-- What is requested of the base URL with the text as its path. -/
def located (base : Url) (text : List Char) : Url :=
  { base with
    path := Url.parsePath (directory base) text
    query := none
    fragment := none }

theorem directory_isClean (wellFormed : Url.WellFormed authorities base) :
    ∀ segment ∈ directory base, Url.IsClean segment := by
  rw [directory]
  split
  · exact fun segment h =>
      wellFormed.clean segment (List.dropLast_subset base.path h)
  · exact wellFormed.clean

theorem slashed_wellFormed (wellFormed : Url.WellFormed authorities base) :
    Url.WellFormed authorities (slashed base) where
  authority := wellFormed.authority
  nonempty := List.concat_ne_nil _ _
  clean := by
    rw [slashed, List.forall_mem_append, List.forall_mem_singleton]
    exact ⟨directory_isClean wellFormed, Url.isClean_nil⟩
  query := wellFormed.query
  fragment := wellFormed.fragment

theorem located_wellFormed (wellFormed : Url.WellFormed authorities base)
    (text : List Char) : Url.WellFormed authorities (located base text) where
  authority := wellFormed.authority
  nonempty := Url.parsePath_ne_nil _ _
  clean := Url.parsePath_isClean _ (directory_isClean wellFormed)
  query := nofun
  fragment := nofun

theorem parse_located (wellFormed : Url.WellFormed authorities base)
    (text : List Char) :
    Url.parse authorities (located base text).href =
      some (located base text) :=
  (located_wellFormed wellFormed text).parse_href_of_bare rfl rfl

theorem processedPath_slash (text : List Char) :
    processedPath (String.ofList ('/' :: text)) = String.ofList text := by
  rw [processedPath, String.toList_ofList]
  rfl

theorem buildUrl_eq
    (hbase : Url.parse authorities (formattedUrl matrix_server) = some base)
    {text : List Char} (relative : Url.IsRelativePath text) :
    buildUrl (urlClass authorities) matrix_server
      (String.ofList ('/' :: text)) = some (located base text).href := by
  have wellFormed := Url.parse_wellFormed hbase
  have hresolve : (urlClass authorities).resolve (String.ofList text)
      ((urlClass authorities).href (slashed base)) =
        some (located base text) := by
    rw [urlClass_href, urlClass_resolve, (slashed_wellFormed wellFormed).parse_href, Option.bind_some,
      relative.resolve_eq, located]
    simp only [slashed, List.dropLast_concat]
  rw [buildUrl, baseUrl_eq hbase, processedPath_slash, Option.bind_eq_bind,
    Option.bind_some, hresolve]
  rfl

theorem processedPath_href (url : Url) :
    processedPath url.href = url.href := by
  rw [processedPath, Url.href, String.toList_ofList, Url.hrefText]
  cases url.scheme <;> rfl

theorem buildUrl_href
    (hbase : Url.parse authorities (formattedUrl matrix_server) = some base)
    (text : List Char) :
    buildUrl (urlClass authorities) matrix_server (located base text).href =
      some (located base text).href := by
  have wellFormed := Url.parse_wellFormed hbase
  have hresolve : (urlClass authorities).resolve (located base text).href
      ((urlClass authorities).href (slashed base)) =
        some (located base text) := by
    rw [urlClass_href, urlClass_resolve, (slashed_wellFormed wellFormed).parse_href, Option.bind_some,
      (located_wellFormed wellFormed text).resolve_href,
      parse_located wellFormed]
  rw [buildUrl, baseUrl_eq hbase, processedPath_href, Option.bind_eq_bind,
    Option.bind_some, hresolve]
  rfl

end Built

/-! The segments of what is requested. -/

namespace Operation

/-- The path without its first slash. -/
def text (operation : Operation) (userId : String) : List Char :=
  ['/'].intercalate (operation.before ++ userId.toList :: operation.after)

theorem text_eq (operation : Operation) (userId : String) :
    operation.text userId =
      ['/'].intercalate operation.before ++ '/' :: (userId.toList ++
        operation.after.flatMap ('/' :: ·)) := by
  have hbefore : operation.before ≠ [] := by cases operation <;> exact nofun
  rw [text, intercalate_append hbefore, List.flatMap_cons]
  rfl

theorem path_eq (operation : Operation) (userId : String) :
    operation.path userId = String.ofList ('/' :: operation.text userId) := by
  apply String.toList_injective
  rw [String.toList_ofList, text_eq]
  cases operation with
  | deleteUserMedia =>
      have hpath : deleteUserMedia.path userId =
          "/_synapse/admin/v1/users/" ++ userId ++ "/media" := rfl
      have hfront : "/_synapse/admin/v1/users/".toList =
          '/' :: (['/'].intercalate deleteUserMedia.before ++ ['/']) := by
        decide
      have hback : "/media".toList =
          deleteUserMedia.after.flatMap ('/' :: ·) := by decide
      rw [hpath, String.toList_append, String.toList_append, hfront, hback]
      simp only [List.cons_append, List.append_assoc, List.nil_append]
  | disableUserAccount =>
      have hpath : disableUserAccount.path userId =
          "/_synapse/admin/v1/deactivate/" ++ userId := rfl
      have hfront : "/_synapse/admin/v1/deactivate/".toList =
          '/' :: (['/'].intercalate disableUserAccount.before ++ ['/']) := by
        decide
      rw [hpath, String.toList_append, hfront]
      simp [after]
  | updateUserInformation =>
      have hpath : updateUserInformation.path userId =
          "/_synapse/admin/v2/users/" ++ userId := rfl
      have hfront : "/_synapse/admin/v2/users/".toList =
          '/' :: (['/'].intercalate updateUserInformation.before ++ ['/']) := by
        decide
      rw [hpath, String.toList_append, hfront]
      simp [after]

theorem isIdChar_around (operation : Operation) :
    ∀ segment ∈ operation.before ++ operation.after,
      ∀ c ∈ segment, isIdChar c = true ∧ c ≠ '/' := by
  cases operation <;> simp [before, after, isIdChar]

theorem isIdChar_of_mem_text {operation : Operation} {userId : String}
    (valid : isMatrixId userId = true) :
    ∀ c ∈ operation.text userId, isIdChar c = true := by
  intro c hc
  rcases mem_intercalate hc with rfl | ⟨segment, hsegment, hmem⟩
  · decide
  · have haround := operation.isIdChar_around segment
    rw [List.mem_append, List.mem_cons] at hsegment
    rw [List.mem_append] at haround
    rcases hsegment with hbefore | rfl | hafter
    · exact (haround (.inl hbefore) c hmem).1
    · exact isIdChar_of_isMatrixId valid c hmem
    · exact (haround (.inr hafter) c hmem).1

theorem text_isRelativePath (operation : Operation) {userId : String}
    (valid : isMatrixId userId = true) :
    Url.IsRelativePath (operation.text userId) where
  noScheme := by cases operation <;> rfl
  first := by cases operation <;> exact ⟨'_', rfl, rfl⟩
  plain := by
    intro c hc
    obtain ⟨hencoded, _, _⟩ :=
      plain_of_isIdChar (isIdChar_of_mem_text valid c hc)
    exact ⟨Url.solid_of_not_isEncoded hencoded,
      Url.isPathEnd_of_not_isEncoded hencoded⟩

theorem requested_eq {authorities : Url.Authorities} {matrix_server : String}
    {base : Url}
    (hbase : Url.parse authorities (formattedUrl matrix_server) = some base)
    (operation : Operation) {userId : String}
    (valid : isMatrixId userId = true) :
    operation.requested authorities matrix_server userId =
      some (located base (operation.text userId)).href := by
  have hbuilt := buildUrl_eq hbase (operation.text_isRelativePath valid)
  rw [← path_eq] at hbuilt
  cases operation with
  | deleteUserMedia => exact hbuilt
  | disableUserAccount => exact hbuilt
  | updateUserInformation =>
      have hrequested : updateUserInformation.requested authorities
          matrix_server userId =
            (buildUrl (urlClass authorities) matrix_server
              (updateUserInformation.path userId)).bind
                (buildUrl (urlClass authorities) matrix_server) := rfl
      rw [hrequested, hbuilt, Option.bind_some, buildUrl_href hbase]

end Operation

/-! Where the requests go. -/

section Targets

variable {authorities : Url.Authorities} {matrix_server : String} {base : Url}
  {operation : Operation} {userId : String}

theorem toList_of_isMatrixId (valid : isMatrixId userId = true) :
    ∃ rest, userId.toList = '@' :: rest := by
  obtain ⟨localpart, serverName, built⟩ := toMatrixId_of_isMatrixId valid
  obtain ⟨_, _, _, _, _, rfl⟩ := toMatrixId_eq_ok_iff.mp built
  exact ⟨_, toList_joined localpart serverName⟩

theorem id_isClean (valid : isMatrixId userId = true)
    (noSlash : '/' ∉ userId.toList) : Url.IsClean userId.toList := by
  have hplain := fun c hc => plain_of_isIdChar (isIdChar_of_isMatrixId valid c hc)
  have hdots : Url.isSingleDot userId.toList = false ∧
      Url.isDoubleDot userId.toList = false := by
    obtain ⟨rest, hrest⟩ := toList_of_isMatrixId valid
    rw [hrest]
    exact Url.not_isDot (by decide) (by decide) rest
  refine ⟨⟨fun c hc => ?_, fun c hc => (hplain c hc).1⟩, hdots.1, hdots.2⟩
  have hslash : c ≠ '/' := by
    rintro rfl
    exact noSlash hc
  simp [Url.isSlash, hslash, (hplain c hc).2.1]

theorem around_isClean (operation : Operation) :
    ∀ segment ∈ operation.before ++ operation.after, Url.IsClean segment := by
  intro segment hsegment
  have hchars := operation.isIdChar_around segment hsegment
  have hdots : ∀ segment ∈ operation.before ++ operation.after,
      Url.isSingleDot segment = false ∧ Url.isDoubleDot segment = false := by
    cases operation <;> decide
  refine ⟨⟨fun c hc => ?_, fun c hc => ?_⟩, (hdots segment hsegment).1,
    (hdots segment hsegment).2⟩
  · obtain ⟨hid, hslash⟩ := hchars c hc
    simp [Url.isSlash, hslash, (plain_of_isIdChar hid).2.1]
  · exact (plain_of_isIdChar (hchars c hc).1).1

theorem path_located (base : Url) (operation : Operation)
    (valid : isMatrixId userId = true) (noSlash : '/' ∉ userId.toList) :
    (located base (operation.text userId)).path =
      directory base ++
        (operation.before ++ userId.toList :: operation.after) := by
  apply Url.parsePath_intercalate
  · exact List.append_ne_nil_of_right_ne_nil _ (List.cons_ne_nil _ _)
  · intro segment hsegment
    have haround := around_isClean operation segment
    rw [List.mem_append] at haround
    rw [List.mem_append, List.mem_cons] at hsegment
    rcases hsegment with hbefore | rfl | hafter
    · exact haround (.inl hbefore)
    · exact id_isClean valid noSlash
    · exact haround (.inr hafter)

/-- Whatever the path, its segments for the operation have neither slashes nor
percent signs. -/
theorem grown_located (base : Url) (operation : Operation)
    (valid : isMatrixId userId = true) :
    Url.Grown (fun segment => '%' ∉ segment ∧ '/' ∉ segment) (directory base)
      (located base (operation.text userId)).path := by
  apply Url.grown_normalise ⟨List.not_mem_nil, List.not_mem_nil⟩
  rw [List.forall_mem_map]
  intro segment hsegment
  have hchars : ∀ c ∈ segment, isIdChar c = true := fun c hc =>
    operation.isIdChar_of_mem_text valid c
      (Url.mem_of_mem_segments hsegment hc).1
  rw [Url.encode_of_plain fun c hc => (plain_of_isIdChar (hchars c hc)).1]
  constructor
  · exact fun hc => (plain_of_isIdChar (hchars '%' hc)).2.2 rfl
  · exact fun hc =>
      absurd (Url.mem_of_mem_segments hsegment hc).2 (by decide)

theorem targets_of_noSlash
    (hbase : Url.parse authorities (formattedUrl matrix_server) = some base)
    (valid : isMatrixId userId = true) (noSlash : '/' ∉ userId.toList) :
    Targets authorities base operation userId
      (operation.requested authorities matrix_server userId) := by
  have wellFormed := Url.parse_wellFormed hbase
  rw [operation.requested_eq hbase valid]
  refine ⟨_, _, userId.toList, rfl, parse_located wellFormed _, rfl, rfl,
    path_located base operation valid noSlash, ?_⟩
  apply Url.decodedSegment_of_plain
  intro hpercent
  exact (plain_of_isIdChar (isIdChar_of_isMatrixId valid '%' hpercent)).2.2 rfl

theorem noSlash_of_targets
    (hbase : Url.parse authorities (formattedUrl matrix_server) = some base)
    (valid : isMatrixId userId = true)
    (targets : Targets authorities base operation userId
      (operation.requested authorities matrix_server userId)) :
    '/' ∉ userId.toList := by
  have wellFormed := Url.parse_wellFormed hbase
  rw [operation.requested_eq hbase valid] at targets
  obtain ⟨href, url, segment, hhref, hparse, _, _, hpath, hdecoded⟩ := targets
  obtain rfl := Option.some.inj hhref
  rw [parse_located wellFormed] at hparse
  obtain rfl := Option.some.inj hparse
  have hsegment := (grown_located base operation valid).kind_of_append hpath
    segment (List.mem_append_right _ List.mem_cons_self)
  rw [Url.decodedSegment_of_plain hsegment.1] at hdecoded
  rw [← hdecoded]
  exact hsegment.2

/-- An operation is about the user just when there is no slash in the ID. -/
theorem operation_targets_iff
    (hbase : Url.parse authorities (formattedUrl matrix_server) = some base)
    (operation : Operation) (valid : isMatrixId userId = true) :
    Targets authorities base operation userId
        (operation.requested authorities matrix_server userId) ↔
      '/' ∉ userId.toList :=
  ⟨noSlash_of_targets hbase valid, targets_of_noSlash hbase valid⟩

end Targets

def twakeBase : Url :=
  ⟨.https, "matrix.twake.app".toList, [[]], none, none⟩

theorem wellFormed_twakeBase : Url.WellFormed .verbatim twakeBase where
  authority := rfl
  nonempty := List.cons_ne_nil [] []
  clean _ hsegment := List.mem_singleton.mp hsegment ▸ Url.isClean_nil
  query _ hquery := nomatch hquery
  fragment _ hfragment := nomatch hfragment

theorem parse_twakeBase :
    Url.parse .verbatim (formattedUrl "https://matrix.twake.app/") =
      some twakeBase := by
  have hhref : formattedUrl "https://matrix.twake.app/" = twakeBase.href := rfl
  rw [hhref]
  exact wellFormed_twakeBase.parse_href_of_bare rfl rfl

theorem operation_targets_alice :
    Targets .verbatim twakeBase .deleteUserMedia "@alice:twake.app"
        (Operation.requested .verbatim "https://matrix.twake.app/" "@alice:twake.app"
          .deleteUserMedia) ↔
      '/' ∉ "@alice:twake.app".toList :=
  operation_targets_iff parse_twakeBase .deleteUserMedia (by decide)

/-- The dots take the user away, and the request goes to another path. -/
theorem dots_miss :
    isMatrixId "@a/../../statistics/users/media=:twake.app" = true ∧
      ¬ Targets .verbatim twakeBase .deleteUserMedia
        "@a/../../statistics/users/media=:twake.app"
        (Operation.requested .verbatim "https://matrix.twake.app/"
          "@a/../../statistics/users/media=:twake.app" .deleteUserMedia) := by
  have valid :
      isMatrixId "@a/../../statistics/users/media=:twake.app" = true := by
    decide
  refine ⟨valid, fun targets => ?_⟩
  exact absurd (noSlash_of_targets parse_twakeBase valid targets) (by decide)

end AdminUrls

end TwakeKickstart.TomServer
