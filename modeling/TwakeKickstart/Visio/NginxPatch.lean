import TwakeKickstart.Library.Markers

namespace TwakeKickstart.Visio

open Library

/-! The widget's fragments in the configuration of a virtual host. -/

namespace NginxPatch

/-- The class `\s` of a text. -/
def isSpace (c : Char) : Bool :=
  c == ' ' || ('\t' ≤ c && c ≤ '\r') || ('\u001c' ≤ c && c ≤ '\u001f') ||
    c == '\u0085' || c == '\u00a0' || c == '\u1680' ||
    ('\u2000' ≤ c && c ≤ '\u200a') || c == '\u2028' || c == '\u2029' ||
    c == '\u202f' || c == '\u205f' || c == '\u3000'

def vhostPath : String := "/etc/nginx/sites-enabled/twake-dev"

def beginMarker : List Char := "# BEGIN visio-inject".toList

def endMarker : List Char := "# END visio-inject".toList

def unlines (lines : List String) : List Char :=
  lines.flatMap fun line => line.toList ++ ['\n']

/-- A fragment's lines between the markers. -/
def fragment (indent : String) (lines : List String) : List Char :=
  indent.toList ++ (beginMarker ++ '\n' ::
    (unlines lines ++ (indent.toList ++ (endMarker ++ ['\n']))))

def locationLines : List String := [
  "    # Serve the injected widget + silent-OIDC callback locally so",
  "    # cozy-stack never sees these URLs.",
  "    location /visio-patches/ \x7b",
  "        alias /var/www/visio-patches/;",
  "        add_header Cache-Control \"no-cache\";",
  "        default_type application/javascript;",
  "    \x7d",
  "    location = /oauth-silent-callback \x7b",
  "        alias /var/www/visio-patches/silent-callback.html;",
  "        add_header Cache-Control \"no-cache\";",
  "        default_type text/html;",
  "    \x7d"]

def locationSnippet : List Char := fragment "    " locationLines

def subfilterLines : List String := [
  "        # Empty for non-visio hosts (see map in conf.d/visio-inject.conf).",
  "        proxy_set_header Accept-Encoding \"\";",
  "        sub_filter_once on;",
  "        sub_filter '</body>' '$visio_inject</body>';"]

def subfilterSnippet : List Char := fragment "        " subfilterLines

theorem isMarker_begin : IsMarker isSpace '#' beginMarker where
  head := ⟨" BEGIN visio-inject".toList, rfl, by decide⟩
  last := fun c hc => by cases hc; decide
  newline := by decide

theorem isMarker_end : IsMarker isSpace '#' endMarker where
  head := ⟨" END visio-inject".toList, rfl, by decide⟩
  last := fun c hc => by cases hc; decide
  newline := by decide

/-- `\s*# BEGIN visio-inject.*?# END visio-inject\n?` is what is stripped. -/
def markers : Markers where
  space := isSpace
  first := '#'
  opening := beginMarker
  closing := endMarker
  space_first := by decide
  isMarker_opening := isMarker_begin
  isMarker_closing := isMarker_end

/-- What an expression takes from a text, and what it leaves. -/
abbrev Pattern := List Char → Option (List Char × List Char)

namespace Pattern

def word (text : String) : Pattern := fun rest =>
  if text.toList.isPrefixOf rest then
    some (text.toList, rest.drop text.toList.length)
  else none

/-- All the spaces that there are: what follows them here is none. -/
def spaces (least : Nat) : Pattern := fun text =>
  let run := text.takeWhile isSpace
  if least ≤ run.length then some (run, text.dropWhile isSpace) else none

/-- `\s*\n`, up to the last line's end among the spaces. -/
def lineEnd : Pattern := fun text =>
  let run := (text.takeWhile isSpace).rdropWhile (· ≠ '\n')
  if run = [] then none else some (run, text.drop run.length)

def andThen (first second : Pattern) : Pattern := fun text =>
  (first text).bind fun taken =>
    (second taken.2).map fun more => (taken.1 ++ more.1, more.2)

/-- The text up to the first match's end, and the text after it. -/
def search (pattern : Pattern) (anchored : Bool) :
    Bool → List Char → Option (List Char × List Char)
  | lineStart, [] => if lineStart || !anchored then pattern [] else none
  | lineStart, c :: rest =>
      match if lineStart || !anchored then pattern (c :: rest) else none with
      | some found => some found
      | none =>
          (search pattern anchored (c == '\n') rest).map fun found =>
            (c :: found.1, found.2)

end Pattern

/-- `^\s*server\s*\{\s*\n`, at a line's beginning. -/
def serverOpen : Pattern :=
  (Pattern.spaces 0).andThen <| (Pattern.word "server").andThen <|
    (Pattern.spaces 0).andThen <| (Pattern.word "\x7b").andThen Pattern.lineEnd

/-- `location\s+/\s*\{` -/
def locationOpen : Pattern :=
  (Pattern.word "location").andThen <| (Pattern.spaces 1).andThen <|
    (Pattern.word "/").andThen <| (Pattern.spaces 0).andThen <|
      Pattern.word "\x7b"

/-- The text of the file afterwards, from the text before. -/
def patchVhost (src : List Char) : Except String (List Char) :=
  let stripped := markers.strip src
  match serverOpen.search true true stripped with
  | none => .error s!"couldn't find \x60server \x7b\x60 in {vhostPath}"
  | some (before, following) =>
      let patched := before ++ (locationSnippet ++ following)
      match locationOpen.search false true patched with
      | none => .error s!"couldn't find \x60location /\x60 in {vhostPath}"
      | some (before, following) =>
          .ok (before ++ '\n' :: (subfilterSnippet ++ following))

/-! The law of a tool that is run on its own output. -/

def lines (text : List Char) : List (List Char) := text.splitOn '\n'

def holds (marker line : List Char) : Bool := (after marker line).isSome

/-- The lines outside the blocks, from one marker's line to the other's. -/
def linesOutside : Bool → List (List Char) → List (List Char)
  | _, [] => []
  | true, line :: rest => linesOutside (!holds endMarker line) rest
  | false, line :: rest =>
      if holds beginMarker line && rest.any (holds endMarker) then
        linesOutside true rest
      else line :: linesOutside false rest

structure Idempotent (src patched : List Char) : Prop where
  again : patchVhost patched = .ok patched
  kept : (linesOutside false (lines src)).Sublist (lines patched)

/-! The fragments are blocks. -/

theorem after_unlines {lines : List String}
    (h : ∀ line ∈ lines, after endMarker line.toList = none) :
    after endMarker (unlines lines) = none := by
  induction lines with
  | nil => rfl
  | cons line lines ih =>
      have hlines := ih fun line hline => h line (List.mem_cons_of_mem _ hline)
      rw [unlines, List.flatMap_cons, List.append_assoc]
      exact isMarker_end.after_newline (h line List.mem_cons_self) hlines

/-- A fragment, after a line's end or not. -/
def fragmentBlock (gap indent : List Char) (lines : List String)
    (gap_spaces : ∀ c ∈ gap, isSpace c = true)
    (indent_spaces : ∀ c ∈ indent, isSpace c = true)
    (unmarked : ∀ line ∈ lines, after endMarker line.toList = none) :
    markers.Block where
  lead := gap ++ indent
  body := '\n' :: (unlines lines ++ indent)
  spaces := fun c hc => (List.mem_append.mp hc).elim (gap_spaces c)
    (indent_spaces c)
  unclosed := isMarker_end.after_newline rfl
    (isMarker_end.after_spaces indent_spaces (after_unlines unmarked))

theorem fragmentBlock_text {gap : List Char} {indent : String}
    {lines : List String} (gap_spaces : ∀ c ∈ gap, isSpace c = true)
    (indent_spaces : ∀ c ∈ indent.toList, isSpace c = true)
    (unmarked : ∀ line ∈ lines, after endMarker line.toList = none) :
    (fragmentBlock gap indent.toList lines gap_spaces indent_spaces
      unmarked).text = gap ++ fragment indent lines := by
  simp [fragmentBlock, Markers.Block.text, fragment, markers]

theorem unmarked_ofList {text : List Char}
    (h : after ['#', ' ', 'E', 'N', 'D', ' ', 'v', 'i', 's', 'i', 'o', '-', 'i',
      'n', 'j', 'e', 'c', 't'] text = none) :
    after endMarker (String.ofList text).toList = none := by
  have hmarker : endMarker = _ := String.toList_ofList
  rw [hmarker, String.toList_ofList]
  exact h

theorem location_unmarked :
    ∀ line ∈ locationLines, after endMarker line.toList = none := by
  unfold locationLines
  repeat refine List.forall_mem_cons.mpr ⟨unmarked_ofList (by decide), ?_⟩
  exact nofun

theorem subfilter_unmarked :
    ∀ line ∈ subfilterLines, after endMarker line.toList = none := by
  unfold subfilterLines
  repeat refine List.forall_mem_cons.mpr ⟨unmarked_ofList (by decide), ?_⟩
  exact nofun

def locationBlock : markers.Block :=
  fragmentBlock [] "    ".toList locationLines nofun
    (List.all_eq_true.mp (by decide)) location_unmarked

theorem locationBlock_text : locationBlock.text = locationSnippet :=
  fragmentBlock_text _ _ _

def subfilterBlock : markers.Block :=
  fragmentBlock ['\n'] "        ".toList subfilterLines
    (List.all_eq_true.mp (by decide)) (List.all_eq_true.mp (by decide))
    subfilter_unmarked

theorem subfilterBlock_text :
    subfilterBlock.text = '\n' :: subfilterSnippet :=
  fragmentBlock_text _ _ _

/-! What the expressions take. -/

/-- A pattern splits a text, and what it takes has a form. -/
def Takes (pattern : Pattern) (form : List Char → Prop) : Prop :=
  ∀ text taken rest, pattern text = some (taken, rest) →
    text = taken ++ rest ∧ form taken

theorem takes_word (text : String) :
    Takes (Pattern.word text) (· = text.toList) := by
  intro whole taken rest h
  rw [Pattern.word] at h
  split at h
  · rename_i hprefix
    obtain ⟨following, rfl⟩ := List.isPrefixOf_iff_prefix.mp hprefix
    rw [List.drop_left] at h
    cases h
    exact ⟨rfl, rfl⟩
  · cases h

def IsSpaces (text : List Char) : Prop := ∀ c ∈ text, isSpace c = true

theorem isSpaces_takeWhile (text : List Char) :
    IsSpaces (text.takeWhile isSpace) :=
  fun _ hc => List.mem_takeWhile_imp hc

theorem takes_spaces (least : Nat) : Takes (Pattern.spaces least)
    fun taken => IsSpaces taken ∧ least ≤ taken.length := by
  intro text taken rest h
  rw [Pattern.spaces] at h
  split at h
  · rename_i hleast
    cases h
    exact ⟨List.takeWhile_append_dropWhile.symm, isSpaces_takeWhile text,
      hleast⟩
  · cases h

theorem takes_lineEnd : Takes Pattern.lineEnd
    fun taken => IsSpaces taken ∧ taken ≠ [] := by
  intro text taken rest h
  rw [Pattern.lineEnd] at h
  split at h
  · cases h
  · rename_i hne
    cases h
    have hshort := List.rdropWhile_prefix (· ≠ '\n') (text.takeWhile isSpace)
    have hprefix := hshort.trans (List.takeWhile_prefix isSpace)
    exact ⟨(List.prefix_iff_eq_append.mp hprefix).symm,
      fun c hc => isSpaces_takeWhile text c (hshort.subset hc), hne⟩

theorem takes_andThen {first second : Pattern} {form next : List Char → Prop}
    (hfirst : Takes first form) (hsecond : Takes second next) :
    Takes (first.andThen second) fun taken =>
      ∃ before following, taken = before ++ following ∧ form before ∧
        next following := by
  intro text taken rest h
  obtain ⟨found, hfound, hmore⟩ := Option.bind_eq_some_iff.mp h
  obtain ⟨more, hnext, hresult⟩ := Option.map_eq_some_iff.mp hmore
  cases hresult
  obtain ⟨rfl, hform⟩ := hfirst text found.1 found.2 hfound
  obtain ⟨hrest, hnext⟩ := hsecond found.2 more.1 more.2 hnext
  refine ⟨?_, found.1, more.1, rfl, hform, hnext⟩
  rw [List.append_assoc, ← hrest]

theorem takes_search {pattern : Pattern} {form : List Char → Prop}
    (h : Takes pattern form) (anchored lineStart : Bool) :
    Takes (pattern.search anchored lineStart) fun taken =>
      ∃ skipped found, taken = skipped ++ found ∧ form found := by
  intro text
  induction text generalizing lineStart with
  | nil =>
      intro taken rest hsearch
      rw [Pattern.search] at hsearch
      split at hsearch
      · obtain ⟨hsplit, hform⟩ := h [] taken rest hsearch
        exact ⟨hsplit, [], taken, rfl, hform⟩
      · cases hsearch
  | cons c text ih =>
      intro taken rest hsearch
      rw [Pattern.search] at hsearch
      split at hsearch
      · rename_i found hfound
        cases hsearch
        split at hfound
        · obtain ⟨hsplit, hform⟩ := h (c :: text) taken rest hfound
          exact ⟨hsplit, [], taken, rfl, hform⟩
        · cases hfound
      · obtain ⟨found, hfound, hresult⟩ := Option.map_eq_some_iff.mp hsearch
        cases hresult
        obtain ⟨rfl, skipped, last, hskipped, hform⟩ :=
          ih (c == '\n') found.1 found.2 hfound
        exact ⟨rfl, c :: skipped, last, congrArg (c :: ·) hskipped, hform⟩

/-- A text that ends with an opening brace after `server`, and spaces. -/
def IsServerOpen (text : List Char) : Prop :=
  ∃ name gap run, text = name ++ 'r' :: gap ++ ['\x7b'] ++ run ∧
    IsSpaces gap ∧ IsSpaces run ∧ run ≠ []

/-- A text that ends with an opening brace after `location /`. -/
def IsLocationOpen (text : List Char) : Prop :=
  ∃ name c gap, text = name ++ [c] ++ '/' :: gap ++ ['\x7b'] ∧
    isSpace c = true ∧ IsSpaces gap

theorem serverOpen_split {lineStart : Bool} {text before following : List Char}
    (h : serverOpen.search true lineStart text = some (before, following)) :
    text = before ++ following ∧ IsServerOpen before := by
  have htakes : Takes serverOpen _ :=
    takes_andThen (takes_spaces 0) <| takes_andThen (takes_word "server") <|
      takes_andThen (takes_spaces 0) <| takes_andThen (takes_word "\x7b")
        takes_lineEnd
  obtain ⟨hsplit, skipped, found, rfl, lead, rest, rfl, _, name, rest, rfl,
    rfl, gap, rest, rfl, ⟨hgap, _⟩, brace, run, rfl, rfl, hrun, hne⟩ :=
      takes_search htakes true lineStart text before following h
  refine ⟨hsplit, skipped ++ (lead ++ "serve".toList), gap, run, ?_, hgap, hrun,
    hne⟩
  simp

theorem locationOpen_split {lineStart : Bool}
    {text before following : List Char}
    (h : locationOpen.search false lineStart text = some (before, following)) :
    text = before ++ following ∧ IsLocationOpen before := by
  have htakes : Takes locationOpen _ :=
    takes_andThen (takes_word "location") <| takes_andThen (takes_spaces 1) <|
      takes_andThen (takes_word "/") <| takes_andThen (takes_spaces 0)
        (takes_word "\x7b")
  obtain ⟨hsplit, skipped, found, rfl, word, rest, rfl, rfl, space, rest, rfl,
    ⟨hspace, hlength⟩, slash, rest, rfl, rfl, gap, brace, rfl, ⟨hgap, _⟩, rfl⟩ :=
      takes_search htakes false lineStart text before following h
  have hne : space ≠ [] := List.ne_nil_of_length_pos hlength
  refine ⟨hsplit, skipped ++ ("location".toList ++ space.dropLast),
    space.getLast hne, gap, ?_, hspace _ (List.getLast_mem hne), hgap⟩
  have hlast := List.dropLast_append_getLast hne
  simp only [List.append_assoc]
  rw [← List.append_assoc space.dropLast, hlast]
  simp

/-! What stands before an opening brace. -/

theorem trimEnd_append {text gap : List Char} {c : Char}
    (hc : isSpace c = false) (hgap : IsSpaces gap) :
    markers.trimEnd (text ++ c :: gap) = text ++ [c] := by
  rw [List.append_cons, @Markers.trimEnd_spaces markers _ gap hgap]
  exact List.rdropWhile_concat_neg _ _ _ (by
    change ¬ isSpace c = true
    rw [hc]
    exact Bool.false_ne_true)

theorem IsLocationOpen.before {text : List Char}
    (h : IsLocationOpen (text ++ ['\x7b'])) :
    ∃ name c, markers.trimEnd text = name ++ [c] ++ ['/'] ∧
      isSpace c = true := by
  obtain ⟨name, c, gap, htext, hc, hgap⟩ := h
  rw [List.append_cancel_right htext]
  exact ⟨name, c, trimEnd_append (by decide) hgap, hc⟩

theorem not_isLocationOpen {text gap : List Char} {c d : Char}
    (hd : isSpace d = false) (hgap : IsSpaces gap)
    (h : d ≠ '/' ∨ isSpace c = false) :
    ¬ IsLocationOpen (text ++ [c] ++ d :: gap ++ ['\x7b']) := by
  intro hopen
  obtain ⟨name, e, htrim, he⟩ := hopen.before
  rw [trimEnd_append hd hgap] at htrim
  obtain ⟨hinit, hlast⟩ := List.append_inj' htrim rfl
  obtain h | h := h
  · exact h (List.singleton_inj.mp hlast)
  · rw [List.singleton_inj.mp (List.append_inj' hinit rfl).2, he] at h
    cases h

theorem toList_ofList_append {text first second : List Char}
    (h : text = first ++ second) :
    (String.ofList text).toList = (String.ofList first).toList ++ second := by
  rw [String.toList_ofList, String.toList_ofList, h]

theorem not_mem_ofList {c : Char} {text : List Char} (h : c ∉ text) :
    c ∉ (String.ofList text).toList := by
  rwa [String.toList_ofList]

theorem unlines_append (first second : List String) :
    unlines (first ++ second) = unlines first ++ unlines second :=
  List.flatMap_append

theorem unlines_cons (line : String) (lines : List String) :
    unlines (line :: lines) = line.toList ++ '\n' :: unlines lines :=
  List.append_assoc line.toList ['\n'] (unlines lines)

theorem unlines_ofList {line : List Char} {lines : List String} :
    unlines (String.ofList line :: lines) = line ++ '\n' :: unlines lines := by
  rw [unlines_cons, String.toList_ofList]

theorem not_mem_unlines {c : Char} {lines : List String} (newline : c ≠ '\n')
    (h : ∀ line ∈ lines, c ∉ line.toList) : c ∉ unlines lines := by
  intro hmem
  obtain ⟨line, hline, hmem⟩ := List.mem_flatMap.mp hmem
  rcases List.mem_append.mp hmem with hmem | hmem
  · exact h line hline hmem
  · exact newline (List.mem_singleton.mp hmem)

theorem locationSnippet_eq : locationSnippet =
    ("    ".toList ++ (beginMarker ++ '\n' ::
      (unlines (locationLines.take 2) ++
        "    location /visio-patches/ ".toList))) ++ '\x7b' ::
    (('\n' :: (unlines ((locationLines.drop 3).take 4) ++
      "    location = /oauth-silent-callback ".toList)) ++ '\x7b' ::
      ('\n' :: (unlines (locationLines.drop 8) ++
        ("    ".toList ++ (endMarker ++ ['\n']))))) := by
  have hlines : locationLines = locationLines.take 2 ++
      "    location /visio-patches/ \x7b" ::
        ((locationLines.drop 3).take 4 ++
          "    location = /oauth-silent-callback \x7b" ::
            locationLines.drop 8) := rfl
  have hfirst : "    location /visio-patches/ \x7b".toList =
      "    location /visio-patches/ ".toList ++ ['\x7b'] :=
    toList_ofList_append rfl
  have hsecond : "    location = /oauth-silent-callback \x7b".toList =
      "    location = /oauth-silent-callback ".toList ++ ['\x7b'] :=
    toList_ofList_append rfl
  have hunlines := congrArg unlines hlines
  rw [unlines_append, unlines_cons, unlines_append, unlines_cons, hfirst,
    hsecond] at hunlines
  rw [locationSnippet, fragment, hunlines]
  simp only [List.append_assoc, List.cons_append, List.nil_append,
    -String.reduceToList]

theorem split_at {c : Char} {first rest before following : List Char}
    (hfirst : c ∉ first)
    (h : first ++ c :: rest = before ++ c :: following) :
    (before = first ∧ rest = following) ∨
      ∃ between, before = first ++ c :: between ∧
        rest = between ++ c :: following := by
  obtain ⟨surplus, hbefore, hover⟩ | ⟨surplus, hover, hfollowing⟩ :=
    List.append_eq_append_iff.mp h
  · cases surplus with
    | nil =>
        rw [List.append_nil] at hbefore
        exact .inl ⟨hbefore, (List.cons.inj hover).2⟩
    | cons d between =>
        obtain ⟨rfl, hrest⟩ := List.cons.inj hover
        exact .inr ⟨between, hbefore, hrest⟩
  · cases surplus with
    | nil =>
        rw [List.append_nil] at hover
        exact .inl ⟨hover.symm, (List.cons.inj hfollowing).2.symm⟩
    | cons d between =>
        obtain ⟨rfl, _⟩ := List.cons.inj hfollowing
        rw [hover] at hfirst
        exact absurd (List.mem_append_right _ List.mem_cons_self) hfirst

theorem not_isLocationOpen_snippet (text : List Char)
    {before following : List Char}
    (h : locationSnippet = before ++ '\x7b' :: following) :
    ¬ IsLocationOpen (text ++ (before ++ ['\x7b'])) := by
  have hgap : IsSpaces [' '] := List.all_eq_true.mp (by decide)
  have hpatches : "    location /visio-patches/ ".toList =
      "    location /visio-patche".toList ++ ['s', '/', ' '] :=
    toList_ofList_append rfl
  have hcallback : "    location = /oauth-silent-callback ".toList =
      "    location = /oauth-silent-callba".toList ++ ['c', 'k', ' '] :=
    toList_ofList_append rfl
  rw [locationSnippet_eq] at h
  have hbrace : '\x7b' ≠ '\n' := by decide
  have hbegin : '\x7b' ∉ beginMarker := not_mem_ofList (by decide)
  have hend : '\x7b' ∉ endMarker := not_mem_ofList (by decide)
  have hindent : '\x7b' ∉ "    ".toList := not_mem_ofList (by decide)
  have hplain : ∀ line ∈ locationLines.take 2 ++
      ((locationLines.drop 3).take 4 ++ locationLines.drop 8),
      '\x7b' ∉ line.toList := by
    repeat refine List.forall_mem_cons.mpr ⟨not_mem_ofList (by decide), ?_⟩
    exact nofun
  rw [List.forall_mem_append, List.forall_mem_append] at hplain
  have hcomments := not_mem_unlines hbrace hplain.1
  have hinside := not_mem_unlines hbrace hplain.2.1
  have hclosing := not_mem_unlines hbrace hplain.2.2
  have hfirstText : '\x7b' ∉ "    location /visio-patches/ ".toList :=
    not_mem_ofList (by decide)
  have hsecondText : '\x7b' ∉ "    location = /oauth-silent-callback ".toList :=
    not_mem_ofList (by decide)
  obtain ⟨rfl, _⟩ | ⟨between, rfl, hrest⟩ := split_at
    (List.not_mem_append hindent (List.not_mem_append hbegin
      (List.not_mem_cons_of_ne_of_not_mem hbrace
        (List.not_mem_append hcomments hfirstText)))) h
  · have hopen := @not_isLocationOpen (text ++ ("    ".toList ++
      (beginMarker ++ '\n' :: (unlines (locationLines.take 2) ++
        "    location /visio-patche".toList)))) [' '] 's' '/' (by decide) hgap
          (.inr (by decide))
    rw [hpatches]
    simpa only [List.append_assoc, List.cons_append, List.nil_append,
      -String.reduceToList] using hopen
  obtain ⟨rfl, _⟩ | ⟨last, rfl, hlast⟩ := split_at
    (List.not_mem_cons_of_ne_of_not_mem hbrace
      (List.not_mem_append hinside hsecondText)) hrest
  · have hopen := @not_isLocationOpen (text ++ ("    ".toList ++
      (beginMarker ++ '\n' :: (unlines (locationLines.take 2) ++
        "    location /visio-patches/ ".toList)) ++ '\x7b' ::
          ('\n' :: (unlines ((locationLines.drop 3).take 4) ++
            "    location = /oauth-silent-callba".toList)))) [' '] 'c' 'k'
      (by decide) hgap (.inl (by decide))
    rw [hcallback]
    simpa only [List.append_assoc, List.cons_append, List.nil_append,
      -String.reduceToList] using hopen
  · have hmem := List.mem_append_right last
      (@List.mem_cons_self _ '\x7b' following)
    rw [← hlast] at hmem
    exact absurd hmem (List.not_mem_cons_of_ne_of_not_mem hbrace
      (List.not_mem_append hclosing (List.not_mem_append hindent
        (List.not_mem_append hend (List.not_mem_cons_of_ne_of_not_mem hbrace
          List.not_mem_nil)))))

/-! No text stays as it is. -/

theorem IsLocationOpen.getLast? {text : List Char} (h : IsLocationOpen text) :
    text.getLast? = some '\x7b' := by
  obtain ⟨name, c, gap, rfl, _⟩ := h
  exact List.getLast?_concat

theorem IsServerOpen.getLast? {text : List Char} (h : IsServerOpen text) :
    ∃ c, text.getLast? = some c ∧ isSpace c = true := by
  obtain ⟨name, gap, run, rfl, _, hrun, hne⟩ := h
  rw [List.getLast?_append_of_ne_nil _ hne, List.getLast?_eq_some_getLast hne]
  exact ⟨_, rfl, hrun _ (List.getLast_mem hne)⟩

theorem not_isServerOpen {text : List Char} (h : IsLocationOpen text) :
    ¬ IsServerOpen text := by
  intro hopen
  obtain ⟨c, hlast, hc⟩ := hopen.getLast?
  rw [h.getLast?] at hlast
  rw [← Option.some.inj hlast] at hc
  exact absurd hc (by decide)

theorem getLast?_fragment (indent : String) (lines : List String) :
    (fragment indent lines).getLast? = some '\n' := by
  simp [fragment, List.getLast?_append, List.getLast?_cons]

theorem location_cases {opened rest before following : List Char}
    (hopened : IsServerOpen opened) (hbefore : IsLocationOpen before)
    (h : opened ++ (locationSnippet ++ rest) = before ++ following) :
    (∃ between, opened = before ++ between ∧
      following = between ++ (locationSnippet ++ rest)) ∨
    ∃ between, before = opened ++ (locationSnippet ++ between) ∧
      rest = between ++ following ∧ between ≠ [] := by
  obtain ⟨between, rfl, hfollowing⟩ | hbetween :=
    List.append_eq_append_iff.mp h
  · have hne : between ≠ [] := by
      rintro rfl
      rw [List.append_nil] at hbefore
      exact not_isServerOpen hbefore hopened
    have hbrace := hbefore.getLast?
    rw [List.getLast?_append_of_ne_nil _ hne] at hbrace
    obtain ⟨surplus, rfl, hrest⟩ | ⟨surplus, hsnippet, _⟩ :=
      List.append_eq_append_iff.mp hfollowing
    · refine .inr ⟨surplus, rfl, hrest, ?_⟩
      rintro rfl
      rw [List.append_nil, locationSnippet, getLast?_fragment] at hbrace
      exact absurd hbrace (by decide)
    · obtain ⟨init, rfl⟩ := List.getLast?_eq_some_iff.mp hbrace
      rw [List.append_assoc] at hsnippet
      exact absurd hbefore (not_isLocationOpen_snippet opened hsnippet)
  · exact .inl hbetween

theorem patchVhost_ok {src patched : List Char}
    (h : patchVhost src = .ok patched) :
    ∃ opened rest before following, markers.strip src = opened ++ rest ∧
      IsServerOpen opened ∧ IsLocationOpen before ∧
      opened ++ (locationSnippet ++ rest) = before ++ following ∧
      patched = before ++ ('\n' :: subfilterSnippet ++ following) := by
  rw [patchVhost] at h
  split at h
  · cases h
  rename_i opened rest hopened
  dsimp only at h
  split at h
  · cases h
  rename_i before following hbefore
  obtain ⟨hstripped, hopen⟩ := serverOpen_split hopened
  obtain ⟨hsplit, hlocation⟩ := locationOpen_split hbefore
  exact ⟨opened, rest, before, following, hstripped, hopen, hlocation, hsplit,
    (Except.ok.inj h).symm⟩

/-- Where a location's brace comes before a server's, the latter ends what is
between them, but for the spaces. -/
theorem between_split {before between : List Char}
    (hlocation : IsLocationOpen before)
    (hopen : IsServerOpen (before ++ between)) :
    ∃ init run, between = init ++ '\x7b' :: run ∧ IsSpaces run := by
  obtain ⟨name, gap, run, hsplit, hgap, hrun, hne⟩ := hopen
  have hbrace := hlocation.getLast?
  have hother : before ≠ name ++ 'r' :: gap ++ ['\x7b'] := by
    intro hsame
    obtain ⟨init, c, htrim, hc⟩ := (hsame ▸ hlocation).before
    rw [trimEnd_append (by decide) hgap] at htrim
    exact absurd (List.singleton_inj.mp (List.append_inj' htrim rfl).2)
      (by decide)
  obtain ⟨surplus, hover, hbetween⟩ | ⟨surplus, hover, hover'⟩ :=
    List.append_eq_append_iff.mp hsplit
  · have hover_ne : surplus ≠ [] := by
      rintro rfl
      exact hother (by rw [hover, List.append_nil])
    have hlast := congrArg List.getLast? hover
    rw [List.getLast?_concat, List.getLast?_append_of_ne_nil _ hover_ne] at hlast
    obtain ⟨init, rfl⟩ := List.getLast?_eq_some_iff.mp hlast.symm
    refine ⟨init, run, ?_, hrun⟩
    rw [hbetween, List.append_assoc]
    rfl
  · have hover_ne : surplus ≠ [] := by
      rintro rfl
      exact hother (by rw [hover, List.append_nil])
    rw [hover, List.getLast?_append_of_ne_nil _ hover_ne] at hbrace
    have hspace := hrun '\x7b' (by
      rw [hover']
      exact List.mem_append_left _ (List.mem_of_getLast? hbrace))
    exact absurd hspace (by decide)

theorem patchVhost_ne_self (text : List Char) : patchVhost text ≠ .ok text := by
  intro h
  obtain ⟨opened, rest, before, following, hstripped, hopen, hlocation, hsplit,
    hpatched⟩ := patchVhost_ok h
  have hlong : 3 ≤ markers.opening.length := by decide
  obtain ⟨between, rfl, rfl⟩ | ⟨between, rfl, rfl, hne⟩ :=
    location_cases hopen hlocation hsplit
  · -- the location comes first
    have hsame := @Markers.append_eq_of_strip markers before between rest
      subfilterBlock locationBlock hlong (by
        rw [subfilterBlock_text, locationBlock_text, ← hpatched, hstripped,
          List.append_assoc])
    obtain ⟨init, run, rfl, hrun⟩ := between_split hlocation hopen
    obtain ⟨start, rfl⟩ := List.getLast?_eq_some_iff.mp hlocation.getLast?
    have hnone : IsSpaces [] := fun _ hc => absurd hc List.not_mem_nil
    rw [trimEnd_append (by decide) hnone, trimEnd_append (by decide) hrun]
      at hsame
    have hends := List.append_cancel_left hsame
    have hlength := congrArg List.length hends
    simp only [List.length_append, List.length_cons, List.length_nil] at hlength
    obtain ⟨a, b, rfl⟩ := List.length_eq_two.mp
      (show run.length = 2 by omega)
    -- the space after the brace would be the brace
    have hinit : (init ++ ['\x7b'] ++ [a]) ++ [b] =
        '\n' :: (init ++ ['\x7b']) ++ ['\n'] := by
      simpa using hends
    have hbrace := congrArg List.getLast? (List.append_inj' hinit rfl).1
    rw [List.getLast?_concat, List.getLast?_cons, List.getLast?_concat] at hbrace
    have hspace := hrun a List.mem_cons_self
    rw [Option.some.inj hbrace] at hspace
    exact absurd hspace (by decide)
  · -- the server comes first
    have hsame := @Markers.append_eq_of_strip markers opened between following
      locationBlock subfilterBlock hlong (by
        rw [subfilterBlock_text, locationBlock_text, ← hstripped, hpatched]
        simp only [List.append_assoc])
    have hbrace := hlocation.getLast?
    have hlast := congrArg List.getLast? hsame
    rw [List.getLast?_append_of_ne_nil _ hne, ← List.cons_append,
      ← List.append_assoc, List.getLast?_concat] at hlast
    rw [← List.append_assoc, List.getLast?_append_of_ne_nil _ hne, hlast]
      at hbrace
    exact absurd hbrace (by decide)

/-- What the tool has written it changes again. -/
theorem not_idempotent {src patched : List Char}
    (_ : patchVhost src = .ok patched) : ¬ Idempotent src patched :=
  fun h => patchVhost_ne_self patched h.again

def plainVhost : List Char := unlines [
  "server \x7b",
  "    location / \x7b",
  "        proxy_pass http://cozy;",
  "    \x7d",
  "\x7d"]

theorem search_ne_none {pattern : Pattern} {skipped rest : List Char}
    (h : pattern rest ≠ none) (lineStart : Bool) :
    pattern.search false lineStart (skipped ++ rest) ≠ none := by
  induction skipped generalizing lineStart with
  | nil =>
      cases rest with
      | nil =>
          rw [List.nil_append, Pattern.search, if_pos (by simp)]
          exact h
      | cons c rest =>
          rw [List.nil_append, Pattern.search, if_pos (by simp)]
          obtain ⟨found, hfound⟩ := Option.ne_none_iff_exists'.mp h
          rw [hfound]
          exact nofun
  | cons c skipped ih =>
      rw [List.cons_append, Pattern.search]
      split
      · exact nofun
      · exact fun hnone => ih (c == '\n') (Option.map_eq_none_iff.mp hnone)

theorem patchVhost_of_found {src opened rest before following : List Char}
    (hopen : serverOpen.search true true (markers.strip src) =
      some (opened, rest))
    (hlocation : locationOpen.search false true
      (opened ++ (locationSnippet ++ rest)) = some (before, following)) :
    patchVhost src = .ok (before ++ '\n' :: (subfilterSnippet ++ following)) := by
  rw [patchVhost, hopen]
  simp only [hlocation]

theorem patchVhost_plainVhost :
    ∃ patched, patchVhost plainVhost = .ok patched := by
  have hstrip : markers.strip plainVhost = plainVhost := by
    rw [plainVhost, unlines_ofList, unlines_ofList, unlines_ofList,
      unlines_ofList, unlines_ofList]
    rfl
  have hopen : serverOpen.search true true plainVhost =
      some (unlines ["server \x7b"], unlines ["    location / \x7b",
        "        proxy_pass http://cozy;", "    \x7d", "\x7d"]) := by
    rw [plainVhost, unlines_ofList, unlines_ofList, unlines_ofList,
      unlines_ofList, unlines_ofList]
    rfl
  have hlocation : locationOpen ("location / \x7b\n".toList ++ unlines
      ["        proxy_pass http://cozy;", "    \x7d", "\x7d"]) ≠ none := by
    decide
  have hfound := @search_ne_none locationOpen
    (unlines ["server \x7b"] ++ (locationSnippet ++ "    ".toList)) _
    hlocation true
  obtain ⟨found, hfound⟩ := Option.ne_none_iff_exists'.mp hfound
  refine ⟨found.1 ++ '\n' :: (subfilterSnippet ++ found.2), ?_⟩
  have htext : unlines ["server \x7b"] ++ (locationSnippet ++
      unlines ["    location / \x7b", "        proxy_pass http://cozy;",
        "    \x7d", "\x7d"]) =
      unlines ["server \x7b"] ++ (locationSnippet ++ "    ".toList) ++
        ("location / \x7b\n".toList ++ unlines
          ["        proxy_pass http://cozy;", "    \x7d", "\x7d"]) := by
    rw [List.append_assoc, List.append_assoc]
    rfl
  rw [← hstrip] at hopen
  refine patchVhost_of_found hopen ?_
  rw [htext]
  exact hfound

theorem not_idempotent_plainVhost : ∃ patched,
    patchVhost plainVhost = .ok patched ∧ ¬ Idempotent plainVhost patched := by
  obtain ⟨patched, hpatched⟩ := patchVhost_plainVhost
  exact ⟨patched, hpatched, not_idempotent hpatched⟩

/-- A second run does not leave a plain virtual host as the first one did. -/
theorem plainVhost_changes : ∃ patched,
    patchVhost plainVhost = .ok patched ∧ patchVhost patched ≠ .ok patched := by
  obtain ⟨patched, hpatched⟩ := patchVhost_plainVhost
  exact ⟨patched, hpatched, patchVhost_ne_self patched⟩

end NginxPatch

end TwakeKickstart.Visio
