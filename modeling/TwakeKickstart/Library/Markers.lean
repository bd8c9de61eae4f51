import Mathlib.Data.List.DropRight

namespace TwakeKickstart.Library

/-! Blocks of a text between two markers, and the text without them. -/

/-- What follows the first occurrence of a pattern. -/
def after (pattern : List Char) : List Char → Option (List Char)
  | [] => none
  | c :: rest =>
      if pattern.isPrefixOf (c :: rest) then
        some ((c :: rest).drop pattern.length)
      else after pattern rest

/-- A text that has its first character only once and ends with no space. -/
structure IsMarker (space : Char → Bool) (first : Char) (text : List Char) :
    Prop where
  head : ∃ tail, text = first :: tail ∧ first ∉ tail
  last : ∀ c, text.getLast? = some c → space c = false
  newline : '\n' ∉ text

structure Markers where
  space : Char → Bool
  first : Char
  opening : List Char
  closing : List Char
  space_first : space first = false
  isMarker_opening : IsMarker space first opening
  isMarker_closing : IsMarker space first closing

namespace Markers

variable (markers : Markers)

def dropNewline : List Char → List Char
  | '\n' :: rest => rest
  | text => text

/-- What follows a block with the spaces before it and its line's end. -/
def blockAt (text : List Char) : Option (List Char) :=
  let text := text.dropWhile markers.space
  if markers.opening.isPrefixOf text then
    (after markers.closing (text.drop markers.opening.length)).map dropNewline
  else none

/-- Each block becomes one line's end. -/
def stripFrom : Nat → List Char → List Char
  | _, [] => []
  | skip + 1, _ :: rest => stripFrom skip rest
  | 0, c :: rest =>
      match markers.blockAt (c :: rest) with
      | some following =>
          '\n' :: stripFrom (rest.length - following.length) rest
      | none => c :: stripFrom 0 rest

def strip (text : List Char) : List Char := markers.stripFrom 0 text

end Markers

/-! Occurrences of a pattern. -/

theorem after_cons_of_prefix {pattern rest : List Char}
    (nonempty : pattern ≠ []) :
    after pattern (pattern ++ rest) = some rest := by
  cases pattern with
  | nil => exact absurd rfl nonempty
  | cons c pattern =>
      have hprefix : (c :: pattern).isPrefixOf (c :: (pattern ++ rest)) =
          true :=
        List.isPrefixOf_iff_prefix.mpr (List.prefix_append (c :: pattern) rest)
      rw [List.cons_append, after, if_pos hprefix, ← List.cons_append,
        List.drop_left]

theorem after_cons {pattern rest : List Char} {c : Char}
    (h : ¬ pattern <+: c :: rest) :
    after pattern (c :: rest) = after pattern rest := by
  rw [← List.isPrefixOf_iff_prefix] at h
  rw [after, if_neg h]

theorem after_eq_some {pattern text following : List Char}
    (h : after pattern text = some following) :
    ∃ before, text = before ++ (pattern ++ following) ∧
      after pattern before = none := by
  induction text with
  | nil => cases h
  | cons c text ih =>
      by_cases hprefix : pattern <+: c :: text
      · rw [after, if_pos (List.isPrefixOf_iff_prefix.mpr hprefix)] at h
        obtain ⟨tail, htail⟩ := hprefix
        rw [← htail, List.drop_left] at h
        cases h
        exact ⟨[], htail.symm, rfl⟩
      · rw [after_cons hprefix] at h
        obtain ⟨before, rfl, hbefore⟩ := ih h
        refine ⟨c :: before, rfl, ?_⟩
        rw [after_cons, hbefore]
        intro hshort
        exact hprefix (hshort.trans (List.prefix_append (c :: before) _))

theorem after_eq_none_iff {pattern text : List Char}
    (nonempty : pattern ≠ []) :
    after pattern text = none ↔ ¬ pattern <:+: text := by
  induction text with
  | nil =>
      refine iff_of_true rfl fun h => nonempty ?_
      exact List.infix_nil.mp h
  | cons c text ih =>
      rw [List.infix_cons_iff, not_or, ← ih]
      by_cases hat : pattern <+: c :: text
      · refine iff_of_false ?_ fun h => h.1 hat
        rw [after, if_pos (List.isPrefixOf_iff_prefix.mpr hat)]
        exact nofun
      · rw [after_cons hat]
        exact ⟨fun h => ⟨hat, h⟩, fun h => h.2⟩

namespace IsMarker

variable {space : Char → Bool} {first : Char} {pattern : List Char}

theorem ne_nil (marker : IsMarker space first pattern) : pattern ≠ [] := by
  obtain ⟨tail, rfl, _⟩ := marker.head
  exact List.cons_ne_nil _ _

theorem prefix_of_append (marker : IsMarker space first pattern)
    {text rest : List Char} (nonempty : text ≠ [])
    (h : pattern <+: text ++ first :: rest) : pattern <+: text := by
  obtain ⟨tail, rfl, htail⟩ := marker.head
  obtain ⟨following, hfollowing⟩ := h
  obtain ⟨surplus, htext, _⟩ | ⟨surplus, hpattern, hover⟩ :=
    List.append_eq_append_iff.mp hfollowing
  · exact ⟨surplus, htext.symm⟩
  · cases surplus with
    | nil => exact ⟨[], by rw [List.append_nil, hpattern, List.append_nil]⟩
    | cons d surplus =>
        cases text with
        | nil => exact absurd rfl nonempty
        | cons c text =>
            rw [List.cons_append] at hover hpattern
            rw [(List.cons.inj hpattern).2, (List.cons.inj hover).1] at htail
            exact absurd (List.mem_append_right _ List.mem_cons_self) htail

theorem after_append (marker : IsMarker space first pattern)
    {text : List Char} (rest : List Char) (h : after pattern text = none) :
    after pattern (text ++ (pattern ++ rest)) = some rest := by
  induction text with
  | nil => exact after_cons_of_prefix marker.ne_nil
  | cons c text ih =>
      rw [after_eq_none_iff marker.ne_nil, List.infix_cons_iff, not_or] at h
      rw [List.cons_append, after_cons]
      · exact ih ((after_eq_none_iff marker.ne_nil).mpr h.2)
      · intro hprefix
        apply h.1
        obtain ⟨tail, htail, _⟩ := marker.head
        apply marker.prefix_of_append (List.cons_ne_nil c text)
        · rw [htail] at hprefix ⊢
          exact hprefix

theorem after_spaces (marker : IsMarker space first pattern)
    {text spaces : List Char} (all : ∀ c ∈ spaces, space c = true)
    (h : after pattern text = none) :
    after pattern (text ++ spaces) = none := by
  rw [after_eq_none_iff marker.ne_nil] at h ⊢
  induction spaces using List.reverseRecOn with
  | nil => rwa [List.append_nil]
  | append_singleton spaces c ih =>
      rw [← List.append_assoc, List.infix_concat_iff, not_or]
      constructor
      · rintro ⟨before, hbefore⟩
        have hlast : pattern.getLast? = some c := by
          have hsame := congrArg List.getLast? hbefore
          rw [List.getLast?_concat,
            List.getLast?_append_of_ne_nil _ marker.ne_nil] at hsame
          exact hsame
        have hsolid := marker.last c hlast
        rw [all c (List.mem_append_right _ (List.mem_singleton_self c))]
          at hsolid
        cases hsolid
      · exact ih fun c hc => all c (List.mem_append_left _ hc)

theorem after_append_none (marker : IsMarker space first pattern)
    {text rest : List Char} (h : after pattern text = none)
    (hrest : after pattern (first :: rest) = none) :
    after pattern (text ++ first :: rest) = none := by
  induction text with
  | nil => exact hrest
  | cons c text ih =>
      rw [after_eq_none_iff marker.ne_nil, List.infix_cons_iff, not_or] at h
      rw [List.cons_append, after_cons]
      · exact ih ((after_eq_none_iff marker.ne_nil).mpr h.2)
      · exact fun hprefix => h.1
          (marker.prefix_of_append (List.cons_ne_nil c text) hprefix)

theorem after_newline (marker : IsMarker space first pattern)
    {line rest : List Char} (h : after pattern line = none)
    (hrest : after pattern rest = none) :
    after pattern (line ++ '\n' :: rest) = none := by
  induction line with
  | nil =>
      rw [List.nil_append, after_cons, hrest]
      intro hprefix
      obtain ⟨tail, rfl, _⟩ := marker.head
      have hnewline := marker.newline
      rw [(List.cons_prefix_cons.mp hprefix).1] at hnewline
      exact hnewline List.mem_cons_self
  | cons c line ih =>
      rw [after_eq_none_iff marker.ne_nil, List.infix_cons_iff, not_or] at h
      rw [List.cons_append, after_cons]
      · exact ih ((after_eq_none_iff marker.ne_nil).mpr h.2)
      · rintro ⟨following, hfollowing⟩
        rw [← List.cons_append] at hfollowing
        obtain ⟨surplus, hline, _⟩ | ⟨surplus, hpattern, hover⟩ :=
          List.append_eq_append_iff.mp hfollowing
        · exact h.1 ⟨surplus, hline.symm⟩
        · cases surplus with
          | nil =>
              exact h.1 ⟨[], by rw [List.append_nil, hpattern, List.append_nil]⟩
          | cons d surplus =>
              apply marker.newline
              rw [hpattern, (List.cons.inj hover).1]
              exact List.mem_append_right _ List.mem_cons_self

end IsMarker

/-! The text without its blocks. -/

namespace Markers

variable (markers : Markers)

theorem stripFrom_append (passed rest : List Char) :
    markers.stripFrom passed.length (passed ++ rest) =
      markers.strip rest := by
  induction passed with
  | nil => rfl
  | cons c passed ih => exact ih

theorem after_suffix {pattern text following : List Char}
    (h : after pattern text = some following) : following <:+ text := by
  obtain ⟨before, rfl, _⟩ := after_eq_some h
  rw [← List.append_assoc]
  exact List.suffix_append _ _

theorem dropNewline_suffix (text : List Char) : dropNewline text <:+ text := by
  unfold dropNewline
  split
  · exact List.suffix_cons _ _
  · exact List.suffix_refl _

theorem dropNewline_cons (text : List Char) :
    dropNewline ('\n' :: text) = text := rfl

theorem blockAt_eq_some {text following : List Char}
    (h : markers.blockAt text = some following) :
    ∃ rest, text.dropWhile markers.space = markers.opening ++ rest ∧
      ∃ tail, after markers.closing rest = some tail ∧
        dropNewline tail = following := by
  rw [blockAt] at h
  split at h
  · rename_i hprefix
    obtain ⟨rest, hrest⟩ := List.isPrefixOf_iff_prefix.mp hprefix
    rw [← hrest, List.drop_left] at h
    exact ⟨rest, hrest.symm, Option.map_eq_some_iff.mp h⟩
  · cases h

theorem blockAt_eq_none {text : List Char}
    (h : ¬ markers.opening <+: text.dropWhile markers.space) :
    markers.blockAt text = none := by
  rw [blockAt, if_neg (by rwa [List.isPrefixOf_iff_prefix])]

theorem strip_cons_none {c : Char} {rest : List Char}
    (h : markers.blockAt (c :: rest) = none) :
    markers.strip (c :: rest) = c :: markers.strip rest := by
  rw [strip, stripFrom, h]
  rfl

theorem blockAt_suffix {c : Char} {text following : List Char}
    (h : markers.blockAt (c :: text) = some following) :
    following <:+ text := by
  obtain ⟨rest, hrest, tail, htail, rfl⟩ := markers.blockAt_eq_some h
  have hsuffix := (dropNewline_suffix tail).trans (after_suffix htail)
  obtain ⟨head, hhead, _⟩ := markers.isMarker_opening.head
  have hdrop := @List.dropWhile_suffix _ (c :: text) markers.space
  rw [hrest, hhead, List.cons_append, List.suffix_cons_iff] at hdrop
  have hover := hsuffix.trans (List.suffix_append head rest)
  obtain hsame | hdrop := hdrop
  · rwa [(List.cons.inj hsame).2] at hover
  · exact (hover.trans (List.suffix_cons _ _)).trans hdrop

theorem strip_some {text following : List Char}
    (h : markers.blockAt text = some following) :
    markers.strip text = '\n' :: markers.strip following := by
  cases text with
  | nil =>
      obtain ⟨rest, hrest, _⟩ := markers.blockAt_eq_some h
      obtain ⟨head, hhead, _⟩ := markers.isMarker_opening.head
      rw [List.dropWhile_nil, hhead] at hrest
      cases hrest
  | cons c text =>
      obtain ⟨passed, rfl⟩ := markers.blockAt_suffix h
      rw [strip, stripFrom, h]
      dsimp only
      rw [List.length_append, Nat.add_sub_cancel, stripFrom_append]

/-- A text up to the spaces at its end. -/
def trimEnd (text : List Char) : List Char := text.rdropWhile markers.space

theorem trimEnd_cons {c : Char} {text : List Char}
    (h : ¬ ∀ d ∈ c :: text, markers.space d = true) :
    markers.trimEnd (c :: text) = c :: markers.trimEnd text := by
  rw [trimEnd, trimEnd, List.rdropWhile, List.rdropWhile, List.reverse_cons,
    List.dropWhile_append]
  split
  · rename_i hempty
    have hall := List.dropWhile_eq_nil_iff.mp (List.isEmpty_iff.mp hempty)
    have hc : ¬ markers.space c = true := by
      intro hc
      apply h
      intro d hd
      obtain rfl | hd := List.mem_cons.mp hd
      · exact hc
      · exact hall d (List.mem_reverse.mpr hd)
    rw [List.dropWhile_cons_of_neg hc, List.isEmpty_iff.mp hempty]
    rfl
  · rw [List.reverse_append]
    rfl

theorem blockAt_spaces {spaces rest tail : List Char}
    (all : ∀ c ∈ spaces, markers.space c = true)
    (h : after markers.closing rest = some tail) :
    markers.blockAt (spaces ++ (markers.opening ++ rest)) =
      some (dropNewline tail) := by
  have hdrop : (spaces ++ (markers.opening ++ rest)).dropWhile markers.space =
      markers.opening ++ rest := by
    obtain ⟨head, hhead, _⟩ := markers.isMarker_opening.head
    rw [List.dropWhile_append_of_pos all, hhead]
    exact List.dropWhile_cons_of_neg (by simp [markers.space_first])
  rw [blockAt, hdrop, if_pos (List.isPrefixOf_iff_prefix.mpr
    (List.prefix_append _ _)), List.drop_left, h]
  rfl

theorem strip_append {text rest tail : List Char}
    (before : after markers.opening text = none)
    (h : after markers.closing rest = some tail) :
    markers.strip (text ++ (markers.opening ++ rest)) =
      markers.trimEnd text ++ '\n' :: markers.strip (dropNewline tail) := by
  induction text with
  | nil => exact markers.strip_some (markers.blockAt_spaces nofun h)
  | cons c text ih =>
      by_cases hall : ∀ d ∈ c :: text, markers.space d = true
      · rw [trimEnd, List.rdropWhile_eq_nil_iff.mpr hall]
        exact markers.strip_some (markers.blockAt_spaces hall h)
      · have hfound := (after_eq_none_iff markers.isMarker_opening.ne_nil).mp
          before
        have hafter : after markers.opening text = none := by
          rw [after_eq_none_iff markers.isMarker_opening.ne_nil]
          exact fun hshort => hfound (hshort.trans (List.infix_cons
            (List.infix_refl text)))
        rw [trimEnd_cons markers hall, List.cons_append, List.cons_append,
          ← ih hafter]
        apply markers.strip_cons_none
        apply markers.blockAt_eq_none
        have hne : (c :: text).dropWhile markers.space ≠ [] :=
          fun hnil => hall (List.dropWhile_eq_nil_iff.mp hnil)
        intro hprefix
        obtain ⟨head, hhead, _⟩ := markers.isMarker_opening.head
        rw [← List.cons_append, List.dropWhile_append,
          if_neg (by rwa [List.isEmpty_iff])] at hprefix
        have hshort : markers.opening <+:
            (c :: text).dropWhile markers.space := by
          apply markers.isMarker_opening.prefix_of_append hne
          rw [← List.cons_append, ← hhead]
          exact hprefix
        exact hfound (hshort.isInfix.trans
          (List.dropWhile_suffix markers.space).isInfix)

/-! No block is left, and a text without blocks stays. -/

def HasBlock (text : List Char) : Prop :=
  ∃ before body rest, text = before ++
    (markers.opening ++ (body ++ (markers.closing ++ rest)))

theorem HasBlock.append {markers : Markers} {text : List Char}
    (h : markers.HasBlock text) (before rest : List Char) :
    markers.HasBlock (before ++ (text ++ rest)) := by
  obtain ⟨first, body, last, rfl⟩ := h
  exact ⟨before ++ first, body, last ++ rest, by simp⟩

theorem prefix_of_strip {pattern text : List Char} (newline : '\n' ∉ pattern)
    (h : pattern <+: markers.strip text) : pattern <+: text := by
  induction pattern generalizing text with
  | nil => exact List.nil_prefix
  | cons c pattern ih =>
      have hc : c ≠ '\n' := fun hc => newline (hc ▸ List.mem_cons_self)
      cases text with
      | nil => exact h
      | cons d text =>
          cases hblock : markers.blockAt (d :: text) with
          | some following =>
              rw [markers.strip_some hblock, List.cons_prefix_cons] at h
              exact absurd h.1 hc
          | none =>
              rw [markers.strip_cons_none hblock, List.cons_prefix_cons] at h
              rw [List.cons_prefix_cons]
              exact ⟨h.1, ih (fun hmem =>
                newline (List.mem_cons_of_mem _ hmem)) h.2⟩

theorem infix_of_strip {pattern : List Char} (newline : '\n' ∉ pattern) :
    ∀ text, pattern <:+: markers.strip text → pattern <:+: text
  | [], h => h
  | c :: text, h => by
      cases hblock : markers.blockAt (c :: text) with
      | some following =>
          have hsuffix := markers.blockAt_suffix hblock
          have hlength := hsuffix.length_le
          rw [markers.strip_some hblock, List.infix_cons_iff] at h
          obtain h | h := h
          · obtain ⟨tail, htail⟩ := h
            cases pattern with
            | nil => exact List.nil_infix
            | cons d pattern =>
                rw [List.cons_append] at htail
                rw [(List.cons.inj htail).1] at newline
                exact absurd List.mem_cons_self newline
          · exact (infix_of_strip newline following h).trans
              (hsuffix.isInfix.trans (List.suffix_cons c text).isInfix)
      | none =>
          have hprefix := @prefix_of_strip markers pattern (c :: text) newline
          rw [markers.strip_cons_none hblock] at h hprefix
          rw [List.infix_cons_iff] at h ⊢
          exact h.imp hprefix (infix_of_strip newline text)
termination_by text => text.length

theorem infix_of_append {space : Char → Bool} {first : Char}
    {pattern : List Char} (marker : IsMarker space first pattern)
    {text rest : List Char} (htext : first ∉ text)
    (h : pattern <:+: text ++ rest) : pattern <:+: rest := by
  induction text with
  | nil => exact h
  | cons c text ih =>
      rw [List.cons_append, List.infix_cons_iff] at h
      obtain h | h := h
      · obtain ⟨tail, rfl, _⟩ := marker.head
        rw [(List.cons_prefix_cons.mp h).1] at htext
        exact absurd List.mem_cons_self htext
      · exact ih (fun hmem => htext (List.mem_cons_of_mem _ hmem)) h

theorem strip_ne_block {c : Char} {text body rest : List Char}
    (hblock : markers.blockAt (c :: text) = none) :
    c :: markers.strip text ≠
      markers.opening ++ (body ++ (markers.closing ++ rest)) := by
  intro h
  have hopening : markers.opening <+: c :: text := by
    apply markers.prefix_of_strip markers.isMarker_opening.newline
    rw [markers.strip_cons_none hblock, h]
    exact List.prefix_append _ _
  obtain ⟨inner, hinner⟩ := hopening
  obtain ⟨tail, htail, hfirst⟩ := markers.isMarker_opening.head
  have hclosing : markers.closing <:+: inner := by
    apply infix_of_append markers.isMarker_closing hfirst
    rw [htail, List.cons_append] at h hinner
    rw [(List.cons.inj hinner).2]
    apply markers.infix_of_strip markers.isMarker_closing.newline
    rw [(List.cons.inj h).2]
    exact ⟨tail ++ body, rest, by simp⟩
  cases hafter : after markers.closing inner with
  | none =>
      exact (after_eq_none_iff markers.isMarker_closing.ne_nil).mp hafter
        hclosing
  | some following =>
      have hsome := markers.blockAt_spaces (List.forall_mem_nil _) hafter
      rw [List.nil_append, hinner, hblock] at hsome
      cases hsome

theorem not_hasBlock_strip : ∀ text, ¬ markers.HasBlock (markers.strip text)
  | [], h => by
      obtain ⟨before, body, rest, h⟩ := h
      have hnil := (List.append_eq_nil_iff.mp h.symm).2
      exact markers.isMarker_opening.ne_nil (List.append_eq_nil_iff.mp hnil).1
  | c :: text, h => by
      obtain ⟨before, body, rest, h⟩ := h
      cases hblock : markers.blockAt (c :: text) with
      | some following =>
          have hlength := (markers.blockAt_suffix hblock).length_le
          rw [markers.strip_some hblock] at h
          cases before with
          | nil =>
              obtain ⟨tail, htail, _⟩ := markers.isMarker_opening.head
              have hnewline := markers.isMarker_opening.newline
              rw [htail] at h hnewline
              rw [(List.cons.inj h).1] at hnewline
              exact hnewline List.mem_cons_self
          | cons d before =>
              exact not_hasBlock_strip following
                ⟨before, body, rest, (List.cons.inj h).2⟩
      | none =>
          rw [markers.strip_cons_none hblock] at h
          cases before with
          | nil => exact markers.strip_ne_block hblock h
          | cons d before =>
              exact not_hasBlock_strip text
                ⟨before, body, rest, (List.cons.inj h).2⟩
termination_by text => text.length

theorem strip_eq_self {text : List Char} (h : ¬ markers.HasBlock text) :
    markers.strip text = text := by
  induction text with
  | nil => rfl
  | cons c text ih =>
      rw [markers.strip_cons_none, ih]
      · exact fun hshort => h (by simpa using hshort.append [c] [])
      · rw [Option.eq_none_iff_forall_ne_some]
        intro following hblock
        obtain ⟨rest, hrest, tail, htail, _⟩ := markers.blockAt_eq_some hblock
        obtain ⟨body, rfl, _⟩ := after_eq_some htail
        obtain ⟨spaces, hspaces⟩ := @List.dropWhile_suffix _ (c :: text)
          markers.space
        rw [hrest] at hspaces
        exact h ⟨spaces, body, tail, hspaces.symm⟩

/-! Blocks that are put into a text, and taken out of it again. -/

structure Block where
  lead : List Char
  body : List Char
  spaces : ∀ c ∈ lead, markers.space c = true
  unclosed : after markers.closing (markers.opening ++ body) = none

def Block.text {markers : Markers} (block : markers.Block) : List Char :=
  block.lead ++ (markers.opening ++
    (block.body ++ (markers.closing ++ ['\n'])))

variable {markers}

theorem trimEnd_spaces {text spaces : List Char}
    (all : ∀ c ∈ spaces, markers.space c = true) :
    markers.trimEnd (text ++ spaces) = markers.trimEnd text := by
  rw [trimEnd, trimEnd, List.rdropWhile, List.rdropWhile, List.reverse_append,
    List.dropWhile_append_of_pos]
  exact fun c hc => all c (List.mem_reverse.mp hc)

theorem length_trimEnd_le (text : List Char) :
    (markers.trimEnd text).length ≤ text.length :=
  (List.rdropWhile_prefix _ _).length_le

theorem strip_block (block : markers.Block) {text : List Char}
    (rest : List Char) (h : ¬ markers.HasBlock text) :
    ∃ kept, markers.strip (text ++ (block.text ++ rest)) =
        kept ++ '\n' :: markers.strip rest ∧
      (kept = markers.trimEnd text ∨
        kept.length + markers.opening.length ≤ text.length) := by
  have hclosing := markers.isMarker_closing
  cases hopen : after markers.opening text with
  | none =>
      have hbody : after markers.closing block.body = none := by
        rw [after_eq_none_iff hclosing.ne_nil]
        intro hfound
        exact (after_eq_none_iff hclosing.ne_nil).mp block.unclosed
          (hfound.trans (List.suffix_append _ _).isInfix)
      refine ⟨markers.trimEnd text, ?_, .inl rfl⟩
      have hstrip := markers.strip_append
        (markers.isMarker_opening.after_spaces block.spaces hopen)
        (hclosing.after_append ('\n' :: rest) hbody)
      rw [trimEnd_spaces block.spaces, dropNewline_cons] at hstrip
      rw [← hstrip, Block.text]
      simp only [List.append_assoc, List.singleton_append]
  | some inner =>
      obtain ⟨before, rfl, hbefore⟩ := after_eq_some hopen
      have hinner : after markers.closing inner = none := by
        rw [Option.eq_none_iff_forall_ne_some]
        intro following hfollowing
        obtain ⟨body, rfl, _⟩ := after_eq_some hfollowing
        exact h ⟨before, body, following, rfl⟩
      have hlead := hclosing.after_spaces block.spaces hinner
      have hall : after markers.closing ((inner ++ block.lead) ++
          (markers.opening ++ block.body)) = none := by
        have hunclosed := block.unclosed
        obtain ⟨tail, htail, _⟩ := markers.isMarker_opening.head
        rw [htail] at hunclosed ⊢
        exact hclosing.after_append_none hlead hunclosed
      refine ⟨markers.trimEnd before, ?_, .inr ?_⟩
      · have hstrip := markers.strip_append hbefore
          (hclosing.after_append ('\n' :: rest) hall)
        rw [dropNewline_cons] at hstrip
        rw [← hstrip, Block.text]
        simp only [List.append_assoc, List.singleton_append]
      · have hlength := @length_trimEnd_le markers before
        rw [List.length_append, List.length_append]
        omega

/-- Two blocks that are taken out leave a line's end each, where there were
spaces. -/
theorem append_eq_of_strip {first second last : List Char}
    (block other : markers.Block) (long : 3 ≤ markers.opening.length)
    (h : markers.strip (first ++ (block.text ++
      (second ++ (other.text ++ last)))) = first ++ (second ++ last)) :
    first ++ second =
      markers.trimEnd first ++ '\n' :: (markers.trimEnd second ++ ['\n']) := by
  have hnone := markers.not_hasBlock_strip (first ++ (block.text ++
    (second ++ (other.text ++ last))))
  rw [h] at hnone
  have hfirst : ¬ markers.HasBlock first :=
    fun hblock => hnone (by simpa using hblock.append [] (second ++ last))
  have hsecond : ¬ markers.HasBlock second :=
    fun hblock => hnone (by simpa using hblock.append first last)
  have hlast : ¬ markers.HasBlock last :=
    fun hblock => hnone (by simpa using hblock.append (first ++ second) [])
  obtain ⟨kept, hkept, hshort⟩ := strip_block block
    (second ++ (other.text ++ last)) hfirst
  obtain ⟨keptOther, hkeptOther, hshortOther⟩ := strip_block other last hsecond
  rw [hkept, hkeptOther, markers.strip_eq_self hlast] at h
  have hsame : first ++ second = kept ++ '\n' :: (keptOther ++ ['\n']) := by
    have happend : (first ++ second) ++ last =
        (kept ++ '\n' :: (keptOther ++ ['\n'])) ++ last := by
      simpa using h.symm
    exact List.append_cancel_right happend
  have hlength := congrArg List.length hsame
  simp only [List.length_append, List.length_cons, List.length_nil] at hlength
  have hle := @length_trimEnd_le markers first
  have hleOther := @length_trimEnd_le markers second
  -- an open block would leave too little
  obtain rfl | hshort := hshort
  · obtain rfl | hshortOther := hshortOther
    · exact hsame
    · omega
  · obtain rfl | hshortOther := hshortOther
    · omega
    · omega

end Markers

end TwakeKickstart.Library
