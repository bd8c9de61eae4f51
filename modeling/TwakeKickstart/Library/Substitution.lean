import Mathlib.Data.List.Infix
import TwakeKickstart.Library.Text

namespace TwakeKickstart.Library

/-! Texts with placeholders in them, of which a chain of replacements fills one
after the other. -/

namespace Template

/-! `text.replace(/pattern/g, replacement)`: the pattern is a plain text, and
the replacement may refer to what stands around an occurrence. -/

inductive Part where
  | char (c : Char)
  | dollar
  | matched
  | preceding
  | following
  deriving DecidableEq

namespace Part

/-- What a dollar followed by a character stands for.  Without groups in the
pattern a digit or `<` behind it means nothing. -/
def ofDollar : Char → Option Part
  | '$' => some dollar
  | '&' => some matched
  | '`' => some preceding
  | '\'' => some following
  | _ => none

def ofPair (c d : Char) : Option Part := if c = '$' then ofDollar d else none

def text (before pattern after : List Char) : Part → List Char
  | char c => [c]
  | dollar => ['$']
  | matched => pattern
  | preceding => before
  | following => after

def IsChar : Part → Prop
  | char _ => True
  | _ => False

end Part

def parts : List Char → List Part
  | [] => []
  | [c] => [.char c]
  | c :: d :: rest =>
      match Part.ofPair c d with
      | some part => part :: parts rest
      | none => .char c :: parts (d :: rest)

/-- `before`: the text that has been passed over. -/
def substituteFrom (pattern replacement : List Char) :
    List Char → Nat → List Char → List Char
  | _, _, [] => []
  | before, skip + 1, c :: rest =>
      substituteFrom pattern replacement (before ++ [c]) skip rest
  | before, 0, c :: rest =>
      if pattern.isPrefixOf (c :: rest) then
        (parts replacement).flatMap
            (Part.text before pattern (rest.drop (pattern.length - 1))) ++
          substituteFrom pattern replacement (before ++ [c])
            (pattern.length - 1) rest
      else c :: substituteFrom pattern replacement (before ++ [c]) 0 rest

def substitute (pattern replacement text : List Char) : List Char :=
  substituteFrom pattern replacement [] 0 text

/-- A replacement text of which no character is interpreted. -/
def Plain (replacement : List Char) : Prop :=
  ∀ part ∈ parts replacement, part.IsChar

section Plain

theorem Part.not_isChar_of_ofPair {c d : Char} {part : Part}
    (h : Part.ofPair c d = some part) : ¬ part.IsChar := by
  rw [Part.ofPair, Part.ofDollar.eq_def] at h
  intro hchar
  split at h
  · split at h <;> cases h <;> exact hchar
  · cases h

theorem parts_of_plain {replacement : List Char}
    (plain : Plain replacement) :
    parts replacement = replacement.map Part.char := by
  induction replacement using parts.induct with
  | case1 => rfl
  | case2 c => rfl
  | case3 c d rest part hpair _ =>
      rw [Plain, parts, hpair] at plain
      exact absurd (plain part List.mem_cons_self)
        (Part.not_isChar_of_ofPair hpair)
  | case4 c d rest hpair ih =>
      rw [Plain, parts, hpair] at plain
      rw [parts, hpair, List.map_cons]
      apply congrArg (Part.char c :: ·)
      apply ih
      intro part hpart
      exact plain part (List.mem_cons_of_mem _ hpart)

theorem Part.ofPair_eq_none_iff {c d : Char} :
    Part.ofPair c d = none ↔ (c = '$' → d ∉ ['$', '&', '`', '\'']) := by
  rw [Part.ofPair, Part.ofDollar.eq_def]
  by_cases hc : c = '$'
  · rw [if_pos hc]
    split <;> simp_all
  · simp [hc]

theorem plain_cons {c d : Char} {rest : List Char}
    (hpair : Part.ofPair c d = none) :
    Plain (c :: d :: rest) ↔ Plain (d :: rest) := by
  rw [Plain, parts, hpair, List.forall_mem_cons]
  exact and_iff_right trivial

theorem dollar_prefix_iff {c d e : Char} {rest : List Char} :
    ['$', e] <+: c :: d :: rest ↔ c = '$' ∧ e = d := by
  rw [List.cons_prefix_cons, List.cons_prefix_cons]
  exact ⟨fun h => ⟨h.1.symm, h.2.1⟩,
    fun h => ⟨h.1.symm, h.2, List.nil_prefix⟩⟩

theorem plain_iff (replacement : List Char) :
    Plain replacement ↔
      ∀ d ∈ ['$', '&', '`', '\''], ¬ ['$', d] <:+: replacement := by
  induction replacement using parts.induct with
  | case1 =>
      apply iff_of_true
      · exact fun part hpart => absurd hpart List.not_mem_nil
      · intro d _ hwithin
        exact absurd hwithin.length_le (Nat.not_succ_le_zero 1)
  | case2 c =>
      apply iff_of_true
      · exact List.forall_mem_singleton.mpr trivial
      · intro d _ hwithin
        exact absurd hwithin.length_le (Nat.not_succ_le_self 1)
  | case3 c d rest part hpair _ =>
      apply iff_of_false
      · intro plain
        rw [Plain, parts, hpair] at plain
        exact Part.not_isChar_of_ofPair hpair (plain part List.mem_cons_self)
      · intro hnone
        have hread : ¬ (c = '$' → d ∉ ['$', '&', '`', '\'']) := by
          rw [← Part.ofPair_eq_none_iff, hpair]
          exact Option.some_ne_none part
        push Not at hread
        have hprefix : ['$', d] <+: c :: d :: rest :=
          dollar_prefix_iff.mpr ⟨hread.1, rfl⟩
        exact hnone d hread.2 hprefix.isInfix
  | case4 c d rest hpair ih =>
      rw [plain_cons hpair, ih]
      have hread := Part.ofPair_eq_none_iff.mp hpair
      constructor
      · intro hnone e he hwithin
        rcases List.infix_cons_iff.mp hwithin with hprefix | hrest
        · obtain ⟨hc, rfl⟩ := dollar_prefix_iff.mp hprefix
          exact hread hc he
        · exact hnone e he hrest
      · intro hnone e he hwithin
        exact hnone e he (List.infix_cons hwithin)

theorem substitute_of_plain {replacement : List Char}
    (plain : Plain replacement) (pattern text : List Char) :
    substitute pattern replacement text =
      replaceAll pattern replacement text := by
  have hparts : ∀ before after,
      (parts replacement).flatMap (Part.text before pattern after) =
        replacement := by
    intro before after
    rw [parts_of_plain plain, List.flatMap_map]
    exact List.flatMap_singleton' replacement
  have hfrom : ∀ before skip,
      substituteFrom pattern replacement before skip text =
        replaceFrom pattern replacement skip text := by
    induction text with
    | nil => exact fun _ _ => by rw [substituteFrom, replaceFrom]
    | cons c text ih =>
        intro before skip
        cases skip with
        | zero =>
            rw [substituteFrom, replaceFrom, hparts, ih, ih]
        | succ skip => exact ih _ skip
  exact hfrom [] 0

end Plain

/-! The placeholders of a text. -/

inductive Piece where
  | char (c : Char)
  | hole (placeholder : List Char)
  deriving DecidableEq

def scanFrom (placeholders : List (List Char)) : Nat → List Char → List Piece
  | _, [] => []
  | skip + 1, _ :: rest => scanFrom placeholders skip rest
  | 0, c :: rest =>
      match placeholders.find? (·.isPrefixOf (c :: rest)) with
      | some placeholder =>
          .hole placeholder ::
            scanFrom placeholders (placeholder.length - 1) rest
      | none => .char c :: scanFrom placeholders 0 rest

/-- The text from the left, cut into placeholders and the characters between
them. -/
def scan (placeholders : List (List Char)) (text : List Char) : List Piece :=
  scanFrom placeholders 0 text

namespace Piece

/-- A placeholder is spelled out where it has no value. -/
def fill (values : List (List Char × List Char)) : Piece → List Char
  | char c => [c]
  | hole placeholder => (values.lookup placeholder).getD placeholder

def put (placeholder : List Char) (value : List Piece) : Piece → List Piece
  | char c => [char c]
  | hole other => if other = placeholder then value else [hole other]

/-- What a search for one placeholder is to see of a piece. -/
def seen (placeholder : List Char) : Piece → List Piece
  | char c => [char c]
  | hole other =>
      if other = placeholder then [hole other] else other.map char

end Piece

/-- Every placeholder filled at the same time. -/
def fill (values : List (List Char × List Char)) (pieces : List Piece) :
    List Char :=
  pieces.flatMap (Piece.fill values)

/-- The text that the pieces stand for. -/
abbrev spelled (pieces : List Piece) : List Char := fill [] pieces

def put (placeholder : List Char) (value pieces : List Piece) : List Piece :=
  pieces.flatMap (Piece.put placeholder value)

def seen (placeholder : List Char) (pieces : List Piece) : List Piece :=
  pieces.flatMap (Piece.seen placeholder)

section Scan

theorem scanFrom_single (pattern : List Char) (c : Char) (rest : List Char) :
    scanFrom [pattern] 0 (c :: rest) =
      if pattern.isPrefixOf (c :: rest) then
        .hole pattern :: scanFrom [pattern] (pattern.length - 1) rest
      else .char c :: scanFrom [pattern] 0 rest := by
  rw [scanFrom, List.find?_singleton]
  by_cases h : pattern.isPrefixOf (c :: rest) = true
  · rw [if_pos h, if_pos h]
  · rw [if_neg h, if_neg h]

theorem fill_scan_single (pattern replacement text : List Char) :
    fill [(pattern, replacement)] (scan [pattern] text) =
      replaceAll pattern replacement text := by
  have hfrom : ∀ skip,
      fill [(pattern, replacement)] (scanFrom [pattern] skip text) =
        replaceFrom pattern replacement skip text := by
    induction text with
    | nil => exact fun _ => by rw [scanFrom, replaceFrom]; rfl
    | cons c text ih =>
        intro skip
        cases skip with
        | zero =>
            rw [scanFrom_single, replaceFrom]
            split
            · rw [fill, List.flatMap_cons, Piece.fill, List.lookup_cons_self]
              exact congrArg (replacement ++ ·) (ih _)
            · exact congrArg (c :: ·) (ih 0)
        | succ skip => exact ih skip
  exact hfrom 0

theorem spelled_scan {placeholders : List (List Char)}
    (nonempty : [] ∉ placeholders) (text : List Char) :
    spelled (scan placeholders text) = text := by
  have hfrom : ∀ skip,
      spelled (scanFrom placeholders skip text) = text.drop skip := by
    induction text with
    | nil => exact fun _ => by rw [scanFrom, List.drop_nil]; rfl
    | cons c text ih =>
        intro skip
        cases skip with
        | succ skip => exact ih skip
        | zero =>
            rw [scanFrom]
            split
            · rename_i placeholder hfind
              have hmem := List.mem_of_find?_eq_some hfind
              have hprefix : placeholder <+: c :: text :=
                List.isPrefixOf_iff_prefix.mp (List.find?_some hfind :)
              cases placeholder with
              | nil => exact absurd hmem nonempty
              | cons d tail =>
                  obtain ⟨rfl, rest, rfl⟩ := List.cons_prefix_cons.mp hprefix
                  have hrest := ih tail.length
                  rw [List.drop_left] at hrest
                  exact congrArg (d :: tail ++ ·) hrest
            · exact congrArg (c :: ·) (ih 0)
  exact hfrom 0

theorem fill_single_self (placeholder value : List Char) :
    Piece.fill [(placeholder, value)] (.hole placeholder) = value := by
  rw [Piece.fill, List.lookup_cons_self, Option.getD_some]

theorem fill_chars (values : List (List Char × List Char))
    (text : List Char) : fill values (text.map .char) = text := by
  rw [fill, List.flatMap_map]
  exact List.flatMap_singleton' text

theorem fill_flatMap (values : List (List Char × List Char))
    (f : Piece → List Piece) (pieces : List Piece) :
    fill values (pieces.flatMap f) =
      pieces.flatMap fun piece => fill values (f piece) :=
  List.flatMap_assoc

theorem fill_seen (placeholder : List Char) (value pieces : List Piece) :
    fill [(placeholder, spelled value)] (seen placeholder pieces) =
      spelled (put placeholder value pieces) := by
  have hpiece : ∀ piece,
      fill [(placeholder, spelled value)] (Piece.seen placeholder piece) =
        spelled (Piece.put placeholder value piece) := by
    intro piece
    cases piece with
    | char c => rfl
    | hole other =>
        rw [Piece.seen, Piece.put]
        by_cases h : other = placeholder
        · subst other
          rw [if_pos rfl, if_pos rfl, fill, List.flatMap_singleton]
          exact fill_single_self placeholder (spelled value)
        · rw [if_neg h, if_neg h, fill_chars, spelled, fill,
            List.flatMap_singleton]
          rfl
  simp only [seen, put, fill_flatMap]
  apply congrArg (List.flatMap · pieces)
  funext piece
  exact hpiece piece

theorem hole_mem_seen {placeholder : List Char} {pieces : List Piece} :
    .hole placeholder ∈ seen placeholder pieces ↔
      .hole placeholder ∈ pieces := by
  rw [seen, List.mem_flatMap]
  constructor
  · intro h
    obtain ⟨piece, hpiece, hseen⟩ := h
    cases piece with
    | char c => cases List.mem_singleton.mp hseen
    | hole other =>
        rw [Piece.seen] at hseen
        split at hseen
        · rename_i heq
          exact heq ▸ hpiece
        · obtain ⟨_, _, hchar⟩ := List.mem_map.mp hseen
          cases hchar
  · intro h
    refine ⟨.hole placeholder, h, ?_⟩
    rw [Piece.seen, if_pos rfl]
    exact List.mem_singleton_self _

theorem put_of_not_mem {placeholder : List Char} {pieces : List Piece}
    (h : .hole placeholder ∉ pieces) (value : List Piece) :
    put placeholder value pieces = pieces := by
  have hpiece : ∀ piece ∈ pieces,
      Piece.put placeholder value piece = [piece] := by
    intro piece hpiece
    cases piece with
    | char c => rfl
    | hole other =>
        rw [Piece.put, if_neg]
        intro heq
        exact h (heq ▸ hpiece)
  rw [put, List.flatMap_congr hpiece]
  exact List.flatMap_singleton' pieces

theorem substitute_of_not_mem {pattern text : List Char}
    (h : .hole pattern ∉ scan [pattern] text) (replacement : List Char) :
    substitute pattern replacement text = text := by
  have hfrom : ∀ before,
      substituteFrom pattern replacement before 0 text = text := by
    induction text with
    | nil => exact fun _ => by rw [substituteFrom]
    | cons c text ih =>
        intro before
        rw [scan, scanFrom_single] at h
        rw [substituteFrom]
        split at h
        · exact absurd List.mem_cons_self h
        · rename_i hprefix
          rw [if_neg hprefix]
          apply congrArg (c :: ·)
          apply ih
          intro hmem
          exact h (List.mem_cons_of_mem _ hmem)
  exact hfrom []

end Scan

/-! Chains. -/

structure Replacement where
  placeholder : List Char
  value : List Piece

namespace Replacement

def literal (placeholder value : List Char) : Replacement :=
  ⟨placeholder, value.map .char⟩

/-- What is given to `replace`. -/
def text (replacement : Replacement) : List Char := spelled replacement.value

def apply (replacement : Replacement) (text : List Char) : List Char :=
  substitute replacement.placeholder replacement.text text

def put (replacement : Replacement) (pieces : List Piece) : List Piece :=
  Template.put replacement.placeholder replacement.value pieces

/-- The replacement finds its placeholder where the pieces have it and nowhere
else, and of what it puts in no character is interpreted. -/
structure Faithful (replacement : Replacement) (text : List Char)
    (pieces : List Piece) : Prop where
  found : scan [replacement.placeholder] text =
    seen replacement.placeholder pieces
  plain : .hole replacement.placeholder ∈ pieces → Plain replacement.text

theorem faithful_iff {replacement : Replacement} {text : List Char}
    {pieces : List Piece} :
    replacement.Faithful text pieces ↔
      scan [replacement.placeholder] text =
          seen replacement.placeholder pieces ∧
        (.hole replacement.placeholder ∈ pieces → Plain replacement.text) :=
  ⟨fun faithful => ⟨faithful.found, faithful.plain⟩, fun h => ⟨h.1, h.2⟩⟩

theorem Faithful.apply_eq {replacement : Replacement} {pieces : List Piece}
    (faithful : replacement.Faithful (spelled pieces) pieces) :
    replacement.apply (spelled pieces) =
      spelled (replacement.put pieces) := by
  by_cases h : .hole replacement.placeholder ∈ pieces
  · rw [apply, substitute_of_plain (faithful.plain h), ← fill_scan_single,
      faithful.found]
    exact fill_seen replacement.placeholder replacement.value pieces
  · rw [put, put_of_not_mem h]
    apply substitute_of_not_mem
    rw [faithful.found, hole_mem_seen]
    exact h

end Replacement

/-- One replacement after the other. -/
def render (replacements : List Replacement) (text : List Char) : List Char :=
  replacements.foldl (fun text replacement => replacement.apply text) text

def putEach (replacements : List Replacement) (pieces : List Piece) :
    List Piece :=
  replacements.foldl (fun pieces replacement => replacement.put pieces) pieces

/-- No step finds its placeholder in a value, and none interprets one. -/
def FaithfulSteps :
    List Replacement → List Char → List Piece → Prop
  | [], _, _ => True
  | replacement :: rest, text, pieces =>
      replacement.Faithful text pieces ∧
        FaithfulSteps rest (replacement.apply text) (replacement.put pieces)

/-- In the template, with the placeholders before it filled, each placeholder
stands only where the template has it, and no value that is put in has a dollar
before a character that it is read with. -/
def Separated : List Replacement → List Piece → Prop
  | [], _ => True
  | replacement :: rest, pieces =>
      (scan [replacement.placeholder] (spelled pieces) =
          seen replacement.placeholder pieces ∧
        (.hole replacement.placeholder ∈ pieces →
          ∀ d ∈ ['$', '&', '`', '\''], ¬ ['$', d] <:+: replacement.text)) ∧
        Separated rest (replacement.put pieces)

instance decidableSeparated : ∀ replacements pieces,
    Decidable (Separated replacements pieces)
  | [], _ => .isTrue trivial
  | replacement :: rest, pieces =>
      have := decidableSeparated rest (replacement.put pieces)
      have : Decidable (∀ d ∈ ['$', '&', '`', '\''],
          ¬ ['$', d] <:+: replacement.text) := List.decidableBAll _ _
      inferInstanceAs (Decidable ((_ ∧ (_ → _)) ∧ _))

/-- The values of the placeholders, each with the placeholders in it filled. -/
def values : List Replacement → List (List Char × List Char)
  | [] => []
  | replacement :: rest =>
      (replacement.placeholder, spelled (putEach rest replacement.value)) ::
        values rest

theorem faithfulSteps_iff (replacements : List Replacement)
    (pieces : List Piece) :
    FaithfulSteps replacements (spelled pieces) pieces ↔
      Separated replacements pieces := by
  induction replacements generalizing pieces with
  | nil => exact Iff.rfl
  | cons replacement rest ih =>
      rw [FaithfulSteps, Separated, ← plain_iff, ← Replacement.faithful_iff]
      apply and_congr_right
      intro faithful
      rw [faithful.apply_eq]
      exact ih (replacement.put pieces)

theorem render_of_separated {replacements : List Replacement}
    {pieces : List Piece} (separated : Separated replacements pieces) :
    render replacements (spelled pieces) =
      spelled (putEach replacements pieces) := by
  induction replacements generalizing pieces with
  | nil => rfl
  | cons replacement rest ih =>
      rw [Separated, ← plain_iff, ← Replacement.faithful_iff] at separated
      rw [render, List.foldl_cons, separated.1.apply_eq]
      exact ih separated.2

theorem putEach_flatMap (replacements : List Replacement)
    (pieces : List Piece) :
    putEach replacements pieces =
      pieces.flatMap fun piece => putEach replacements [piece] := by
  induction replacements generalizing pieces with
  | nil => exact (List.flatMap_singleton' pieces).symm
  | cons replacement rest ih =>
      have hput : ∀ pieces, putEach (replacement :: rest) pieces =
          putEach rest (replacement.put pieces) := fun _ => rfl
      simp only [hput]
      rw [ih, Replacement.put, put, List.flatMap_assoc]
      apply congrArg (List.flatMap · pieces)
      funext piece
      rw [ih (replacement.put [piece]), Replacement.put, put,
        List.flatMap_singleton]

theorem putEach_chars (replacements : List Replacement) (text : List Char) :
    putEach replacements (text.map .char) = text.map .char := by
  induction replacements with
  | nil => rfl
  | cons replacement rest ih =>
      have hput : replacement.put (text.map .char) = text.map .char := by
        apply put_of_not_mem
        intro hmem
        obtain ⟨_, _, hchar⟩ := List.mem_map.mp hmem
        cases hchar
      rw [putEach, List.foldl_cons, hput]
      exact ih

@[simp] theorem Replacement.placeholder_literal
    (placeholder value : List Char) :
    (Replacement.literal placeholder value).placeholder = placeholder := rfl

@[simp] theorem Replacement.text_literal (placeholder value : List Char) :
    (Replacement.literal placeholder value).text = value :=
  fill_chars [] value

theorem values_cons_literal (placeholder value : List Char)
    (rest : List Replacement) :
    values (.literal placeholder value :: rest) =
      (placeholder, value) :: values rest := by
  rw [values, Replacement.literal, putEach_chars]
  apply congrArg (· :: values rest)
  exact congrArg (Prod.mk placeholder) (fill_chars [] value)

theorem values_literal (pairs : List (List Char × List Char)) :
    values (pairs.map fun pair => .literal pair.1 pair.2) = pairs := by
  induction pairs with
  | nil => rfl
  | cons pair rest ih =>
      rw [List.map_cons, values_cons_literal, ih]

theorem spelled_putEach (replacements : List Replacement)
    (pieces : List Piece) :
    spelled (putEach replacements pieces) =
      fill (values replacements) pieces := by
  have hpiece : ∀ piece, spelled (putEach replacements [piece]) =
      Piece.fill (values replacements) piece := by
    intro piece
    induction replacements with
    | nil => exact List.flatMap_singleton _ _
    | cons replacement rest ih =>
        have hput : putEach (replacement :: rest) [piece] =
            putEach rest
              (Piece.put replacement.placeholder replacement.value piece) :=
          congrArg (putEach rest) (List.flatMap_singleton _ _)
        rw [hput]
        cases piece with
        | char c => exact ih
        | hole other =>
            rw [Piece.put, values, Piece.fill, List.lookup_cons]
            by_cases h : other = replacement.placeholder
            · rw [if_pos h, beq_iff_eq.mpr h, Option.getD_some]
            · rw [if_neg h, beq_false_of_ne h]
              exact ih
  rw [putEach_flatMap, spelled, fill_flatMap]
  apply congrArg (List.flatMap · pieces)
  funext piece
  exact hpiece piece

theorem render_iff (replacements : List Replacement)
    {placeholders : List (List Char)} (nonempty : [] ∉ placeholders)
    (template : List Char) :
    (render replacements template =
        fill (values replacements) (scan placeholders template) ∧
      FaithfulSteps replacements template (scan placeholders template)) ↔
      Separated replacements (scan placeholders template) := by
  have htext := spelled_scan nonempty template
  have hsteps := faithfulSteps_iff replacements (scan placeholders template)
  rw [htext] at hsteps
  rw [hsteps]
  apply and_iff_right_of_imp
  intro separated
  have hrender := render_of_separated separated
  rw [htext, spelled_putEach] at hrender
  exact hrender

end Template

end TwakeKickstart.Library
