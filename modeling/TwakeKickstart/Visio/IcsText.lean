import TwakeKickstart.Library.Text

namespace TwakeKickstart.Visio

open Library

/-! Texts in an iCalendar file, as the widget reads them. -/

def unescapeICSText (s : String) : String :=
  String.ofList (replaceAll ['\\', '\\'] ['\\']
    (replaceAll ['\\', ';'] [';']
      (replaceAll ['\\', ','] [',']
        (replaceAll ['\\', 'n'] ['\n'] s.toList))))

/-! Escaping by the rules of the format. -/

def escapedICSChar (c : Char) : List Char :=
  if c = '\\' ∨ c = ';' ∨ c = ',' then ['\\', c]
  else if c = '\n' then ['\\', 'n']
  else [c]

def escapeICSText (s : String) : String :=
  String.ofList (s.toList.flatMap escapedICSChar)

/-! An escaped text in the pieces that the replacements find in it. -/

/-- A backslash before an `n` is broken: the second half of its escape and the
`n` are read as a line break. -/
inductive Piece where
  | broken
  | escaped (c : Char)
  | plain (c : Char)

def pieces : List Char → List Piece
  | [] => []
  | '\\' :: 'n' :: rest => .broken :: pieces rest
  | c :: rest =>
      (if c = '\\' ∨ c = ';' ∨ c = ',' then .escaped c else .plain c) ::
        pieces rest

namespace Piece

/-- The text of a piece when some of the escapes are undone. -/
def text (undone : List Char) : Piece → List Char
  | broken => ['\\', '\n']
  | escaped c => if c ∈ undone then [c] else ['\\', c]
  | plain c => [c]

def Proper : Piece → Prop
  | broken => True
  | escaped c => c = '\\' ∨ c = ';' ∨ c = ','
  | plain c => ¬ (c = '\\' ∨ c = ';' ∨ c = ',')

def texts (undone : List Char) (pieces : List Piece) : List Char :=
  pieces.flatMap (text undone)

@[simp] theorem texts_nil (undone : List Char) : texts undone [] = [] := rfl

@[simp] theorem texts_cons (undone : List Char) (piece : Piece)
    (rest : List Piece) :
    texts undone (piece :: rest) = text undone piece ++ texts undone rest :=
  rfl

theorem proper_pieces (s : List Char) : ∀ piece ∈ pieces s, Proper piece := by
  induction s using pieces.induct with
  | case1 => exact List.forall_mem_nil _
  | case2 rest ih => exact List.forall_mem_cons.mpr ⟨trivial, ih⟩
  | case3 c rest other ih =>
      rw [pieces]
      · refine List.forall_mem_cons.mpr ⟨?_, ih⟩
        split
        · assumption
        · assumption
      · exact other

section Undo

variable {undone : List Char} {d : Char}

theorem head_texts_ne {pieces : List Piece}
    (proper : ∀ piece ∈ pieces, Proper piece) (hd : d = ';' ∨ d = ',')
    (fresh : d ∉ undone) : (texts undone pieces).head? ≠ some d := by
  have hslash : '\\' ≠ d := by
    rintro rfl
    revert hd
    decide
  cases pieces with
  | nil => exact nofun
  | cons piece rest =>
      have hpiece := proper piece List.mem_cons_self
      intro hhead
      cases piece with
      | broken => exact hslash (Option.some.inj hhead)
      | escaped c =>
          rw [texts_cons, text] at hhead
          split at hhead
          · rename_i hundone
            cases hhead
            exact fresh hundone
          · exact hslash (Option.some.inj hhead)
      | plain c =>
          cases hhead
          exact hpiece (.inr hd)

theorem replaceAll_texts {pieces : List Piece}
    (proper : ∀ piece ∈ pieces, Proper piece)
    (hd : d = '\\' ∨ d = ';' ∨ d = ',') (fresh : d ∉ undone)
    (slashes : '\\' ∉ undone) :
    replaceAll ['\\', d] [d] (texts undone pieces) =
      texts (d :: undone) pieces := by
  induction pieces with
  | nil => rfl
  | cons piece rest ih =>
      obtain ⟨hpiece, hrest⟩ := List.forall_mem_cons.mp proper
      have ih := ih hrest
      rw [texts_cons, texts_cons, ← ih]
      cases piece with
      | broken =>
          have hbreak : '\n' ≠ d := by
            rintro rfl
            revert hd
            decide
          change replaceAll _ _ ('\\' :: '\n' :: texts undone rest) = _
          rw [replaceAll_pair_of_ne hbreak, replaceAll_cons_ne (by decide)]
          rfl
      | plain c =>
          change replaceAll _ _ (c :: texts undone rest) = _
          rw [replaceAll_cons_ne (fun h => hpiece (.inl h))]
          rfl
      | escaped c =>
          by_cases hundone : c ∈ undone
          · have hslash : c ≠ '\\' := by
              rintro rfl
              exact slashes hundone
            rw [text, text, if_pos hundone,
              if_pos (List.mem_cons_of_mem d hundone)]
            exact replaceAll_cons_ne hslash
          · rw [text, if_neg hundone]
            by_cases hsame : c = d
            · rw [hsame, text, if_pos List.mem_cons_self]
              exact replaceAll_append (List.cons_ne_nil _ _) _
            · rw [text, if_neg (List.not_mem_cons_of_ne_of_not_mem hsame
                hundone)]
              change replaceAll _ _ ('\\' :: c :: texts undone rest) = _
              rw [replaceAll_pair_of_ne hsame]
              by_cases hslash : c = '\\'
              · have hother : d = ';' ∨ d = ',' :=
                  hd.resolve_left fun h => hsame (hslash.trans h.symm)
                rw [replaceAll_pair_of_head_ne
                  (head_texts_ne hrest hother fresh)]
                rfl
              · rw [replaceAll_cons_ne hslash]
                rfl

end Undo

end Piece

open Piece

theorem head_escaped_ne {rest : List Char} (h : rest.head? ≠ some 'n') :
    (rest.flatMap escapedICSChar).head? ≠ some 'n' := by
  cases rest with
  | nil => exact nofun
  | cons c rest =>
      intro hhead
      rw [List.flatMap_cons, escapedICSChar] at hhead
      split at hhead
      · cases hhead
      · split at hhead
        · cases hhead
        · exact h hhead

theorem replaceAll_escaped (s : List Char) :
    replaceAll ['\\', 'n'] ['\n'] (s.flatMap escapedICSChar) =
      texts [] (pieces s) := by
  induction s using pieces.induct with
  | case1 => rfl
  | case2 rest ih =>
      change replaceAll _ _
        ('\\' :: (['\\', 'n'] ++ rest.flatMap escapedICSChar)) = _
      rw [List.cons_append, replaceAll_pair_of_ne (by decide),
        ← List.cons_append, replaceAll_append (List.cons_ne_nil _ _), ih]
      rfl
  | case3 c rest other ih =>
      rw [pieces, texts_cons, List.flatMap_cons, escapedICSChar, ← ih]
      · by_cases hescaped : c = '\\' ∨ c = ';' ∨ c = ','
        · rw [if_pos hescaped, if_pos hescaped]
          have hn : c ≠ 'n' := by
            rintro rfl
            revert hescaped
            decide
          change replaceAll _ _ ('\\' :: c :: rest.flatMap escapedICSChar) =
            '\\' :: c :: _
          rw [replaceAll_pair_of_ne hn]
          by_cases hslash : c = '\\'
          · have hhead : rest.head? ≠ some 'n' := by
              intro hhead
              obtain ⟨tail, htail⟩ := List.head?_eq_some_iff.mp hhead
              exact other tail hslash htail
            rw [replaceAll_pair_of_head_ne (head_escaped_ne hhead)]
            rfl
          · rw [replaceAll_cons_ne hslash]
            rfl
        · rw [if_neg hescaped, if_neg hescaped]
          by_cases hbreak : c = '\n'
          · rw [if_pos hbreak, hbreak]
            exact replaceAll_append (List.cons_ne_nil _ _) _
          · rw [if_neg hbreak]
            exact replaceAll_cons_ne fun h => hescaped (.inl h)
      · exact other

theorem toList_unescape_escape (s : String) :
    (unescapeICSText (escapeICSText s)).toList =
      texts ['\\', ';', ','] (pieces s.toList) := by
  have hproper := proper_pieces s.toList
  rw [unescapeICSText, escapeICSText, String.toList_ofList,
    String.toList_ofList, replaceAll_escaped,
    replaceAll_texts hproper (by decide) (by decide) (by decide),
    replaceAll_texts hproper (by decide) (by decide) (by decide),
    replaceAll_texts hproper (by decide) (by decide) (by decide)]

/-- All escapes are undone, and only the broken pieces are not what they
were. -/
theorem texts_pieces_iff (s : List Char) :
    texts ['\\', ';', ','] (pieces s) = s ↔ ¬ ['\\', 'n'] <:+: s := by
  induction s using pieces.induct with
  | case1 => exact iff_of_true rfl (by decide)
  | case2 rest ih =>
      refine iff_of_false ?_ (not_not.mpr ⟨[], rest, rfl⟩)
      intro hsame
      cases hsame
  | case3 c rest other ih =>
      have hfirst : text ['\\', ';', ',']
          (if c = '\\' ∨ c = ';' ∨ c = ',' then .escaped c else .plain c) =
          [c] := by
        split
        · rename_i hescaped
          exact if_pos (by simpa using hescaped)
        · rfl
      have hstart : ¬ ['\\', 'n'] <+: c :: rest := by
        rintro ⟨tail, htail⟩
        cases htail
        exact other tail rfl rfl
      rw [pieces, texts_cons, hfirst, List.singleton_append, List.cons.injEq,
        List.infix_cons_iff, ih]
      · simp [hstart]
      · exact other

/-- What was escaped comes back just when no backslash in it is before an
`n`. -/
theorem unescape_escape_iff (s : String) :
    unescapeICSText (escapeICSText s) = s ↔
      ¬ ['\\', 'n'] <:+: s.toList := by
  rw [← texts_pieces_iff, ← toList_unescape_escape]
  exact ⟨congrArg String.toList, fun h => String.toList_injective h⟩

/-- A folder of Windows comes back as two lines. -/
theorem folder_broken :
    unescapeICSText (escapeICSText "C:\\new") = "C:\\\new" ∧
      unescapeICSText (escapeICSText "C:\\new") ≠ "C:\\new" := by
  decide

end TwakeKickstart.Visio
