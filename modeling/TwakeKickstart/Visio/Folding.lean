import TwakeKickstart.Visio.Event

namespace TwakeKickstart.Visio

/-! Lines as they are written in a file: each with a line end, and folded
wherever it was too long. -/

inductive LineEnd where
  | long
  | short
  deriving DecidableEq

def LineEnd.text : LineEnd → List Char
  | long => ['\r', '\n']
  | short => ['\n']

abbrev IsBlank (c : Char) : Prop := c = ' ' ∨ c = '\t'

/-- The rest of a line after a character, with folds of the given kinds. -/
inductive Folded (kinds : LineEnd → Prop) : List Char → List Char → Prop
  | nil : Folded kinds [] []
  | char {text line : List Char} (c : Char) (rest : Folded kinds text line) :
      Folded kinds (c :: text) (c :: line)
  | fold {text line : List Char} {kind : LineEnd} (c : Char)
      (allowed : kinds kind) (blank : IsBlank c)
      (rest : Folded kinds text line) :
      Folded kinds (kind.text ++ c :: text) line

inductive Written (kinds : LineEnd → Prop) :
    List Char → List (List Char) → Prop
  | nil : Written kinds [] []
  | empty {text : List Char} {lines : List (List Char)} (lineEnd : LineEnd)
      (rest : Written kinds text lines) :
      Written kinds (lineEnd.text ++ text) ([] :: lines)
  | line {text first line : List Char} {lines : List (List Char)} (c : Char)
      (lineEnd : LineEnd) (folded : Folded kinds first line)
      (rest : Written kinds text lines) :
      Written kinds (c :: (first ++ (lineEnd.text ++ text)))
        ((c :: line) :: lines)

theorem Folded.refl {kinds : LineEnd → Prop} (line : List Char) :
    Folded kinds line line := by
  induction line with
  | nil => exact .nil
  | cons c line ih => exact ih.char c

theorem written_flatMap {kinds : LineEnd → Prop} (lines : List (List Char)) :
    Written kinds (lines.flatMap (· ++ LineEnd.long.text)) lines := by
  induction lines with
  | nil => exact .nil
  | cons line lines ih =>
      rw [List.flatMap_cons, List.append_assoc]
      cases line with
      | nil => exact .empty .long ih
      | cons c line => exact .line c .long (Folded.refl line) ih

/-- A line by itself: no line end is in it, and it goes on with no fold. -/
structure Clean (line : List Char) : Prop where
  noReturn : '\r' ∉ line
  noBreak : '\n' ∉ line
  noBlank : ∀ c, line.head? = some c → ¬ IsBlank c

section Drop

variable {kinds : LineEnd → Prop} {text first line rest : List Char}
  {lines : List (List Char)} {c : Char}

theorem dropLongFolds_of_ne (h : c ≠ '\r') :
    dropLongFolds (c :: rest) = c :: dropLongFolds rest := by
  rw [dropLongFolds]
  intro _ _ hreturn
  exact absurd hreturn h

theorem dropShortFolds_of_ne (h : c ≠ '\n') :
    dropShortFolds (c :: rest) = c :: dropShortFolds rest := by
  rw [dropShortFolds]
  intro _ _ hbreak
  exact absurd hbreak h

theorem dropShortFolds_lineEnd (lineEnd : LineEnd)
    (h : ∀ c, text.head? = some c → ¬ IsBlank c) :
    dropShortFolds (lineEnd.text ++ text) =
      lineEnd.text ++ dropShortFolds text := by
  have hshort : dropShortFolds ('\n' :: text) =
      '\n' :: dropShortFolds text := by
    cases text with
    | nil => rfl
    | cons c text => rw [dropShortFolds, if_neg (h c rfl)]
  cases lineEnd with
  | short => exact hshort
  | long =>
      change dropShortFolds ('\r' :: '\n' :: text) = _
      rw [dropShortFolds_of_ne (by decide), hshort]
      rfl

theorem dropLongFolds_lineEnd (lineEnd : LineEnd)
    (h : ∀ c, text.head? = some c → ¬ IsBlank c) :
    dropLongFolds (lineEnd.text ++ text) =
      lineEnd.text ++ dropLongFolds text := by
  cases lineEnd with
  | short => exact dropLongFolds_of_ne (by decide)
  | long =>
      cases text with
      | nil => rfl
      | cons c text =>
          change dropLongFolds ('\r' :: '\n' :: c :: text) = _
          rw [dropLongFolds, if_neg (h c rfl),
            dropLongFolds_of_ne (by decide)]
          rfl

theorem Folded.dropLongFolds (folded : Folded (fun _ => True) first line)
    (noReturn : '\r' ∉ line) (rest : List Char) :
    ∃ left, Folded (· = .short) left line ∧
      Visio.dropLongFolds (first ++ rest) =
        left ++ Visio.dropLongFolds rest := by
  induction folded with
  | nil => exact ⟨[], .nil, rfl⟩
  | char c _ ih =>
      obtain ⟨hc, hline⟩ := not_or.mp (List.mem_cons.not.mp noReturn)
      obtain ⟨left, hleft, hdrop⟩ := ih hline
      refine ⟨c :: left, hleft.char c, ?_⟩
      rw [List.cons_append, dropLongFolds_of_ne (Ne.symm hc), hdrop]
      rfl
  | @fold text line kind c _ blank _ ih =>
      obtain ⟨left, hleft, hdrop⟩ := ih noReturn
      cases kind with
      | long =>
          refine ⟨left, hleft, ?_⟩
          rw [← hdrop]
          change Visio.dropLongFolds ('\r' :: '\n' :: c :: (text ++ rest)) = _
          rw [Visio.dropLongFolds, if_pos blank]
      | short =>
          have hc : c ≠ '\r' := by
            rintro rfl
            revert blank
            simp [IsBlank]
          refine ⟨'\n' :: c :: left, @Folded.fold _ _ _ .short c rfl blank hleft,
            ?_⟩
          change Visio.dropLongFolds ('\n' :: c :: (text ++ rest)) = _
          rw [dropLongFolds_of_ne (by decide), dropLongFolds_of_ne hc, hdrop]
          rfl

theorem Folded.dropShortFolds (folded : Folded (· = .short) first line)
    (noBreak : '\n' ∉ line) (rest : List Char) :
    Visio.dropShortFolds (first ++ rest) =
      line ++ Visio.dropShortFolds rest := by
  induction folded with
  | nil => rfl
  | char c _ ih =>
      obtain ⟨hc, hline⟩ := not_or.mp (List.mem_cons.not.mp noBreak)
      rw [List.cons_append, dropShortFolds_of_ne (Ne.symm hc), ih hline]
      rfl
  | @fold text line kind c allowed blank _ ih =>
      subst allowed
      rw [← ih noBreak]
      change Visio.dropShortFolds ('\n' :: c :: (text ++ rest)) = _
      rw [Visio.dropShortFolds, if_pos blank]

theorem Written.head_not_blank (written : Written kinds text lines)
    (clean : ∀ line ∈ lines, Clean line) :
    ∀ c, text.head? = some c → ¬ IsBlank c := by
  intro c hhead
  cases written with
  | nil => cases hhead
  | empty lineEnd _ =>
      cases lineEnd <;>
        · cases hhead
          simp [IsBlank]
  | line first _ _ _ =>
      cases hhead
      exact (clean _ List.mem_cons_self).noBlank c rfl

theorem Written.dropLongFolds (written : Written (fun _ => True) text lines)
    (clean : ∀ line ∈ lines, Clean line) :
    Written (· = .short) (Visio.dropLongFolds text) lines := by
  induction written with
  | nil => exact .nil
  | empty lineEnd rest ih =>
      have hclean := (List.forall_mem_cons.mp clean).2
      rw [dropLongFolds_lineEnd lineEnd (rest.head_not_blank hclean)]
      exact .empty lineEnd (ih hclean)
  | line c lineEnd folded rest ih =>
      obtain ⟨hline, hclean⟩ := List.forall_mem_cons.mp clean
      obtain ⟨hc, hreturn⟩ := not_or.mp (List.mem_cons.not.mp hline.noReturn)
      obtain ⟨left, hleft, hdrop⟩ := folded.dropLongFolds hreturn _
      rw [dropLongFolds_of_ne (Ne.symm hc), hdrop,
        dropLongFolds_lineEnd lineEnd (rest.head_not_blank hclean)]
      exact .line c lineEnd hleft (ih hclean)

end Drop

/-! The lines are found again. -/

theorem splitLines_append {line rest : List Char} (noReturn : '\r' ∉ line)
    (noBreak : '\n' ∉ line) (lineEnd : LineEnd) :
    splitLines (line ++ (lineEnd.text ++ rest)) = line :: splitLines rest := by
  induction line with
  | nil => cases lineEnd <;> rfl
  | cons c line ih =>
      obtain ⟨hreturn, hline⟩ := not_or.mp (List.mem_cons.not.mp noReturn)
      obtain ⟨hbreak, hline'⟩ := not_or.mp (List.mem_cons.not.mp noBreak)
      rw [List.cons_append, splitLines, ih hline hline']
      · rfl
      · intro _ h
        exact absurd h.symm hreturn
      · intro h
        exact absurd h.symm hbreak

theorem Written.splitLines {text : List Char} {lines : List (List Char)}
    (written : Written (· = .short) text lines)
    (clean : ∀ line ∈ lines, Clean line) :
    Visio.splitLines (dropShortFolds text) = lines ++ [[]] := by
  induction written with
  | nil => rfl
  | empty lineEnd rest ih =>
      have hclean := (List.forall_mem_cons.mp clean).2
      rw [dropShortFolds_lineEnd lineEnd (rest.head_not_blank hclean),
        ← List.nil_append (_ ++ _),
        splitLines_append List.not_mem_nil List.not_mem_nil, ih hclean]
      rfl
  | line c lineEnd folded rest ih =>
      obtain ⟨hline, hclean⟩ := List.forall_mem_cons.mp clean
      obtain ⟨hc, hbreak⟩ := not_or.mp (List.mem_cons.not.mp hline.noBreak)
      rw [dropShortFolds_of_ne (Ne.symm hc), folded.dropShortFolds hbreak,
        dropShortFolds_lineEnd lineEnd (rest.head_not_blank hclean),
        ← List.cons_append, splitLines_append hline.noReturn hline.noBreak,
        ih hclean]
      rfl

theorem linesOf_written {ics : String} {lines : List (List Char)}
    (written : Written (fun _ => True) ics.toList lines)
    (clean : ∀ line ∈ lines, Clean line) : linesOf ics = lines ++ [[]] :=
  (written.dropLongFolds clean).splitLines clean

end TwakeKickstart.Visio
