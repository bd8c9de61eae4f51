import TwakeKickstart.Library.RegexLanguage

namespace TwakeKickstart.Library.Regex

/-! The ways in which an expression matches the beginning of a text, in the
order in which a backtracking search tries them.  A way is what it leaves of
the text. -/

/-- The longest run comes first. -/
def runWays (accepted : Char → Bool) :
    Nat → Option Nat → List Char → List (List Char)
  | least, _, [] => if least = 0 then [[]] else []
  | least, most, c :: rest =>
      (if accepted c = true ∧ most ≠ some 0 then
          runWays accepted (least - 1) (most.map (· - 1)) rest
        else []) ++
        if least = 0 then [c :: rest] else []

/-- The repetitions of a step that shortens the text, the longest first. -/
def starWays (next : List Char → List (List Char)) :
    Nat → List Char → List (List Char)
  | 0, text => [text]
  | fuel + 1, text =>
      ((next text).filter (·.length < text.length)).flatMap
          (starWays next fuel) ++ [text]

def ways : Regex → List Char → List (List Char)
  | empty, _ => []
  | epsilon, text => [text]
  | run accepted least most, text => runWays accepted least most text
  | seq first second, text => (first.ways text).flatMap second.ways
  | alt left right, text => left.ways text ++ right.ways text
  | star body, text => starWays body.ways text.length text

theorem mem_runWays_iff {accepted : Char → Bool} {least : Nat}
    {most : Option Nat} {text rest : List Char} :
    rest ∈ runWays accepted least most text ↔
      ∃ head, text = head ++ rest ∧ Matches (run accepted least most) head := by
  simp only [matches_run_iff]
  induction text generalizing least most with
  | nil =>
      unfold runWays
      constructor
      · intro h
        split at h
        · rename_i hleast
          rw [List.mem_singleton] at h
          rw [h, hleast]
          exact ⟨[], rfl, List.forall_mem_nil _, Nat.le_refl 0,
            fun _ _ => Nat.zero_le _⟩
        · cases h
      · rintro ⟨head, htext, _, hleast, _⟩
        obtain ⟨rfl, rfl⟩ := List.nil_eq_append_iff.mp htext
        rw [if_pos (Nat.le_zero.mp hleast)]
        exact List.mem_cons_self
  | cons c tail ih =>
      rw [runWays, List.mem_append]
      constructor
      · rintro (hlonger | hhere)
        · split at hlonger
          · rename_i hguard
            obtain ⟨head, rfl, hall, hleast, hmost⟩ := ih.mp hlonger
            refine ⟨c :: head, rfl,
              List.forall_mem_cons.mpr ⟨hguard.1, hall⟩, ?_, ?_⟩
            · rw [List.length_cons]
              omega
            · intro bound hbound
              have hhead := hmost (bound - 1) (by rw [hbound]; rfl)
              have hpositive : bound ≠ 0 := by
                rintro rfl
                exact hguard.2 hbound
              rw [List.length_cons]
              omega
          · cases hlonger
        · split at hhere
          · rename_i hleast
            rw [List.mem_singleton] at hhere
            rw [hhere, hleast]
            exact ⟨[], rfl, List.forall_mem_nil _, Nat.le_refl 0,
              fun _ _ => Nat.zero_le _⟩
          · cases hhere
      · rintro ⟨head, htext, hall, hleast, hmost⟩
        cases head with
        | nil =>
            right
            rw [if_pos (Nat.le_zero.mp hleast), htext]
            exact List.mem_cons_self
        | cons first head =>
            obtain ⟨rfl, rfl⟩ := List.cons.inj htext
            rw [List.forall_mem_cons] at hall
            rw [List.length_cons] at hleast hmost
            left
            have hguard : accepted c = true ∧ most ≠ some 0 := by
              refine ⟨hall.1, ?_⟩
              intro hzero
              have := hmost 0 hzero
              omega
            rw [if_pos hguard]
            refine ih.mpr ⟨head, rfl, hall.2, by omega, ?_⟩
            intro bound hbound
            obtain ⟨previous, hprevious, rfl⟩ := Option.map_eq_some_iff.mp hbound
            have := hmost previous hprevious
            omega

section Star

variable {body : Regex} {next : List Char → List (List Char)}
  (step : ∀ {text rest}, rest ∈ next text ↔
    ∃ head, text = head ++ rest ∧ Matches body head)

include step

theorem matches_of_mem_starWays {fuel : Nat} {text rest : List Char}
    (h : rest ∈ starWays next fuel text) :
    ∃ head, text = head ++ rest ∧ Matches (star body) head := by
  induction fuel generalizing text with
  | zero =>
      rw [starWays, List.mem_singleton] at h
      exact ⟨[], h.symm, .starNil⟩
  | succ fuel ih =>
      rw [starWays, List.mem_append, List.mem_flatMap] at h
      rcases h with ⟨middle, hmiddle, hrest⟩ | hhere
      · obtain ⟨first, rfl, hfirst⟩ := step.mp (List.mem_filter.mp hmiddle).1
        obtain ⟨head, rfl, hhead⟩ := ih hrest
        exact ⟨first ++ head, (List.append_assoc _ _ _).symm,
          .starCons hfirst hhead⟩
      · rw [List.mem_singleton] at hhere
        exact ⟨[], hhere.symm, .starNil⟩

theorem mem_starWays_of_cut {fuel : Nat} {parts : List (List Char)}
    {text rest : List Char} (all : ∀ part ∈ parts, Matches body part)
    (enough : text.length ≤ fuel) (htext : text = parts.flatten ++ rest) :
    rest ∈ starWays next fuel text := by
  induction parts generalizing fuel text with
  | nil =>
      rw [List.flatten_nil, List.nil_append] at htext
      cases fuel with
      | zero =>
          rw [starWays, htext]
          exact List.mem_singleton_self rest
      | succ fuel =>
          rw [starWays, htext]
          exact List.mem_append_right _ (List.mem_singleton_self rest)
  | cons part parts ih =>
      rw [List.forall_mem_cons] at all
      rw [List.flatten_cons, List.append_assoc] at htext
      cases part with
      | nil => exact ih all.2 enough htext
      | cons c part =>
          cases fuel with
          | zero =>
              rw [htext] at enough
              exact absurd enough (Nat.not_succ_le_zero _)
          | succ fuel =>
              rw [starWays, List.mem_append, List.mem_flatMap]
              have hlength : text.length =
                  part.length + 1 + (parts.flatten ++ rest).length := by
                rw [htext, List.length_append, List.length_cons]
              refine .inl ⟨parts.flatten ++ rest, ?_, ih all.2 (by omega) rfl⟩
              rw [List.mem_filter, decide_eq_true_eq]
              exact ⟨step.mpr ⟨c :: part, htext, all.1⟩, by omega⟩

end Star

/-- The ways are the beginnings that the expression matches. -/
theorem mem_ways_iff {expression : Regex} {text rest : List Char} :
    rest ∈ expression.ways text ↔
      ∃ head, text = head ++ rest ∧ Matches expression head := by
  induction expression generalizing text rest with
  | empty =>
      constructor
      · intro h
        cases h
      · rintro ⟨_, _, h⟩
        cases h
  | epsilon =>
      rw [ways, List.mem_singleton]
      simp only [matches_epsilon_iff]
      constructor
      · intro h
        exact ⟨[], h.symm, rfl⟩
      · rintro ⟨_, h, rfl⟩
        exact h.symm
  | run accepted least most => exact mem_runWays_iff
  | seq first second ihFirst ihSecond =>
      rw [ways, List.mem_flatMap]
      simp only [ihFirst, ihSecond, matches_seq_iff]
      constructor
      · rintro ⟨_, ⟨head, rfl, hhead⟩, tail, rfl, htail⟩
        exact ⟨head ++ tail, (List.append_assoc _ _ _).symm, head, tail, rfl,
          hhead, htail⟩
      · rintro ⟨_, rfl, head, tail, rfl, hhead, htail⟩
        exact ⟨tail ++ rest, ⟨head, List.append_assoc _ _ _, hhead⟩, tail, rfl,
          htail⟩
  | alt left right ihLeft ihRight =>
      rw [ways, List.mem_append, ihLeft, ihRight]
      simp only [matches_alt_iff]
      constructor
      · rintro (⟨head, htext, hhead⟩ | ⟨head, htext, hhead⟩)
        · exact ⟨head, htext, .inl hhead⟩
        · exact ⟨head, htext, .inr hhead⟩
      · rintro ⟨head, htext, hleft | hright⟩
        · exact .inl ⟨head, htext, hleft⟩
        · exact .inr ⟨head, htext, hright⟩
  | star body ih =>
      rw [ways]
      constructor
      · exact matches_of_mem_starWays ih
      · rintro ⟨head, htext, hhead⟩
        obtain ⟨parts, hparts, rfl⟩ := matches_star_iff.mp hhead
        exact mem_starWays_of_cut ih hparts (Nat.le_refl _) htext

/-! How many characters of a class every match has. -/

def AtLeast (counted : Char → Bool) (count : Nat) (expression : Regex) :
    Prop :=
  ∀ text, Matches expression text → count ≤ text.countP counted

section AtLeast

variable {counted : Char → Bool} {first second body : Regex}
  {few many : Nat}

theorem AtLeast.seq (hfirst : AtLeast counted few first)
    (hsecond : AtLeast counted many second) :
    AtLeast counted (few + many) (.seq first second) := by
  intro text h
  obtain ⟨head, tail, rfl, hhead, htail⟩ := matches_seq_iff.mp h
  rw [List.countP_append]
  exact Nat.add_le_add (hfirst head hhead) (hsecond tail htail)

theorem AtLeast.after (hsecond : AtLeast counted many second) :
    AtLeast counted many (.seq first second) := by
  intro text h
  obtain ⟨head, tail, rfl, _, htail⟩ := matches_seq_iff.mp h
  rw [List.countP_append]
  exact Nat.le_add_left_of_le (hsecond tail htail)

theorem AtLeast.before (hfirst : AtLeast counted few first) :
    AtLeast counted few (.seq first second) := by
  intro text h
  obtain ⟨head, tail, rfl, hhead, _⟩ := matches_seq_iff.mp h
  rw [List.countP_append]
  exact Nat.le_add_right_of_le (hfirst head hhead)

theorem AtLeast.alt (hfirst : AtLeast counted few first)
    (hsecond : AtLeast counted few second) :
    AtLeast counted few (.alt first second) := by
  intro text h
  rcases matches_alt_iff.mp h with hleft | hright
  · exact hfirst text hleft
  · exact hsecond text hright

theorem AtLeast.anyOf {choices : List Regex}
    (all : ∀ choice ∈ choices, AtLeast counted few choice) :
    AtLeast counted few (anyOf choices) := by
  intro text h
  obtain ⟨choice, hchoice, hmatched⟩ := matches_anyOf_iff.mp h
  exact all choice hchoice text hmatched

theorem atLeast_literal {c : Char} (h : counted c = true) :
    AtLeast counted 1 (literal c) := by
  intro text hmatched
  have hcount : text.countP counted = 1 := by
    rw [matches_literal_iff.mp hmatched, List.countP_singleton, if_pos h]
  exact Nat.le_of_eq hcount.symm

theorem AtLeast.exactly (hbody : AtLeast counted few body) (times : Nat) :
    AtLeast counted (times * few) (exactly times body) := by
  intro text h
  obtain ⟨parts, rfl, hparts, rfl⟩ := matches_exactly_iff.mp h
  clear h
  induction parts with
  | nil =>
      rw [List.length_nil, Nat.zero_mul]
      exact Nat.zero_le _
  | cons part parts ih =>
      rw [List.forall_mem_cons] at hparts
      rw [List.length_cons, List.flatten_cons, List.countP_append, Nat.succ_mul,
        Nat.add_comm]
      exact Nat.add_le_add (hbody part hparts.1) (ih hparts.2)

theorem AtLeast.between (hbody : AtLeast counted few body)
    (least most : Nat) :
    AtLeast counted (least * few) (between least most body) :=
  (hbody.exactly least).before

end AtLeast

end TwakeKickstart.Library.Regex
